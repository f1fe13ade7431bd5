import RecursiveDescent.Lexeme

/-! # Where the patterns of lexemes match

The text from an offset on decides where a pattern matches that looks neither back nor at its captures.
A text is written as what is read and what comes after; a run of characters of one set ends where the
next character does not belong to the set.
-/

namespace RecursiveDescent

/-! ## The rest of a text -/

namespace Source

variable {source : Source} {pos : Nat} {c : Char} {text read after : List Char}

def rest (source : Source) (pos : Nat) : List Char := source.chars.toList.drop pos

@[simp] theorem length_rest (source : Source) (pos : Nat) : (source.rest pos).length = source.size - pos := by
  simp only [rest, List.length_drop, Array.length_toList, size]

theorem char?_eq_head? (source : Source) (pos : Nat) : source.char? pos = (source.rest pos).head? := by
  simp only [char?, rest, List.head?_drop, Array.getElem?_toList]

theorem char?_of_rest (here : source.rest pos = c :: text) : source.char? pos = some c := by
  rw [char?_eq_head?, here, List.head?_cons]

theorem rest_drop (source : Source) (pos count : Nat) : source.rest (pos + count) = (source.rest pos).drop count := by
  rw [rest, rest, List.drop_drop]

theorem rest_add (here : source.rest pos = read ++ after) : source.rest (pos + read.length) = after := by
  rw [rest_drop, here, List.drop_left]

theorem rest_succ (here : source.rest pos = c :: text) : source.rest (pos + 1) = text := by
  rw [rest_drop, here, List.drop_one, List.tail_cons]

theorem room_of_rest (here : source.rest pos = text) : source.size - pos = text.length := by
  rw [← here, length_rest]

theorem extract_of_rest (here : source.rest pos = read ++ after) :
    source.extract pos (pos + read.length) = String.ofList read := by
  have prefixed : (source.chars.extract pos (pos + read.length)).toList = read := by
    rw [Array.toList_extract, List.extract_eq_take_drop, Nat.add_sub_cancel_left, ← rest, here, List.take_left]
  rw [extract, prefixed]

theorem slice_of_rest (here : source.rest pos = read ++ after) (within : pos ≤ source.size) :
    source.slice pos (pos + read.length) = String.ofList read := by
  have room := room_of_rest here
  rw [List.length_append] at room
  rw [slice, ← Int.natCast_add, bound_of_le within, bound_of_le (by omega), extract_of_rest here]

end Source

/-! ## Sets of characters -/

namespace CharSet

theorem accepts_range (first last : Nat) (c : Char) :
    (⟨[.range first last], false, false⟩ : CharSet).accepts c = (first ≤ c.toNat && c.toNat ≤ last) := by
  simp [accepts, CharItem.accepts]

theorem accepts_char (expected c : Char) :
    (⟨[.char expected], false, false⟩ : CharSet).accepts c = (c == expected) := by
  rw [CharItem.char, accepts_range, Bool.eq_iff_iff, Bool.and_eq_true, decide_eq_true_eq, decide_eq_true_eq, beq_iff_eq,
    ← Char.toNat_inj]
  omega

theorem accepts_digit (c : Char) : (⟨[.range 0x30 0x39], false, false⟩ : CharSet).accepts c = c.isDigit := by
  rw [accepts_range, Char.isDigit]
  rfl

theorem accepts_blank (c : Char) : (⟨[.named .blank false], false, false⟩ : CharSet).accepts c = Text.isBlank c := by
  simp [accepts, CharItem.accepts, CharProperty.holds]

end CharSet

/-! ## Runs of characters -/

/-- What is left after a run of characters with a property does not begin with such a character. -/
theorem any_head?_dropWhile (p : Char → Bool) (text : List Char) : (text.dropWhile p).head?.any p = false := by
  have first := List.head?_dropWhile_not p text
  cases found : (text.dropWhile p).head? with
  | none => rfl
  | some c =>
    rw [found] at first
    exact first

namespace Pattern

variable {source : Source} {set : CharSet} {pos limit count least : Nat} {follow : Option CharSet}
  {state done : Progress} {next : Continuation} {c : Char} {read after : List Char}

/-- A run reaches to the first character that does not belong to the set, or as far as it may. -/
theorem runEnd_of_rest (here : source.rest pos = read ++ after) (accepted : ∀ c ∈ read, set.accepts c = true)
    (stopped : limit = read.length ∨ (read.length ≤ limit ∧ after.head?.any set.accepts = false)) :
    runEnd source set limit pos = pos + read.length := by
  induction read generalizing pos limit with
  | nil =>
    cases limit with
    | zero => rfl
    | succ limit =>
      rcases stopped with same | ⟨_, stopped⟩
      · cases same
      · rw [runEnd, Source.char?_eq_head?, here, List.nil_append, stopped, if_neg Bool.false_ne_true]
        rfl
  | cons c read ih =>
    obtain ⟨limit, rfl⟩ : ∃ more, limit = more + 1 := by
      refine ⟨limit - 1, ?_⟩
      rw [List.length_cons] at stopped
      omega
    obtain ⟨accept, accepted⟩ := List.forall_mem_cons.mp accepted
    rw [runEnd, Source.char?_of_rest here, Option.any_some, accept, if_pos rfl, ih (Source.rest_succ here) accepted]
    · rw [List.length_cons]
      omega
    · exact stopped.imp Nat.succ.inj fun ⟨le, stopped⟩ => ⟨Nat.le_of_succ_le_succ le, stopped⟩

/-- If the farthest position leads on, it is the one that is taken. -/
theorem farthestFirst_of_some (follows : mayFollow source follow (pos + count) = true)
    (led : next (state.move (pos + count)) = some done) :
    farthestFirst source follow next state pos count = some done := by
  cases count with
  | zero => exact led
  | succ count => rw [farthestFirst, if_pos follows, led]

/-- If no position leads on, none is taken. -/
theorem farthestFirst_of_none (fails : ∀ moved ≤ count, next (state.move (pos + moved)) = none) :
    farthestFirst source follow next state pos count = none := by
  induction count with
  | zero => exact fails 0 (Nat.le_refl 0)
  | succ count ih =>
    have nearer := ih fun moved le => fails moved (Nat.le_succ_of_le le)
    rw [farthestFirst, fails (count + 1) (Nat.le_refl _), nearer, ite_self]

/-- A greedy span without an upper bound tries the positions of a whole run, from its end. -/
theorem attempt_span (here : source.rest state.pos = read ++ after) (accepted : ∀ c ∈ read, set.accepts c = true)
    (stopped : after.head?.any set.accepts = false) :
    attempt source (.span least none true set follow) next state =
      if read.length < least then none
      else farthestFirst source follow next state (state.pos + least) (read.length - least) := by
  have room := Source.room_of_rest here
  have run : runEnd source set (source.size - state.pos) state.pos = state.pos + read.length := by
    refine runEnd_of_rest here accepted (.inr ⟨?_, stopped⟩)
    rw [room, List.length_append]
    exact Nat.le_add_right _ _
  simp only [attempt, Option.getD_none, Nat.min_self, run, Nat.add_sub_cancel_left]

/-- A greedy span takes a whole run, if that leads on. -/
theorem attempt_span_of_some (here : source.rest state.pos = read ++ after)
    (accepted : ∀ c ∈ read, set.accepts c = true) (stopped : after.head?.any set.accepts = false)
    (enough : least ≤ read.length) (follows : mayFollow source follow (state.pos + read.length) = true)
    (led : next (state.move (state.pos + read.length)) = some done) :
    attempt source (.span least none true set follow) next state = some done := by
  have whole : state.pos + least + (read.length - least) = state.pos + read.length := by omega
  rw [attempt_span here accepted stopped, if_neg (Nat.not_lt.mpr enough)]
  exact farthestFirst_of_some (by rwa [whole]) (by rwa [whole])

theorem attempt_char_of_accepts (here : source.rest state.pos = c :: after) (accepted : set.accepts c = true) :
    attempt source (.char set) next state = next (state.move (state.pos + 1)) := by
  simp only [attempt, Source.char?_of_rest here, Option.any_some, accepted, if_true]

theorem attempt_char_of_rejects (rejected : (source.rest state.pos).head?.any set.accepts = false) :
    attempt source (.char set) next state = none := by
  simp only [attempt, Source.char?_eq_head?, rejected, Bool.false_eq_true, if_false]

theorem attempt_alt_of_some {first second : Pattern} (led : attempt source first next state = some done) :
    attempt source (.alt first second) next state = some done := by
  simp only [attempt, led]

theorem attempt_alt_of_none {first second : Pattern} (failed : attempt source first next state = none) :
    attempt source (.alt first second) next state = attempt source second next state := by
  simp only [attempt, failed]

end Pattern

/-! ## Lexemes -/

namespace Lexeme

open Pattern

variable {source : Source} {start : Nat} {negative : Bool} {text read whole places after : List Char}

def minus : Bool → List Char
  | true => ['-']
  | false => []

/-- Digits without leading zeros. -/
def IsNumeral (digits : List Char) : Prop :=
  digits = ['0'] ∨ ∃ first others, digits = first :: others ∧ first ≠ '0' ∧ ∀ c ∈ digits, c.isDigit = true

/-- White space is matched as far as it goes. -/
theorem whitespace_end? (here : source.rest start = text ++ after) (nonempty : text ≠ [])
    (blank : ∀ c ∈ text, Text.isBlank c = true) (stopped : after.head?.any Text.isBlank = false) :
    whitespaceTree.end? source start = some (start + text.length) := by
  rw [← funext CharSet.accepts_blank] at blank stopped
  have state : source.rest (Progress.mk start []).pos = text ++ after := here
  rw [end?, whitespaceTree, attempt_span_of_some state blank stopped (List.length_pos_iff.mpr nonempty) rfl rfl]
  rfl

theorem whitespace_end?_none (stopped : (source.rest start).head?.any Text.isBlank = false) :
    whitespaceTree.end? source start = none := by
  rw [← funext CharSet.accepts_blank] at stopped
  have state : source.rest (Progress.mk start []).pos = [] ++ source.rest start := rfl
  rw [end?, whitespaceTree, attempt_span state (List.forall_mem_nil _) stopped]
  rfl

/-- A sign is taken if that leads on, and else left. -/
theorem attempt_sign {next : Continuation} {state : Progress} (here : source.rest state.pos = minus negative ++ text)
    (unsigned : text.head? ≠ some '-') :
    attempt source sign next state = farthestFirst source none next state state.pos (minus negative).length := by
  have room := Source.room_of_rest here
  rw [List.length_append] at room
  have run : runEnd source ⟨[.char '-'], false, false⟩ (min (source.size - state.pos) 1) state.pos =
      state.pos + (minus negative).length := by
    cases negative with
    | true =>
      refine runEnd_of_rest here (List.forall_mem_singleton.mpr (by decide)) (.inl ?_)
      rw [room, minus, List.length_singleton]
      omega
    | false =>
      refine runEnd_of_rest here (List.forall_mem_nil _) (.inr ⟨Nat.zero_le _, ?_⟩)
      cases text with
      | nil => rfl
      | cons c text =>
        rw [List.head?_cons, Option.any_some, CharSet.accepts_char, beq_eq_false_iff_ne]
        exact fun same => unsigned (congrArg some same)
  have positive : ¬(minus negative).length < 0 := Nat.not_lt_zero _
  simp only [sign, attempt, Option.getD_some, run, Nat.add_sub_cancel_left, if_neg positive, Nat.add_zero, Nat.sub_zero]

/-- What follows a sign, if there is one, decides whether a signed pattern matches. -/
theorem end?_sign_of_some {body : Pattern} {done : Progress} (here : source.rest start = minus negative ++ text)
    (unsigned : text.head? ≠ some '-')
    (led : attempt source body some ⟨start + (minus negative).length, []⟩ = some done) :
    (Pattern.seq sign body).end? source start = some done.pos := by
  have state : source.rest (Progress.mk start []).pos = minus negative ++ text := here
  rw [end?, attempt, attempt_sign state unsigned, farthestFirst_of_some rfl led, Option.map_some]

theorem head?_ne_minus {c : Char} {text : List Char} (digit : c.isDigit = true) : (c :: text).head? ≠ some '-' := by
  rintro ⟨⟩
  exact absurd digit (by decide)

/-- A numeral is taken as a whole, if that leads on. Unless it is a zero, no digit may follow. -/
theorem attempt_numeral {next : Continuation} {state done : Progress} (here : source.rest state.pos = read ++ after)
    (numeral : IsNumeral read) (stopped : read = ['0'] ∨ after.head?.any Char.isDigit = false)
    (led : next (state.move (state.pos + read.length)) = some done) :
    attempt source (.alt (oneOf [.char '0']) (.seq (oneOf [.range 0x31 0x39]) (digits 0 none))) next state =
      some done := by
  rcases numeral with rfl | ⟨first, others, rfl, nonzero, areDigits⟩
  · exact attempt_alt_of_some ((attempt_char_of_accepts here (by decide)).trans led)
  · have notZero : (source.rest state.pos).head?.any (CharSet.accepts ⟨[.char '0'], false, false⟩) = false := by
      rw [here, List.cons_append, List.head?_cons, Option.any_some, CharSet.accepts_char]
      exact beq_eq_false_iff_ne.mpr nonzero
    obtain ⟨firstDigit, othersDigits⟩ := List.forall_mem_cons.mp areDigits
    have stopped := stopped.resolve_left fun zero => nonzero (List.head_eq_of_cons_eq zero)
    rw [← funext CharSet.accepts_digit] at stopped othersDigits
    have accepted : (⟨[.range 0x31 0x39], false, false⟩ : CharSet).accepts first = true := by
      rw [← CharSet.accepts_digit, CharSet.accepts_range, Bool.and_eq_true, decide_eq_true_eq,
        decide_eq_true_eq] at firstDigit
      rw [Ne, ← Char.toNat_inj] at nonzero
      have zero : '0'.toNat = 0x30 := rfl
      rw [CharSet.accepts_range, Bool.and_eq_true, decide_eq_true_eq, decide_eq_true_eq]
      omega
    have there : source.rest (state.move (state.pos + 1)).pos = others ++ after := Source.rest_succ here
    apply (attempt_alt_of_none (attempt_char_of_rejects notZero)).trans
    apply (attempt_char_of_accepts here accepted).trans
    apply attempt_span_of_some there othersDigits stopped (Nat.zero_le _) rfl
    rwa [List.length_cons, Nat.add_comm others.length, ← Nat.add_assoc] at led

/-- The integer pattern matches a numeral that no digit follows, and a zero whatever follows. -/
theorem integer_end? (here : source.rest start = minus negative ++ (read ++ after)) (numeral : IsNumeral read)
    (stopped : read = ['0'] ∨ after.head?.any Char.isDigit = false) :
    integerTree.end? source start = some (start + (minus negative ++ read).length) := by
  have there : source.rest (Progress.mk (start + (minus negative).length) []).pos = read ++ after :=
    Source.rest_add here
  have unsigned : (read ++ after).head? ≠ some '-' := by
    rcases numeral with rfl | ⟨first, others, rfl, _, areDigits⟩
    · exact head?_ne_minus (by decide)
    · exact head?_ne_minus (areDigits first (List.mem_cons_self ..))
  have led : attempt source
      (.group 1 (.alt (oneOf [.char '0']) (.seq (oneOf [.range 0x31 0x39]) (Lexeme.digits 0 none)))) some
      ⟨start + (minus negative).length, []⟩ = some (Progress.capture ⟨_, []⟩ 1 (start + (minus negative).length)) :=
    attempt_numeral there numeral stopped rfl
  rw [integerTree, end?_sign_of_some here unsigned led]
  simp only [Progress.capture, List.length_append, Nat.add_assoc]

/-- A signed pattern does not match where neither the sign nor what follows it leads on. -/
theorem end?_sign_of_none {body : Pattern} (here : source.rest start = minus negative ++ text)
    (unsigned : text.head? ≠ some '-')
    (failed : ∀ moved ≤ (minus negative).length, attempt source body some ⟨start + moved, []⟩ = none) :
    (Pattern.seq sign body).end? source start = none := by
  have state : source.rest (Progress.mk start []).pos = minus negative ++ text := here
  rw [end?, attempt, attempt_sign state unsigned, farthestFirst_of_none failed, Option.map_none]

/-- The integer pattern does not match where there is neither a sign nor a digit. -/
theorem integer_end?_none (unsigned : (source.rest start).head? ≠ some '-')
    (stopped : (source.rest start).head?.any Char.isDigit = false) : integerTree.end? source start = none := by
  have rejects (first last : Nat) (within : 0x30 ≤ first ∧ last ≤ 0x39) :
      (source.rest start).head?.any (CharSet.accepts ⟨[.range first last], false, false⟩) = false := by
    cases found : (source.rest start).head? with
    | none => rfl
    | some c =>
      rw [found, Option.any_some, ← CharSet.accepts_digit, CharSet.accepts_range] at stopped
      rw [Option.any_some, CharSet.accepts_range]
      grind
  refine end?_sign_of_none (show source.rest start = minus false ++ source.rest start from rfl) unsigned
    fun moved le => ?_
  obtain rfl := Nat.le_zero.mp le
  exact (attempt_alt_of_none (attempt_char_of_rejects (rejects _ _ (by decide)))).trans
    (attempt_char_of_rejects (rejects _ _ (by decide)))

/-- The decimal pattern matches two numerals with a point between them that no digit follows. -/
theorem float_end? (here : source.rest start = minus negative ++ (whole ++ '.' :: (places ++ after)))
    (nonempty : whole ≠ [] ∧ places ≠ []) (isWhole : ∀ c ∈ whole, c.isDigit = true)
    (arePlaces : ∀ c ∈ places, c.isDigit = true) (stopped : after.head?.any Char.isDigit = false) :
    floatTree.end? source start = some (start + (minus negative ++ (whole ++ '.' :: places)).length) := by
  obtain ⟨someWhole, somePlaces⟩ := nonempty
  have unsigned : (whole ++ '.' :: (places ++ after)).head? ≠ some '-' := by
    obtain ⟨first, others, rfl⟩ := List.exists_cons_of_ne_nil someWhole
    exact head?_ne_minus (isWhole first (List.mem_cons_self ..))
  rw [← funext CharSet.accepts_digit] at isWhole arePlaces stopped
  have atWhole : source.rest (Progress.mk (start + (minus negative).length) []).pos =
      whole ++ '.' :: (places ++ after) :=
    Source.rest_add here
  have atPoint := Source.rest_add atWhole
  have follows : mayFollow source (some point) (start + (minus negative).length + whole.length) = true := by
    rw [mayFollow, Option.all_some, Source.char?_of_rest atPoint]
    decide
  have fraction : attempt source (digits 1 none) some
      ⟨start + (minus negative).length + whole.length + 1, []⟩ = some ⟨_, []⟩ :=
    attempt_span_of_some (Source.rest_succ atPoint) arePlaces stopped (List.length_pos_iff.mpr somePlaces) rfl rfl
  have led : attempt source (.seq (digits 1 (some point)) (.seq (.char point) (digits 1 none))) some
      ⟨start + (minus negative).length, []⟩ = some ⟨_, []⟩ :=
    attempt_span_of_some atWhole isWhole rfl (List.length_pos_iff.mpr someWhole) follows
      ((attempt_char_of_accepts atPoint (by decide)).trans fraction)
  rw [floatTree, end?_sign_of_some here unsigned led]
  simp only [List.length_append, List.length_cons]
  congr 1
  omega

theorem noDigit_of_stopped (stopped : after.head?.any (fun c => c.isDigit || c == '.') = false) :
    after.head?.any Char.isDigit = false := by
  cases after with
  | nil => rfl
  | cons c after => exact (Bool.or_eq_false_iff.mp stopped).1

/-- The decimal pattern does not match where no point stands after the digits. -/
theorem float_end?_none (here : source.rest start = minus negative ++ (read ++ after))
    (unsigned : (read ++ after).head? ≠ some '-') (areDigits : ∀ c ∈ read, c.isDigit = true)
    (stopped : after.head?.any (fun c => c.isDigit || c == '.') = false) : floatTree.end? source start = none := by
  have noDigit := noDigit_of_stopped stopped
  have noPoint (count : Nat) (le : count ≤ read.length) :
      ((read ++ after).drop count).head?.any point.accepts = false := by
    rw [List.drop_append_of_le_length le]
    cases left : read.drop count with
    | nil =>
      cases after with
      | nil => rfl
      | cons c after =>
        rw [List.nil_append, List.head?_cons, Option.any_some, point, CharSet.accepts_char]
        exact (Bool.or_eq_false_iff.mp stopped).2
    | cons c others =>
      have digit := areDigits c (List.mem_of_mem_drop (left ▸ List.mem_cons_self ..))
      rw [List.cons_append, List.head?_cons, Option.any_some, point, CharSet.accepts_char, beq_eq_false_iff_ne]
      rintro rfl
      exact absurd digit (by decide)
  rw [← funext CharSet.accepts_digit] at areDigits noDigit
  refine end?_sign_of_none here unsigned fun moved le => ?_
  obtain rfl | ⟨rfl, rfl⟩ : moved = (minus negative).length ∨ (negative = true ∧ moved = 0) := by
    cases negative with
    | true =>
      rcases Nat.lt_or_eq_of_le le with before | same
      · exact .inr ⟨rfl, Nat.lt_one_iff.mp before⟩
      · exact .inl same
    | false => exact .inl (Nat.le_zero.mp le)
  · have there : source.rest (Progress.mk (start + (minus negative).length) []).pos = read ++ after :=
      Source.rest_add here
    apply (attempt_span there areDigits noDigit).trans
    split
    · rfl
    · refine farthestFirst_of_none fun further within => attempt_char_of_rejects ?_
      have inRun := noPoint (1 + further) (by omega)
      rwa [← there, ← Source.rest_drop, ← Nat.add_assoc] at inRun
  · -- Without its sign, the text begins with no digit.
    have state : source.rest (Progress.mk (start + 0) []).pos = [] ++ ('-' :: (read ++ after)) := here
    exact attempt_span state (List.forall_mem_nil _) rfl

end Lexeme

end RecursiveDescent
