import RecursiveDescent.Expression
import RecursiveDescent.Proofs.Reading

/-! # Literals as patterns

A literal can also be written as a pattern, with a backslash before every character that has a meaning there. The text
of that pattern is cut into one token for each character of the literal, and the tree that the tokens form matches the
literal and nothing else. So both parsers succeed in the same places, with the same results. They fail in the same
places too, but the literal covers the characters that were compared, and the pattern none.
-/

namespace RecursiveDescent

variable {source : Source} {state : Progress} {next : Continuation} {flags : PatternFlags} {c : Char} {text : List Char}

/-! ## Escaped literals -/

namespace PatternToken

/-- The ASCII punctuation characters other than the underscore. -/
def isPunctuation (c : Char) : Bool := '!' ≤ c && c ≤ '~' && !isLetter c && !c.isDigit && c != '_'

/-- A literal text with a backslash before each punctuation character. -/
def escaped (text : List Char) : List Char := text.flatMap fun c => if isPunctuation c then ['\\', c] else [c]

theorem not_letter_or_digit (punctuation : isPunctuation c = true) : isLetter c = false ∧ c.isDigit = false := by
  simp only [isPunctuation, Bool.and_eq_true, Bool.not_eq_true'] at punctuation
  exact ⟨punctuation.1.1.2, punctuation.1.2⟩

theorem digit?_of_isDigit (other : c.isDigit = false) : digit? 10 c = none := by
  have least : ('0' ≤ c && c ≤ '9') = false := other
  simp only [digit?, least, Bool.false_eq_true, if_false]
  split_ifs <;> simp

theorem anchor?_of_isLetter (other : isLetter c = false) : anchor? c = none := by
  unfold anchor?
  split
  all_goals first | rfl | exact absurd other (by decide)

theorem namedItem?_of_isLetter (other : isLetter c = false) : namedItem? c = none := by
  unfold namedItem?
  split
  all_goals first | rfl | exact absurd other (by decide)

theorem controlCode?_of_isLetter (other : isLetter c = false) : controlCode? c = none := by
  unfold controlCode?
  split
  all_goals first | rfl | exact absurd other (by decide)

/-- A backslash takes the meaning from a punctuation character. -/
theorem first?_escaped (punctuation : isPunctuation c = true) (rest : List Char) :
    first? flags '\\' (c :: rest) = some (one flags c.toNat, rest) := by
  obtain ⟨other, notDigit⟩ := not_letter_or_digit punctuation
  have letter {d : Char} (isOne : isLetter d = true) : c ≠ d := by
    rintro rfl
    exact Bool.false_ne_true (other.symm.trans isOne)
  change escape? flags (c :: rest) = _
  simp only [escape?, anchor?_of_isLetter other, namedItem?_of_isLetter other, digit?_of_isDigit notDigit,
    escapedCode?, controlCode?_of_isLetter other, letter (d := 'x') (by decide), letter (d := 'u') (by decide),
    letter (d := 'U') (by decide), other]
  rfl

/-- Other characters have no meaning that could be taken from them. -/
theorem first?_plain (plain : isPunctuation c = false) (rest : List Char) :
    first? flags c rest = some (one flags c.toNat, rest) := by
  unfold first?
  split
  all_goals first | rfl | exact absurd plain (by decide)

/-- Each character of a literal gives one token. -/
theorem scanWith_escaped (flags : PatternFlags) (text : List Char) {fuel : Nat}
    (enough : (escaped text).length ≤ fuel) :
    scanWith flags fuel (escaped text) = some (text.map fun c => one flags c.toNat) := by
  induction text generalizing fuel with
  | nil => rw [escaped, List.flatMap_nil, scanWith, List.map_nil]
  | cons c text ih =>
    obtain ⟨first, rest, split, longer, token⟩ : ∃ first rest, escaped (c :: text) = first :: rest ∧
        (escaped text).length ≤ rest.length ∧ first? flags first rest = some (one flags c.toNat, escaped text) := by
      rw [escaped, List.flatMap_cons, ← escaped]
      cases punctuation : isPunctuation c with
      | true => exact ⟨'\\', c :: escaped text, rfl, Nat.le_succ _, first?_escaped punctuation _⟩
      | false => exact ⟨c, escaped text, rfl, Nat.le_refl _, first?_plain punctuation _⟩
    rw [split, List.length_cons] at enough
    obtain ⟨fuel, rfl⟩ : ∃ more, fuel = more + 1 := ⟨fuel - 1, by omega⟩
    have others := ih (Nat.le_trans longer (Nat.le_of_succ_le_succ enough))
    simp only [split, scanWith, token, others, Option.bind_eq_bind, Option.bind_some, List.map_cons]

end PatternToken

/-! ## The tree of a literal -/

namespace Pattern

def letter (c : Char) : Pattern := .char ⟨[.char c], false, false⟩

def letters (text : List Char) : Pattern := ofSequence (text.map letter)

/-- The tree of a literal, which is not tried where too little text is left. -/
def ofLiteral (text : List Char) : Pattern :=
  if text.length = 0 then letters text else .atLeast text.length (letters text)

theorem letters_cons_cons (first second : Char) (rest : List Char) :
    letters (first :: second :: rest) = .seq (letter first) (letters (second :: rest)) := rfl

theorem width_letters (groups : Nat → Width) (text : List Char) :
    (letters text).width groups = .exactly text.length := by
  induction text with
  | nil => rfl
  | cons first rest ih =>
    cases rest with
    | nil => rfl
    | cons second rest =>
      rw [letters_cons_cons, width, ih]
      simp [letter, width, Width.add, Width.exactly, Nat.add_comm]

/-- The tokens of characters are added to the last branch one by one. -/
theorem foldlM_step?_letters (text : List Char) (state : Assembly) :
    (text.map fun c => PatternToken.one {} c.toNat).foldlM Assembly.step? state = some { state with
      current := text.foldl (fun frame c => frame.push (letter c) true) state.current } := by
  induction text generalizing state with
  | nil => rfl
  | cons c text ih =>
    have step : state.step? (.one {} c.toNat) =
        some { state with current := state.current.push (letter c) true } := rfl
    rw [List.map_cons, List.foldlM_cons, step, Option.bind_eq_bind, Option.bind_some, ih, List.foldl_cons]

theorem foldl_push_letters (text : List Char) (frame : Frame) :
    let pushed := text.foldl (fun frame c => frame.push (letter c) true) frame
    pushed.branches = frame.branches ∧ pushed.parts = (text.map letter).reverse ++ frame.parts := by
  induction text generalizing frame with
  | nil => exact ⟨rfl, rfl⟩
  | cons c text ih =>
    obtain ⟨branches, parts⟩ := ih (frame.push (letter c) true)
    refine ⟨branches, ?_⟩
    rw [List.foldl_cons, parts, List.map_cons, List.reverse_cons, List.append_assoc]
    rfl

/-- An escaped literal is a pattern, and its tree holds the characters of the literal. -/
theorem compile?_escaped (text : List Char) :
    compile? {} (.ofList (PatternToken.escaped text)) = some (ofLiteral text) := by
  have scanned := PatternToken.scanWith_escaped {} text (Nat.le_refl _)
  obtain ⟨branches, parts⟩ := foldl_push_letters text (.fresh .plain)
  have whole : (text.foldl (fun frame c => frame.push (letter c) true) (Frame.fresh .plain)).pattern =
      letters text := by
    rw [Frame.pattern, Frame.branch, branches, parts, List.reverse_append, List.reverse_reverse]
    rfl
  rw [compile?, String.toList_ofList, PatternToken.scan?, scanned, Option.bind_eq_bind, Option.bind_some, ofTokens?,
    foldlM_step?_letters, Option.bind_eq_bind, Option.bind_some, Assembly.finish?]
  simp only [Assembly.start, List.isEmpty_nil, if_true, whole, width_letters, Width.exactly]
  rfl

/-! ## Matching -/

/-- The first character decides whether the others are tried. -/
theorem attempt_letters_cons (c : Char) (rest : List Char) :
    attempt source (letters (c :: rest)) next = attempt source (letter c) (attempt source (letters rest) next) := by
  cases rest with
  | nil => rfl
  | cons second rest => rfl

/-- The characters of a text match where the text stands. -/
theorem attempt_letters (text : List Char) :
    attempt source (letters text) next state =
      if text <+: source.rest state.pos then next (state.move (state.pos + text.length)) else none := by
  induction text generalizing state with
  | nil => exact (if_pos List.nil_prefix).symm
  | cons c text ih =>
    rw [attempt_letters_cons]
    by_cases first : (source.rest state.pos).head? = some c
    · obtain ⟨rest, here⟩ := List.head?_eq_some_iff.mp first
      have accepted : (⟨[.char c], false, false⟩ : CharSet).accepts c = true := by
        rw [CharSet.accepts_char, beq_self_eq_true]
      have there : source.rest (state.move (state.pos + 1)).pos = rest := Source.rest_succ here
      have length : (state.move (state.pos + 1)).pos + text.length = state.pos + (c :: text).length := by
        rw [List.length_cons, Nat.add_comm text.length, ← Nat.add_assoc]
        rfl
      rw [letter, attempt_char_of_accepts here accepted, ih, there, here, length]
      simp only [List.cons_prefix_cons, true_and]
      rfl
    · -- Where the first character differs, the text does not stand here whatever comes later.
      have rejected : (source.rest state.pos).head?.any (CharSet.accepts ⟨[.char c], false, false⟩) = false := by
        rw [Option.any_eq_false]
        intro other head
        rw [CharSet.accepts_char, beq_eq_false_iff_ne]
        rintro rfl
        exact first head
      rw [letter, attempt_char_of_rejects rejected, if_neg]
      rintro ⟨rest, split⟩
      exact first (split ▸ rfl)

theorem end?_ofLiteral (source : Source) (start : Nat) (text : List Char) :
    (ofLiteral text).end? source start =
      if text <+: source.rest start then some (start + text.length) else none := by
  have matched : (attempt source (letters text) some ⟨start, []⟩).map (·.pos) =
      if text <+: source.rest start then some (start + text.length) else none := by
    rw [attempt_letters, apply_ite (Option.map _)]
    rfl
  rw [← matched, end?, ofLiteral]
  split
  · rfl
  · -- Where too little text is left, the literal does not stand.
    simp only [attempt]
    split
    · next short =>
      rw [matched, if_neg, Option.map_none]
      intro begins
      have long := begins.length_le
      rw [Source.length_rest] at long
      exact absurd short (Nat.not_lt.mpr long)
    · rfl

end Pattern

/-! ## Parsers -/

namespace Matcher

variable {pos : Nat}

/-- A literal succeeds where it stands; else it fails with the end of the text that it was compared with. -/
theorem literal_eq (word : String) (within : pos ≤ source.size) :
    literal word source pos = pure (if word.toList <+: source.rest pos then
      .success ⟨pos + word.length, ⟨pos, pos + word.length⟩, .text word⟩
    else .failure ⟨min (pos + word.length) source.size, ⟨pos, min (pos + word.length) source.size⟩, word⟩) := by
  have compared := literal_slice rfl within word
  have stop : max (pos : Int) (min (pos + word.length) source.size) = min (pos + word.length : Int) source.size := by
    omega
  have taken : String.ofList ((source.rest pos).take word.length) = word ↔ word.toList <+: source.rest pos := by
    rw [← String.toList_inj, String.toList_ofList, ← String.length_toList, List.prefix_iff_eq_take, eq_comm]
  rw [stop] at compared
  simp only [literal, stop, compared, taken]
  split
  · next begins =>
    have room := begins.length_le
    rw [Source.length_rest, String.length_toList] at room
    rw [Int.min_eq_left (by omega)]
  · rfl

theorem pattern_ofLiteral_eq (word : String) (within : pos ≤ source.size) :
    pattern (.ofLiteral word.toList) word source pos = pure (if word.toList <+: source.rest pos then
      .success ⟨pos + word.length, ⟨pos, pos + word.length⟩, .text word⟩
    else .failure ⟨pos, ⟨pos, pos⟩, word⟩) := by
  have clamped := Source.clamp_of_le within
  by_cases begins : word.toList <+: source.rest pos
  · obtain ⟨after, split⟩ := begins
    have extracted := Source.extract_of_rest split.symm
    rw [String.length_toList, String.ofList_toList] at extracted
    simp only [pattern, clamped, Pattern.end?_ofLiteral, ← split, List.prefix_append, if_true, String.length_toList,
      extracted, Int.natCast_add]
  · simp only [pattern, clamped, Pattern.end?_ofLiteral, begins, if_false]

end Matcher

namespace Expression

/-- A literal, and the pattern that is the literal with its punctuation escaped, are parsers that do the same wherever
the literal stands in a text, and both fail everywhere else. -/
theorem escaped_pattern_matches_literal (scope : Scope) (word : String) :
    Expression.parser scope (.literal word) = pure (.literal word) ∧
      ∃ tree, Expression.parser scope (.pattern {} (.ofList (PatternToken.escaped word.toList)) word) =
          pure (.pattern tree word) ∧
        ∀ (store : Store) (source : Source) (pos : Nat), pos ≤ source.size →
          let stop : Int := pos + word.length
          let compared : Int := min stop source.size
          store.matcher (.literal word) source pos = pure (if word.toList <+: source.rest pos then
            .success ⟨stop, ⟨pos, stop⟩, .text word⟩ else .failure ⟨compared, ⟨pos, compared⟩, word⟩) ∧
          store.matcher (.pattern tree word) source pos = pure (if word.toList <+: source.rest pos then
            .success ⟨stop, ⟨pos, stop⟩, .text word⟩ else .failure ⟨pos, ⟨pos, pos⟩, word⟩) := by
  have compiled := Pattern.compile?_escaped word.toList
  refine ⟨rfl, .ofLiteral word.toList, ?_, fun store source pos within => ?_⟩
  · simp only [Expression.parser, resolve, compile, compiled, pure_bind, Resolved.tree]
  · exact ⟨Matcher.literal_eq word within, Matcher.pattern_ofLiteral_eq word within⟩

/-- A call: its brackets are escaped and its underscore is not. Where the text ends too early, only the literal tells
how far it was compared. -/
theorem call_matches_escaped : PatternToken.escaped "f(_)".toList = "f\\(_\\)".toList ∧
    ∃ tree, Expression.parser .empty (.pattern {} (.ofList (PatternToken.escaped "f(_)".toList)) "f(_)") =
        pure (.pattern tree "f(_)") ∧
      (1 ≤ (Source.ofString "xf(_)").size ∧
        Store.empty.matcher (.literal "f(_)") (.ofString "xf(_)") 1 = pure (.success ⟨5, ⟨1, 5⟩, .text "f(_)"⟩) ∧
        Store.empty.matcher (.pattern tree "f(_)") (.ofString "xf(_)") 1 =
          pure (.success ⟨5, ⟨1, 5⟩, .text "f(_)"⟩)) ∧
      (0 ≤ (Source.ofString "f(").size ∧
        Store.empty.matcher (.literal "f(_)") (.ofString "f(") 0 = pure (.failure ⟨2, ⟨0, 2⟩, "f(_)"⟩) ∧
        Store.empty.matcher (.pattern tree "f(_)") (.ofString "f(") 0 = pure (.failure ⟨0, ⟨0, 0⟩, "f(_)"⟩)) := by
  obtain ⟨-, tree, compiled, results⟩ := escaped_pattern_matches_literal .empty "f(_)"
  exact ⟨by decide, tree, compiled, ⟨by decide, results .empty (.ofString "xf(_)") 1 (by decide)⟩,
    ⟨by decide, results .empty (.ofString "f(") 0 (by decide)⟩⟩

end Expression

end RecursiveDescent
