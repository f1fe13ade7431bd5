import RecursiveDescent.Proofs.Alternatives
import RecursiveDescent.Proofs.PatternTexts

/-! # Lexemes are longest prefixes

White space, integers and decimals each have a language, which says what they look like and nothing of how they are
found. Their patterns are matched by backtracking, with an order of preference. Still, each takes the longest prefix
that belongs to its language wherever there is one, and matches nowhere else.

That a match belongs to the language follows from what the pattern spells. That it is the longest is seen by
extending any prefix that belongs to the language as far as its characters allow.
-/

namespace RecursiveDescent

/-- A prefix of a text that belongs to a language, and none that does is longer. -/
structure LongestPrefix (language : List Char → Prop) (text lexeme : List Char) : Prop where
  begins : lexeme <+: text
  belongs : language lexeme
  longest : ∀ other, other <+: text → language other → other.length ≤ lexeme.length

theorem LongestPrefix.unique {language : List Char → Prop} {text lexeme other : List Char}
    (longest : LongestPrefix language text lexeme) (another : LongestPrefix language text other) : lexeme = other := by
  have le := another.longest lexeme longest.begins longest.belongs
  have ge := longest.longest other another.begins another.belongs
  exact (List.prefix_of_prefix_length_le longest.begins another.begins le).eq_of_length (Nat.le_antisymm le ge)

/-! ## Runs of characters -/

section Runs

variable {p : Char → Bool} {text read run after : List Char}

/-- A run of characters with a property that ends where the next one does not have it is taken as a whole. -/
theorem takeWhile_of_run (each : ∀ c ∈ run, p c = true) (stopped : after.head?.any p = false) :
    (run ++ after).takeWhile p = run := by
  rw [List.takeWhile_append_of_pos each]
  cases after with
  | nil => exact List.append_nil run
  | cons c after => rw [List.takeWhile_cons_of_neg (Bool.not_eq_true _ ▸ stopped), List.append_nil]

/-- So no run of such characters with which the text begins is longer. -/
theorem length_le_run (each : ∀ c ∈ run, p c = true) (stopped : after.head?.any p = false)
    (begins : read <+: run ++ after) (others : ∀ c ∈ read, p c = true) : read.length ≤ run.length := by
  obtain ⟨rest, split⟩ := begins
  rw [← takeWhile_of_run each stopped, ← split, List.takeWhile_append_of_pos others, List.length_append]
  exact Nat.le_add_right _ _

/-- Whatever a text begins with can be extended to a longest run. -/
theorem exists_run_of_prefix (begins : read <+: text) (each : ∀ c ∈ read, p c = true) :
    ∃ more after, text = (read ++ more) ++ after ∧ (∀ c ∈ read ++ more, p c = true) ∧ after.head?.any p = false := by
  obtain ⟨rest, rfl⟩ := begins
  refine ⟨rest.takeWhile p, rest.dropWhile p, ?_, ?_, any_head?_dropWhile p rest⟩
  · rw [List.append_assoc, List.takeWhile_append_dropWhile]
  · exact List.forall_mem_append.mpr ⟨each, List.all_eq_true.mp List.all_takeWhile⟩

end Runs

/-! ## Patterns of languages -/

namespace Pattern

/-- Wherever it is attempted, a pattern matches the longest prefix that belongs to a language, or nothing if none
does. -/
def Scans (tree : Pattern) (language : List Char → Prop) : Prop :=
  ∀ (source : Source) (start : Nat),
    (∃ lexeme, LongestPrefix language (source.rest start) lexeme ∧
      tree.end? source start = some (start + lexeme.length)) ∨
    (∀ lexeme, lexeme <+: source.rest start → ¬language lexeme) ∧ tree.end? source start = none

/-- A plain pattern that spells only what belongs to a language matches nothing where no prefix does. It is left to
show what it matches where one does. -/
theorem scans_of_spells {tree : Pattern} {language : List Char → Prop} (plain : tree.isPlain = true)
    (belongs : ∀ text, tree.Spells text → language text)
    (reaches : ∀ (source : Source) (start : Nat) (lexeme : List Char), lexeme <+: source.rest start →
      language lexeme → ∃ longest, LongestPrefix language (source.rest start) longest ∧
        tree.end? source start = some (start + longest.length)) : tree.Scans language := by
  intro source start
  by_cases some : ∃ lexeme, lexeme <+: source.rest start ∧ language lexeme
  · obtain ⟨lexeme, begins, belonging⟩ := some
    exact .inl (reaches source start lexeme begins belonging)
  · have none : ∀ lexeme, lexeme <+: source.rest start → ¬language lexeme :=
      fun lexeme begins belonging => some ⟨lexeme, begins, belonging⟩
    refine .inr ⟨none, Option.eq_none_iff_forall_ne_some.mpr fun stop matched => ?_⟩
    obtain ⟨read, after, spells, split, _⟩ := spells_of_end? plain matched
    exact none read ⟨after, split.symm⟩ (belongs read spells)

end Pattern

namespace Lexeme

open Pattern

variable {source : Source} {pos : Nat} {negative minor : Bool} {text read digits whole places after : List Char}

/-! ## The languages of lexemes -/

def IsWhitespace (text : List Char) : Prop := text ≠ [] ∧ ∀ c ∈ text, Text.isBlank c = true

/-- A minus or nothing, and then a zero, or digits that do not begin with one. -/
def IsInteger (text : List Char) : Prop := ∃ negative digits, text = minus negative ++ digits ∧ IsNumeral digits

/-- A minus or nothing, and then digits, a point, and digits again, one at least on either side. -/
def IsDecimal (text : List Char) : Prop :=
  ∃ negative whole places, text = minus negative ++ (whole ++ '.' :: places) ∧ (whole ≠ [] ∧ places ≠ []) ∧
    (∀ c ∈ whole, c.isDigit = true) ∧ ∀ c ∈ places, c.isDigit = true

/-! ## White space -/

theorem isWhitespace_of_spells (spells : whitespaceTree.Spells text) : IsWhitespace text := by
  cases spells with
  | span _ enough _ accepted =>
    refine ⟨List.length_pos_iff.mp enough, fun c member => ?_⟩
    rw [← CharSet.accepts_blank]
    exact accepted c member

theorem whitespace_scans : whitespaceTree.Scans IsWhitespace := by
  refine scans_of_spells (by decide) (fun _ => isWhitespace_of_spells) fun source start lexeme begins belongs => ?_
  obtain ⟨nonempty, blank⟩ := belongs
  obtain ⟨more, after, here, each, stopped⟩ := exists_run_of_prefix begins blank
  have someBlank : lexeme ++ more ≠ [] := fun empty => nonempty (List.append_eq_nil_iff.mp empty).1
  refine ⟨lexeme ++ more, ⟨⟨after, here.symm⟩, ⟨someBlank, each⟩, fun other starts belongs => ?_⟩,
    whitespace_end? here someBlank each stopped⟩
  rw [here] at starts
  exact length_le_run each stopped starts belongs.2

/-! ## Integers -/

/-- Two texts without a minus at the beginning are in the same place of a text only if the sign before them is the
same. -/
theorem prefix_of_minus_prefix (begins : minus minor ++ read <+: minus negative ++ text) (nonempty : read ≠ [])
    (unsigned : read.head? ≠ some '-') (free : text.head? ≠ some '-') : minor = negative ∧ read <+: text := by
  cases minor <;> cases negative
  · exact ⟨rfl, begins⟩
  · obtain ⟨c, others, rfl⟩ := List.exists_cons_of_ne_nil nonempty
    obtain ⟨rfl, _⟩ := List.cons_prefix_cons.mp begins
    exact absurd rfl unsigned
  · obtain ⟨rest, split⟩ := begins
    exact absurd (congrArg List.head? split.symm) free
  · exact ⟨rfl, (List.cons_prefix_cons.mp begins).2⟩

/-- A numeral is not longer than one that ends where no further digit follows, or is a zero. -/
theorem IsNumeral.length_le (numeral : IsNumeral read) (other : IsNumeral digits)
    (stopped : read = ['0'] ∨ after.head?.any Char.isDigit = false) (begins : digits <+: read ++ after) :
    digits.length ≤ read.length := by
  rcases stopped with rfl | stopped
  · rcases other with rfl | ⟨first, others, rfl, nonzero, _⟩
    · exact Nat.le_refl _
    · exact absurd (List.cons_prefix_cons.mp begins).1 nonzero
  · exact length_le_run numeral.areDigits stopped begins other.areDigits

/-- A numeral that ends so, with its sign, is the longest integer literal. -/
theorem longest_integer (numeral : IsNumeral read) (stopped : read = ['0'] ∨ after.head?.any Char.isDigit = false) :
    LongestPrefix IsInteger (minus negative ++ (read ++ after)) (minus negative ++ read) where
  begins := ⟨after, List.append_assoc ..⟩
  belongs := ⟨negative, read, rfl, numeral⟩
  longest := by
    rintro _ begins ⟨minor, digits, rfl, other⟩
    obtain ⟨rfl, follows⟩ := prefix_of_minus_prefix begins other.nonempty other.unsigned
      (head?_ne_minus_of_digits numeral.areDigits numeral.nonempty after)
    rw [List.length_append, List.length_append]
    exact Nat.add_le_add_left (numeral.length_le other stopped follows) _

/-- A numeral at the beginning of a text can be extended until it ends so. -/
theorem IsNumeral.extend (numeral : IsNumeral digits) (begins : digits <+: text) :
    ∃ read after, text = read ++ after ∧ IsNumeral read ∧ (read = ['0'] ∨ after.head?.any Char.isDigit = false) := by
  rcases numeral with rfl | ⟨first, others, rfl, nonzero, areDigits⟩
  · obtain ⟨after, rfl⟩ := begins
    exact ⟨['0'], after, rfl, .inl rfl, .inl rfl⟩
  · obtain ⟨more, after, split, each, stopped⟩ := exists_run_of_prefix begins areDigits
    exact ⟨_, after, split, .inr ⟨first, others ++ more, rfl, nonzero, each⟩, .inr stopped⟩

theorem integer_scans : integerTree.Scans IsInteger := by
  refine scans_of_spells (by decide) (fun _ => numeral_of_spells) ?_
  rintro source start _ ⟨rest, here⟩ ⟨negative, digits, rfl, numeral⟩
  obtain ⟨read, after, split, numeral, stopped⟩ := numeral.extend (List.prefix_append digits rest)
  rw [List.append_assoc, split] at here
  refine ⟨minus negative ++ read, ?_, integer_end? here.symm numeral stopped⟩
  rw [← here]
  exact longest_integer numeral stopped

/-! ## Decimals -/

theorem isDecimal_of_spells (spells : floatTree.Spells text) : IsDecimal text := by
  cases spells with
  | seq before later =>
    obtain ⟨negative, rfl⟩ := minus_of_spells before
    cases later with
    | seq whole later =>
      obtain ⟨someWhole, isWhole⟩ := digits_of_spells whole
      cases later with
      | seq point places =>
        obtain ⟨somePlaces, arePlaces⟩ := digits_of_spells places
        cases point with
        | char accepted =>
          rw [Lexeme.point, CharSet.accepts_char, beq_iff_eq] at accepted
          subst accepted
          exact ⟨negative, _, _, rfl, ⟨List.length_pos_iff.mp someWhole, List.length_pos_iff.mp somePlaces⟩, isWhole,
            arePlaces⟩

/-- Two runs of digits, with a point between them and no digit after them, are the longest decimal literal. -/
theorem longest_decimal (nonempty : whole ≠ [] ∧ places ≠ []) (isWhole : ∀ c ∈ whole, c.isDigit = true)
    (arePlaces : ∀ c ∈ places, c.isDigit = true) (stopped : after.head?.any Char.isDigit = false) :
    LongestPrefix IsDecimal (minus negative ++ (whole ++ '.' :: (places ++ after)))
      (minus negative ++ (whole ++ '.' :: places)) where
  begins := ⟨after, by simp only [List.append_assoc, List.cons_append]⟩
  belongs := ⟨negative, whole, places, rfl, nonempty, isWhole, arePlaces⟩
  longest := by
    rintro _ begins ⟨minor, others, further, rfl, someOthers, areOthers, areFurther⟩
    obtain ⟨rfl, ⟨rest, split⟩⟩ := prefix_of_minus_prefix begins (by simp)
      (head?_ne_minus_of_digits areOthers someOthers.1 _) (head?_ne_minus_of_digits isWhole nonempty.1 _)
    rw [List.append_assoc, List.cons_append] at split
    -- The point is the first character that is no digit, so it stands in the same place.
    obtain ⟨before, behind⟩ := takeWhile_point areOthers (further ++ rest)
    obtain ⟨beforePoint, behindPoint⟩ := takeWhile_point isWhole (places ++ after)
    rw [split, beforePoint] at before
    rw [split, behindPoint] at behind
    have begins : further <+: places ++ after := ⟨rest, (List.cons.inj behind).2.symm⟩
    simp only [List.length_append, List.length_cons, before]
    exact Nat.add_le_add_left (Nat.add_le_add_left
      (Nat.succ_le_succ (length_le_run arePlaces stopped begins areFurther)) _) _

theorem float_scans : floatTree.Scans IsDecimal := by
  refine scans_of_spells (by decide) (fun _ => isDecimal_of_spells) ?_
  rintro source start _ ⟨rest, here⟩ ⟨negative, whole, places, rfl, nonempty, isWhole, arePlaces⟩
  obtain ⟨more, after, split, arePlaces, stopped⟩ := exists_run_of_prefix (List.prefix_append places rest) arePlaces
  rw [List.append_assoc, List.append_assoc, List.cons_append, split] at here
  have nonempty : whole ≠ [] ∧ places ++ more ≠ [] :=
    ⟨nonempty.1, fun empty => nonempty.2 (List.append_eq_nil_iff.mp empty).1⟩
  refine ⟨minus negative ++ (whole ++ '.' :: (places ++ more)), ?_,
    float_end? here.symm nonempty isWhole arePlaces stopped⟩
  rw [← here]
  exact longest_decimal nonempty isWhole arePlaces stopped

end Lexeme

/-! ## Lexers -/

namespace Matcher

variable {source : Source} {pos : Nat} {tree : Pattern} {lexer : Matcher} {language : List Char → Prop}
  {read other : List Char → Run Value} {label : String}

/-- At an offset, a lexer of a language takes the longest prefix of what is left that belongs to the language, and
its value is what is read from that prefix. If no prefix belongs to the language, the lexer fails where it is. -/
def Lexes (lexer : Matcher) (language : List Char → Prop) (read : List Char → Run Value) (label : String)
    (source : Source) (pos : Nat) : Prop :=
  (∃ lexeme, LongestPrefix language (source.rest pos) lexeme ∧
    lexer source pos = do
      let value ← read lexeme
      return .success ⟨pos + lexeme.length, ⟨pos, pos + lexeme.length⟩, value⟩) ∨
  (∀ lexeme, lexeme <+: source.rest pos → ¬language lexeme) ∧
    lexer source pos = pure (.failure ⟨pos, ⟨pos, pos⟩, label⟩)

/-- Only what is read from texts of the language matters. -/
theorem Lexes.congr (lexes : lexer.Lexes language read label source pos)
    (same : ∀ lexeme, language lexeme → read lexeme = other lexeme) : lexer.Lexes language other label source pos := by
  refine lexes.imp_left fun ⟨lexeme, longest, answer⟩ => ⟨lexeme, longest, ?_⟩
  rw [answer, same lexeme longest.belongs]

/-- A pattern of a language is a lexer of it that yields what it matched. -/
theorem lexes_pattern (scans : tree.Scans language) (label : String) (within : pos ≤ source.size) :
    (pattern tree label).Lexes language (fun lexeme => return .text (.ofList lexeme)) label source pos := by
  have clamped := Source.clamp_of_le within
  rcases scans source pos with ⟨lexeme, longest, matched⟩ | ⟨none, failed⟩
  · obtain ⟨after, split⟩ := longest.begins
    refine .inl ⟨lexeme, longest, ?_⟩
    simp only [pattern, clamped, matched, Source.extract_of_rest split.symm, pure_bind, Nat.cast_add]
  · refine .inr ⟨none, ?_⟩
    simp only [pattern, clamped, failed]

/-- What a lexer yields can be handed to a reader. -/
theorem Lexes.reading (lexes : lexer.Lexes language (fun lexeme => return .text (.ofList lexeme)) label source pos)
    (reader : String → Run Value) :
    (map lexer (Lexeme.reading reader)).Lexes language (fun lexeme => reader (.ofList lexeme)) label source pos := by
  rcases lexes with ⟨lexeme, longest, answer⟩ | ⟨none, answer⟩
  · refine .inl ⟨lexeme, longest, ?_⟩
    simp only [map, onSuccess, answer, pure_bind]
    rfl
  · refine .inr ⟨none, ?_⟩
    simp only [map, onSuccess, answer, pure_bind]

/-- Where there is a longest prefix, the answer comes from it. -/
theorem Lexes.answer (lexes : lexer.Lexes language read label source pos) {lexeme : List Char}
    (longest : LongestPrefix language (source.rest pos) lexeme) :
    lexer source pos = do
      let value ← read lexeme
      return .success ⟨pos + lexeme.length, ⟨pos, pos + lexeme.length⟩, value⟩ := by
  rcases lexes with ⟨other, another, answer⟩ | ⟨none, _⟩
  · rw [longest.unique another]
    exact answer
  · exact absurd longest.belongs (none lexeme longest.begins)

/-- A success ends after a longest prefix, and its value is what is read from that. -/
theorem Lexes.of_succeeds (lexes : lexer.Lexes language read label source pos) {found : Success}
    (succeeds : lexer.Succeeds source pos found) :
    ∃ lexeme, LongestPrefix language (source.rest pos) lexeme ∧ found.pos = pos + lexeme.length ∧
      (read lexeme).outcome = .value found.value := by
  rcases lexes with ⟨lexeme, longest, answer⟩ | ⟨_, answer⟩
  · rw [Succeeds, answer] at succeeds
    obtain ⟨value, taken, same⟩ := Run.bind_outcome.mp succeeds
    cases same
    exact ⟨lexeme, longest, rfl, taken⟩
  · rw [Succeeds, answer] at succeeds
    cases succeeds

/-- A lexer stops with a fault only where there is a longest prefix that cannot be read. -/
theorem Lexes.fault_iff (lexes : lexer.Lexes language read label source pos) {cause : Fault} :
    (lexer source pos).outcome = .fault cause ↔
      ∃ lexeme, LongestPrefix language (source.rest pos) lexeme ∧ (read lexeme).outcome = .fault cause := by
  constructor
  · intro stopped
    rcases lexes with ⟨lexeme, longest, answer⟩ | ⟨_, answer⟩
    · rw [answer] at stopped
      rcases Run.bind_fault.mp stopped with refused | ⟨_, _, stopped⟩
      · exact ⟨lexeme, longest, refused⟩
      · cases stopped
    · rw [answer] at stopped
      cases stopped
  · rintro ⟨lexeme, longest, refused⟩
    rw [lexes.answer longest]
    exact Run.bind_fault.mpr (.inl refused)

end Matcher

namespace Lexeme

variable {source : Source} {pos : Nat}

/-- The integer that a literal writes, unless it has more digits than are converted. -/
def integerOf (literal : List Char) : Run Value :=
  let digits := literal.filter Char.isDigit
  if digits.length ≤ Fault.digitLimit then return .int (signed (literal.head? == some '-') (ofDigits digits))
  else .stop (.literalTooLong digits.length)

/-- The digits of a literal are all that comes after its sign. -/
theorem integerOf_eq {negative : Bool} {digits : List Char} (numeral : IsNumeral digits) :
    integerOf (minus negative ++ digits) =
      if digits.length ≤ Fault.digitLimit then pure (.int (signed negative (ofDigits digits)))
      else .stop (.literalTooLong digits.length) := by
  have kept : (minus negative ++ digits).filter Char.isDigit = digits := by
    rw [List.filter_append, List.filter_eq_self.mpr numeral.areDigits]
    cases negative <;> rfl
  have sign : ((minus negative ++ digits).head? == some '-') = negative := by
    cases negative with
    | true => rfl
    | false => exact beq_eq_false_iff_ne.mpr numeral.unsigned
  simp only [integerOf, kept, sign]

theorem readInteger_literal {literal : List Char} (belongs : IsInteger literal) :
    readInteger (.ofList literal) = integerOf literal := by
  obtain ⟨negative, digits, rfl, numeral⟩ := belongs
  rw [readInteger_eq numeral.unsigned, integerOf_eq numeral]
  by_cases short : digits.length ≤ Fault.digitLimit
  · rw [if_pos short, if_neg (Nat.not_lt.mpr short)]
  · rw [if_neg short, if_pos (Nat.not_le.mp short)]

theorem whitespace_lexes (within : pos ≤ source.size) :
    whitespace.Lexes IsWhitespace (fun lexeme => return .text (.ofList lexeme)) whitespaceLabel source pos :=
  Matcher.lexes_pattern whitespace_scans whitespaceLabel within

theorem integer_lexes (within : pos ≤ source.size) :
    integer.Lexes IsInteger integerOf integerLabel source pos :=
  ((Matcher.lexes_pattern integer_scans integerLabel within).reading readInteger).congr fun _ => readInteger_literal

theorem float_lexes (within : pos ≤ source.size) :
    float.Lexes IsDecimal (fun lexeme => return readFloat (.ofList lexeme)) floatLabel source pos :=
  (Matcher.lexes_pattern float_scans floatLabel within).reading _

/-- Within a source, each of the built-in lexers takes the longest prefix of what is left that belongs to its
language, and fails where it is if there is none. Only an integer literal of more digits than are converted is not
read, although it is the longest prefix. -/
theorem lexers_take_longest_prefixes (source : Source) (pos : Nat) (within : pos ≤ source.size) :
    whitespace.Lexes IsWhitespace (fun lexeme => return .text (.ofList lexeme)) whitespaceLabel source pos ∧
      integer.Lexes IsInteger integerOf integerLabel source pos ∧
      float.Lexes IsDecimal (fun lexeme => return readFloat (.ofList lexeme)) floatLabel source pos :=
  ⟨whitespace_lexes within, integer_lexes within, float_lexes within⟩

/-- A zero is not followed by other digits in a literal, so the longest one ends with it. -/
theorem minusZero_is_longest_prefix :
    1 ≤ (Source.ofString " -042").size ∧
      LongestPrefix IsInteger ((Source.ofString " -042").rest 1) ['-', '0'] ∧
      integer (.ofString " -042") 1 = pure (.success ⟨3, ⟨1, 3⟩, .int 0⟩) := by
  have within : 1 ≤ (Source.ofString " -042").size := by decide
  have zero : LongestPrefix IsInteger (minus true ++ (['0'] ++ ['4', '2'])) (minus true ++ ['0']) :=
    longest_integer (.inl rfl) (.inl rfl)
  obtain ⟨_, integers, _⟩ := lexers_take_longest_prefixes (.ofString " -042") 1 within
  exact ⟨within, zero, integers.answer zero⟩

end Lexeme

end RecursiveDescent
