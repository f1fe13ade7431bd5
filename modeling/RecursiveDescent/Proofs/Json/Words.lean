import RecursiveDescent.Proofs.Json.Document
import RecursiveDescent.Proofs.Json.Grammar

/-! # How words are read

A matcher accepts a language if it reads each of its texts with the same value, whatever blanks come
before and after. Numbers also need to see what follows them. Which rule can begin is told by the first
character that is not blank; where a rule cannot begin, it misses.
-/

namespace RecursiveDescent

namespace Matcher

variable {source : Source} {child matcher : Matcher} {language : Language Char} {text read after : List Char}
  {value : Value} {c : Char}

/-! ## Blanks -/

theorem skip_append_of_blank (blank : ∀ c ∈ read, Text.isBlank c = true) (text : List Char) :
    skip (read ++ text) = skip text :=
  List.dropWhile_append_of_pos blank

theorem skip_cons (solid : Text.isBlank c = false) (text : List Char) : skip (c :: text) = c :: text :=
  skip_of_head? solid

/-- A test that no blank passes fails for what follows if it fails once blanks are skipped. -/
theorem head?_any_of_skip {test : Char → Bool} (solid : ∀ c, test c = true → Text.isBlank c = false)
    (stopped : (skip text).head?.any test = false) : text.head?.any test = false := by
  cases text with
  | nil => rfl
  | cons c text =>
    by_contra passes
    rw [Bool.not_eq_false, List.head?_cons, Option.any_some] at passes
    rw [skip_cons (solid c passes), List.head?_cons, Option.any_some, passes] at stopped
    cases stopped

theorem isBlank_of_isDigit (digit : c.isDigit = true) : Text.isBlank c = false := by
  rw [← CharSet.accepts_digit, CharSet.accepts_range, Bool.and_eq_true, decide_eq_true_eq, decide_eq_true_eq] at digit
  simp only [Text.isBlank, Text.blankRanges, Text.Ranges.includes]
  grind

/-! ## Tokens -/

/-- A token is its word, up to blanks. -/
theorem skip_of_mem_token {word : List Char} (solid : Text.isBlank c = false)
    (written : read ∈ Document.token (c :: word)) (after : List Char) : ∃ blanks,
      skip (read ++ after) = (c :: word) ++ (blanks ++ after) ∧ skip (blanks ++ after) = skip after := by
  obtain ⟨_, ⟨before, blankBefore, _, rfl, rfl⟩, closing, blankAfter, rfl⟩ := written
  refine ⟨closing, ?_, skip_append_of_blank blankAfter after⟩
  rw [List.append_assoc, List.append_assoc, skip_append_of_blank blankBefore]
  exact skip_cons solid _

theorem misses_literal_of_first {word : String} (begins : word.toList.head?.any (· != c) = true) (rest : List Char) :
    (literal word).Misses source (c :: rest) := by
  apply misses_literal
  intro among
  cases letters : word.toList with
  | nil => simp [letters] at begins
  | cons d letters =>
    rw [letters] at begins among
    exact bne_iff_ne.mp begins (List.cons_prefix_cons.mp among).1

/-- What stands between brackets is missed where the first bracket does not stand. -/
theorem misses_enclosed {word : String} {rest : List Char} (first : skip text = c :: rest)
    (begins : word.toList.head?.any (· != c) = true) (child closing : Matcher) :
    (takeMid (padded (literal word)) child closing).Misses source text := by
  apply misses_map
  refine misses_sequence (.nil _) (misses_padded ?_)
  rw [first]
  exact misses_literal_of_first begins rest

/-- A matcher reads all texts of a language with one value, where what follows allows it. -/
def Accepts (matcher : Matcher) (source : Source) (language : Language Char) (follow : List Char → Prop)
    (value : Value) : Prop :=
  ∀ read ∈ language, ∀ text after, skip text = skip (read ++ after) → follow (skip after) →
    matcher.Reads source text (skip after) value

theorem Accepts.reads {follow : List Char → Prop} (accepts : matcher.Accepts source language follow value)
    (written : read ∈ language) (after : List Char) (allowed : follow (skip after)) :
    matcher.Reads source (skip (read ++ after)) (skip after) value :=
  accepts read written _ after (skip_skip _) allowed

theorem AgreeOn.accepts {follow : List Char → Prop} (agree : AgreeOn source matcher child)
    (accepts : child.Accepts source language follow value) : matcher.Accepts source language follow value :=
  fun read written text after here allowed => agree.reads (accepts read written text after here allowed)

theorem accepts_map {follow : List Char → Prop} {action : Action} {result : Value}
    (accepts : child.Accepts source language follow value) (applied : ∀ span, action value span = pure result) :
    (map child action).Accepts source language follow result :=
  fun read written text after here allowed => reads_map (accepts read written text after here allowed) applied

theorem accepts_padded {word : List Char} {follow : List Char → Prop} (solid : Text.isBlank c = false)
    (reads : ∀ after, follow (skip after) → child.Reads source ((c :: word) ++ after) after value) :
    (padded child).Accepts source (Document.token (c :: word)) follow value := by
  intro read written text after here allowed
  obtain ⟨blanks, split, same⟩ := skip_of_mem_token solid written after
  rw [← same]
  apply reads_padded
  rw [here, split]
  exact reads _ (same ▸ allowed)

theorem accepts_literal (source : Source) (word : String) (others : List Char) (same : word.toList = c :: others)
    (solid : Text.isBlank c = false) :
    (padded (literal word)).Accepts source (Document.token (c :: others)) (fun _ => True) (.text word) :=
  accepts_padded solid fun after _ => same ▸ reads_literal source word after

end Matcher

namespace JsonGrammar

open Pattern Document

variable {source : Source} {start : Nat} {content after : List Char}

/-! ## Strings -/

theorem accepts_unescaped {c : Char} (plain : c ≠ '"' ∧ c ≠ '\\') : unescaped.accepts c = true := by
  have single (expected : Char) : (CharItem.char expected).accepts c = (c == expected) := by
    rw [← CharSet.accepts_char]
    simp [CharSet.accepts]
  obtain ⟨noQuote, noEscape⟩ := plain
  simp [unescaped, CharSet.accepts, single, noQuote, noEscape]

/-- Characters that stand for themselves are taken up to the quote after them. -/
theorem optionalCopies_stringItem {state : Progress} {began : Option Nat} {count : Nat}
    (here : source.rest state.pos = content ++ '"' :: after) (plain : ∀ c ∈ content, c ≠ '"' ∧ c ≠ '\\')
    (moved : began ≠ some state.pos) (enough : content.length ≤ count) :
    (optionalCopies (attempt source stringItem) true (attempt source (.char quote) some) count began
      state).map (·.pos) = some (state.pos + content.length + 1) := by
  induction content generalizing state began count with
  | nil =>
    have closing : attempt source (.char quote) some state = some (state.move (state.pos + 1)) :=
      attempt_char_of_accepts here (by decide)
    have failed (next : Continuation) : attempt source stringItem next state = none := by
      have rejects (set : CharSet) (rejected : set.accepts '"' = false) :
          (source.rest state.pos).head?.any set.accepts = false := by
        rw [here]
        exact rejected
      exact (attempt_alt_of_none (attempt_char_of_rejects (rejects unescaped (by decide)))).trans
        (attempt_char_of_rejects (rejects _ (by decide)))
    cases count with
    | zero => rw [optionalCopies, closing]; rfl
    | succ count =>
      simp only [optionalCopies, if_neg moved, if_true, failed, closing]
      rfl
  | cons c content ih =>
    obtain ⟨count, rfl⟩ : ∃ more, count = more + 1 := ⟨count - 1, by rw [List.length_cons] at enough; omega⟩
    obtain ⟨first, plain⟩ := List.forall_mem_cons.mp plain
    have inside : source.rest ((state.move (state.pos + 1)).capture 1 state.pos).pos = content ++ '"' :: after :=
      Source.rest_succ here
    have further : some state.pos ≠ some (state.pos + 1) := fun same => Nat.succ_ne_self _ (Option.some.inj same).symm
    obtain ⟨done, led, stop⟩ := Option.map_eq_some_iff.mp (ih inside plain further (Nat.le_of_succ_le_succ enough))
    have copied : attempt source stringItem
        (optionalCopies (attempt source stringItem) true (attempt source (.char quote) some) count (some state.pos))
        state = some done :=
      attempt_alt_of_some ((attempt_char_of_accepts here (accepts_unescaped first)).trans led)
    simp only [optionalCopies, if_neg moved, if_true, copied, Option.map_some, stop, List.length_cons]
    change some (state.pos + 1 + content.length + 1) = _
    congr 1
    omega

/-- The string pattern matches plain text between quotes. -/
theorem string_end? (here : source.rest start = ('"' :: (content ++ ['"'])) ++ after)
    (plain : ∀ c ∈ content, c ≠ '"' ∧ c ≠ '\\') :
    stringTree.end? source start = some (start + ('"' :: (content ++ ['"'])).length) := by
  have room := Source.room_of_rest here
  simp only [List.length_cons, List.length_append, List.length_nil] at room
  rw [List.cons_append, List.append_assoc] at here
  have opened : attempt source (.char quote)
      (attempt source (.seq (.repeat 0 none true stringItem) (.char quote)) some) ⟨start, []⟩ =
      attempt source (.seq (.repeat 0 none true stringItem) (.char quote)) some ⟨start + 1, []⟩ :=
    attempt_char_of_accepts here (by decide)
  have inside : source.rest (Progress.mk (start + 1) []).pos = content ++ '"' :: after := Source.rest_succ here
  have long : content.length ≤ source.size - (start + 1) + 1 := by omega
  have copies := optionalCopies_stringItem inside plain (show none ≠ some (start + 1) from nofun) long
  have enough : ¬source.size - start < 2 := by omega
  change Option.map _ (if source.size - start < 2 then none else attempt source (.char quote) _ _) = _
  rw [if_neg enough, opened]
  apply copies.trans
  simp only [List.length_cons, List.length_append, List.length_nil]
  congr 1
  omega

/-- Strings begin with a quote. -/
theorem string_end?_none (other : (source.rest start).head? ≠ some '"') : stringTree.end? source start = none := by
  have rejected : (source.rest start).head?.any quote.accepts = false := by
    cases first : (source.rest start).head? with
    | none => rfl
    | some c =>
      rw [Option.any_some, quote, CharSet.accepts_char, beq_eq_false_iff_ne]
      rintro rfl
      exact other first
  have failed (next : Continuation) : attempt source (.char quote) next ⟨start, []⟩ = none :=
    attempt_char_of_rejects rejected
  change Option.map _ (if source.size - start < 2 then none else attempt source (.char quote) _ _) = _
  rw [failed, ite_self]
  rfl

/-! ## Rules -/

/-- The rules for values, in the order in which they are tried. -/
def Rule.alternatives : List Rule := [.object, .array, .string, .number, .keyword]

/-- The rule for the values that begin with a character. -/
def Rule.beginning? (c : Char) : Option Rule :=
  if c.isDigit ∨ c = '-' ∨ c = '.' then some .number
  else
    match c with
    | '{' => some .object
    | '[' => some .array
    | '"' => some .string
    | 't' | 'f' | 'n' => some .keyword
    | _ => none

def Closing (text : List Char) : Prop := ∃ c rest, text = c :: rest ∧ (c = ']' ∨ c = '}')

/-- What may follow a value in an array or object: a comma or a closing bracket comes next. -/
def Delimited (text : List Char) : Prop := (∃ rest, text = ',' :: rest) ∨ Closing text

/-- What follows a number there is neither a digit nor a point. -/
theorem not_numeric_of_delimited {after : List Char} (delimited : Delimited (Matcher.skip after)) :
    after.head?.any (fun c => c.isDigit || c == '.') = false := by
  refine Matcher.head?_any_of_skip (fun c numeric => ?_) ?_
  · rcases Bool.or_eq_true_iff.mp numeric with digit | point
    · exact Matcher.isBlank_of_isDigit digit
    · obtain rfl := beq_iff_eq.mp point
      decide
  · rcases delimited with ⟨rest, first⟩ | ⟨c, rest, first, rfl | rfl⟩ <;>
    · rw [first]
      rfl

/-- The words of numbers begin with a sign or a digit. -/
theorem exists_first (negative : Bool) {digits : List Char} (areDigits : ∀ c ∈ digits, c.isDigit = true)
    (nonempty : digits ≠ []) (text : List Char) : ∃ c rest, Lexeme.minus negative ++ (digits ++ text) = c :: rest ∧
      Text.isBlank c = false ∧ Rule.beginning? c = some .number := by
  obtain ⟨first, others, rfl⟩ := List.exists_cons_of_ne_nil nonempty
  have digit := areDigits first (List.mem_cons_self ..)
  cases negative with
  | true => exact ⟨'-', _, rfl, by decide, rfl⟩
  | false => exact ⟨first, _, rfl, Matcher.isBlank_of_isDigit digit, if_pos (.inl digit)⟩

theorem exists_first_integer (literal : IntegerLiteral) : ∃ c rest, literal.word = c :: rest ∧
    Text.isBlank c = false ∧ Rule.beginning? c = some .number := by
  have numeral := Lexeme.isNumeral_toDigits literal.number
  have first := exists_first literal.negative numeral.areDigits numeral.nonempty []
  rwa [List.append_nil] at first

theorem isDigit_of_mem_digitChars {digits : List (Fin 10)} {c : Char} (member : c ∈ digitChars digits) :
    c.isDigit = true := by
  obtain ⟨digit, _, rfl⟩ := List.mem_map.mp member
  exact Nat.isDigit_digitChar.trans (decide_eq_true digit.isLt)

theorem digitChars_nonempty {digits : List (Fin 10)} (nonempty : digits ≠ []) :
    digitChars digits ≠ [] :=
  fun none => nonempty (List.map_eq_nil_iff.mp none)

theorem exists_first_decimal (literal : DecimalLiteral) : ∃ c rest, literal.word = c :: rest ∧
    Text.isBlank c = false ∧ Rule.beginning? c = some .number :=
  exists_first literal.negative (fun _ => isDigit_of_mem_digitChars) (digitChars_nonempty literal.nonempty.1) _

variable {limit : Nat} {read : Rule → Matcher}
  (agree : ∀ rule, Matcher.AgreeOn source (read rule) (rule.matcher limit read))
  {text rest : List Char} {c : Char} {value : Value}
include agree

/-- A rule that begins with a token misses where that token does not begin. -/
theorem misses_of_first {rule : Rule} (among : rule ∈ Rule.alternatives)
    (first : Matcher.skip text = c :: rest) (other : Rule.beginning? c ≠ some rule) :
    (read rule).Misses source text := by
  have differs (word : String) (begins : word.toList.head?.bind Rule.beginning? = some rule) :
      word.toList.head?.any (· != c) = true := by
    obtain ⟨d, head, begins⟩ := Option.bind_eq_some_iff.mp begins
    rw [head, Option.any_some, bne_iff_ne]
    rintro rfl
    exact other begins
  simp only [Rule.alternatives, List.mem_cons, List.not_mem_nil, or_false] at among
  rcases among with rfl | rfl | rfl | rfl | rfl
  · exact (agree .object).misses (Matcher.misses_map (Matcher.misses_enclosed first (differs "\x7b" rfl) _ _))
  · exact (agree .array).misses (Matcher.misses_enclosed first (differs "[" rfl) _ _)
  · refine (agree .string).misses (Matcher.misses_map (Matcher.misses_padded ?_))
    rw [first]
    refine Matcher.misses_pattern _ fun start here => string_end?_none ?_
    rw [here]
    exact fun same => bne_iff_ne.mp (differs "\"" rfl) (Option.some.inj same).symm
  · refine (agree .number).misses (Matcher.misses_padded ?_)
    rw [first]
    obtain ⟨decimal, integer⟩ := Lexeme.misses_numbers source rest fun numeric => other (if_pos numeric)
    exact Matcher.misses_choice decimal (List.forall_mem_singleton.mpr integer)
  · refine (agree .keyword).misses (Matcher.misses_map (Matcher.misses_padded ?_))
    rw [first]
    apply Matcher.misses_choice (Matcher.misses_literal_of_first (differs "true" rfl) rest)
    refine List.forall_mem_cons.mpr
      ⟨Matcher.misses_literal_of_first (differs "false" rfl) rest, List.forall_mem_singleton.mpr ?_⟩
    exact Matcher.misses_literal_of_first (differs "null" rfl) rest

/-- No value is read where none can begin. -/
theorem misses_value (first : Matcher.skip text = c :: rest) (other : Rule.beginning? c = none) :
    (read .value).Misses source text := by
  refine (agree .value).misses (Matcher.misses_choice (misses_of_first agree (by decide) first (other ▸ nofun)) ?_)
  refine (List.forall_mem_map (l := [.array, .string, .number, .keyword]) (f := read)).mpr fun rule among => ?_
  exact misses_of_first agree (List.mem_cons_of_mem _ among) first (other ▸ nofun)

/-- A property is read only where a string begins. -/
theorem misses_property (first : Matcher.skip text = c :: rest) (other : Rule.beginning? c ≠ some .string) :
    (read .property).Misses source text :=
  (agree .property).misses (Matcher.misses_map (Matcher.misses_sequence (.nil _)
    (misses_of_first agree (by decide) first other)))

/-- Of several rules, the first character tells the one whose texts are accepted. -/
theorem accepts_choice {rule head : Rule} {tail : List Rule} {word : List Char} {language others : Language Char}
    {follow narrow : List Char → Prop} (kinds : ∀ other ∈ head :: tail, other ∈ Rule.alternatives)
    (among : rule ∈ head :: tail) (accepts : (read rule).Accepts source language follow value)
    (weaker : ∀ text, narrow text → follow text) (shape : language = Document.token (c :: word) * others)
    (solid : Text.isBlank c = false) (begins : Rule.beginning? c = some rule) :
    (Matcher.choice (read head) (tail.map read)).Accepts source language narrow value := by
  intro written member text after here allowed
  have reads := accepts written member text after here (weaker _ allowed)
  -- The first character after the blanks is the one with which the shape begins.
  rw [shape] at member
  obtain ⟨first, isFirst, rest, _, rfl⟩ := member
  obtain ⟨blanks, split, _⟩ := Matcher.skip_of_mem_token solid isFirst (rest ++ after)
  rw [List.append_assoc, split] at here
  refine Matcher.reads_choice_of_mem among (fun other otherAmong differs => ?_) reads
  exact misses_of_first agree (kinds other otherAmong) here fun same =>
    differs (Option.some.inj (same.symm.trans begins))

/-! ## Literals -/

theorem accepts_keyword {word : String} (listed : (word, value) ∈ keywords) :
    (read .keyword).Accepts source (Document.token word.toList) (fun _ => True) value := by
  have accepts {d : Char} {others : List Char} (same : word.toList = d :: others) (solid : Text.isBlank d = false)
      (among : word ∈ ["true", "false", "null"])
      (alone : ∀ other ∈ ["true", "false", "null"], other ≠ word → other.toList.head?.any (· != d) = true)
      (found : ∀ span, Action.keyword keywords (.text word) span = pure value) :
      (read .keyword).Accepts source (Document.token word.toList) (fun _ => True) value := by
    rw [same]
    refine (agree .keyword).accepts (Matcher.accepts_map (Matcher.accepts_padded solid fun after _ => ?_) found)
    exact Matcher.reads_choice_of_mem among
      (fun other member differs => Matcher.misses_literal_of_first (alone other member differs) _)
      (same ▸ Matcher.reads_literal source word after)
  simp only [keywords, List.mem_cons, List.not_mem_nil, or_false, Prod.mk.injEq] at listed
  rcases listed with ⟨rfl, rfl⟩ | ⟨rfl, rfl⟩ | ⟨rfl, rfl⟩ <;>
    exact accepts rfl (by decide) (by decide) (by decide) fun _ => rfl

theorem accepts_string (literal : PlainText) :
    (read .string).Accepts source (Document.token literal.word) (fun _ => True) (.text literal.content) := by
  have stripped : Value.withoutEnds (.text (String.ofList literal.word)) = .text literal.content := by
    simp only [Value.withoutEnds, String.toList_ofList, PlainText.word, List.drop_one, List.tail_cons,
      List.dropLast_concat, String.ofList_toList]
  have solid : Text.isBlank '"' = false := by decide
  refine (agree .string).accepts (Matcher.accepts_map (Matcher.accepts_padded solid fun after _ => ?_)
    fun span => congrArg pure stripped)
  exact Matcher.reads_pattern _ fun start here => string_end? here literal.plain

theorem accepts_integer (literal : IntegerLiteral) :
    (read .number).Accepts source (Document.token literal.word) Delimited
      (.int (Lexeme.signed literal.negative literal.number)) := by
  have numeral := Lexeme.isNumeral_toDigits literal.number
  obtain ⟨c, rest, word, solid, _⟩ := exists_first_integer literal
  rw [word]
  refine (agree .number).accepts (Matcher.accepts_padded solid fun after delimited => ?_)
  rw [← word]
  have stopped := not_numeric_of_delimited delimited
  exact Matcher.reads_choice_of_misses
    (Lexeme.misses_float source literal.negative numeral.nonempty numeral.areDigits stopped) (List.forall_mem_nil _)
    (Lexeme.reads_integer source literal.negative literal.number literal.short (Lexeme.noDigit_of_stopped stopped))

theorem accepts_decimal (literal : DecimalLiteral) :
    (read .number).Accepts source (Document.token literal.word) Delimited (.float literal.nearest) := by
  have digits : Lexeme.ofDigits (digitChars literal.whole ++ digitChars literal.places) =
      literal.digits := by
    rw [digitChars, digitChars, ← List.map_append, Lexeme.ofDigits_map_digitChar]
    rfl
  have places : (digitChars literal.places).length = literal.places.length := List.length_map ..
  obtain ⟨c, rest, word, solid, _⟩ := exists_first_decimal literal
  rw [word]
  refine (agree .number).accepts (Matcher.accepts_padded solid fun after delimited => Matcher.reads_choice ?_)
  have reads : Lexeme.float.Reads source (literal.word ++ after) after _ := Lexeme.reads_float source literal.negative
    ⟨digitChars_nonempty literal.nonempty.1, digitChars_nonempty literal.nonempty.2⟩
    (fun _ => isDigit_of_mem_digitChars) (fun _ => isDigit_of_mem_digitChars)
    (Lexeme.noDigit_of_stopped (not_numeric_of_delimited delimited))
  rw [digits, places] at reads
  rw [← word]
  exact reads

end JsonGrammar

end RecursiveDescent
