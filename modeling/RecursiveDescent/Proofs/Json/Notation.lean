import Mathlib.Algebra.Field.Rat
import RecursiveDescent.Proofs.IntegerRoundTrip

/-! # JSON notation

What a JSON text denotes, rule by rule: an object, an array, a number, a text or one of three names. A rule relates a
text to what its beginning denotes and to the text that is left. A rule may leave more than one text, as where blanks
end a value or digits a number; only what stands in an object or array tells which one is meant.
-/

namespace RecursiveDescent.Json

/-- What a text denotes. Numbers are exact, and members stand in the order in which they are written. -/
inductive Data where
  | null
  | flag (holds : Bool)
  | number (value : ℚ)
  | text (content : String)
  | array (items : List Data)
  | object (members : List (String × Data))

def blanks : List Char := [' ', '\t', '\n', '\r']

/-- Blanks at the beginning of a text are passed over, or some of them. -/
inductive Skips : List Char → List Char → Prop
  | stay (text : List Char) : Skips text text
  | pass {c : Char} {text rest : List Char} (blank : c ∈ blanks) (more : Skips text rest) : Skips (c :: text) rest

/-! ## Numbers -/

def IsDigits (text : List Char) : Prop := text ≠ [] ∧ ∀ c ∈ text, c.isDigit = true

/-- The digits behind a point, if there is one. -/
inductive Fraction : List Char → List Char → Prop
  | absent : Fraction [] []
  | present {places : List Char} (digits : IsDigits places) : Fraction ('.' :: places) places

/-- The power of ten by which a number is multiplied, if one is written. -/
inductive Exponent : List Char → Int → Prop
  | absent : Exponent [] 0
  | present {mark : Char} {sign power : List Char} (marked : mark ∈ ['e', 'E']) (signed : sign ∈ [[], ['+'], ['-']])
      (digits : IsDigits power) :
      Exponent (mark :: (sign ++ power)) (Lexeme.signed (sign == ['-']) (Lexeme.ofDigits power))

/-- A sign, digits without leading zeros, a fraction and an exponent. -/
inductive Number : List Char → ℚ → Prop
  | mk {whole fraction places exponent : List Char} {power : Int} (negative : Bool) (numeral : Lexeme.IsNumeral whole)
      (point : Fraction fraction places) (scale : Exponent exponent power) :
      Number (Lexeme.minus negative ++ (whole ++ (fraction ++ exponent)))
        (Lexeme.signed negative (Lexeme.ofDigits (whole ++ places)) * 10 ^ (power - places.length))

/-! ## Texts -/

/-- The letters that stand for characters behind a backslash. -/
def shortEscapes : List (Char × Char) :=
  [('"', '"'), ('\\', '\\'), ('/', '/'), ('b', '\x08'), ('f', '\x0c'), ('n', '\n'), ('r', '\r'), ('t', '\t')]

def HexCode (digits : List Char) (code : Nat) : Prop :=
  digits.length = 4 ∧ (digits.mapM (PatternToken.digit? 16)).map (PatternToken.ofDigits 16) = some code

/-- A backslash, the letter for codes and four digits. -/
def CodeUnit (text : List Char) (code : Nat) (rest : List Char) : Prop :=
  ∃ digits, text = '\\' :: 'u' :: (digits ++ rest) ∧ HexCode digits code

/-- A character stands for itself, or is written by an escape. A character beyond the codes of four digits takes two
escapes, whose codes no character has. -/
inductive Symbol : List Char → Char → List Char → Prop
  | plain {c : Char} {rest : List Char} (printable : 0x20 ≤ c.toNat) (bare : c ≠ '"' ∧ c ≠ '\\') :
      Symbol (c :: rest) c rest
  | short {letter c : Char} {rest : List Char} (listed : (letter, c) ∈ shortEscapes) :
      Symbol ('\\' :: letter :: rest) c rest
  | code {text rest : List Char} {c : Char} (unit : CodeUnit text c.toNat rest) : Symbol text c rest
  | pair {text middle rest : List Char} {high low : Nat} {c : Char} (first : CodeUnit text high middle)
      (second : CodeUnit middle low rest) (leads : 0xD800 ≤ high ∧ high < 0xDC00) (trails : 0xDC00 ≤ low ∧ low < 0xE000)
      (value : c.toNat = 0x10000 + (high - 0xD800) * 0x400 + (low - 0xDC00)) : Symbol text c rest

/-- The characters up to the quote that ends a text. -/
inductive Body : List Char → List Char → List Char → Prop
  | close {rest : List Char} : Body ('"' :: rest) [] rest
  | symbol {text middle content rest : List Char} {c : Char} (first : Symbol text c middle)
      (others : Body middle content rest) : Body text (c :: content) rest

/-! ## Values -/

/-- One or more parts with commas between them. -/
inductive Separated {α : Type} (Part : List Char → α → List Char → Prop) : List Char → List α → List Char → Prop
  | last {text rest : List Char} {part : α} (only : Part text part rest) : Separated Part text [part] rest
  | more {text middle rest : List Char} {part : α} {others : List α} (first : Part text part (',' :: middle))
      (later : Separated Part middle others rest) : Separated Part text (part :: others) rest

mutual

/-- A value without blanks around it. -/
inductive Value : List Char → Data → List Char → Prop
  | null {rest : List Char} : Value ('n' :: 'u' :: 'l' :: 'l' :: rest) .null rest
  | true {rest : List Char} : Value ('t' :: 'r' :: 'u' :: 'e' :: rest) (.flag true) rest
  | false {rest : List Char} : Value ('f' :: 'a' :: 'l' :: 's' :: 'e' :: rest) (.flag false) rest
  | number {text word rest : List Char} {value : ℚ} (split : text = word ++ rest) (written : Number word value) :
      Value text (.number value) rest
  | text {text content rest : List Char} (body : Body text content rest) :
      Value ('"' :: text) (.text (.ofList content)) rest
  | emptyArray {text rest : List Char} (skips : Skips text (']' :: rest)) : Value ('[' :: text) (.array []) rest
  | array {text rest : List Char} {items : List Data} (parts : Separated Element text items (']' :: rest)) :
      Value ('[' :: text) (.array items) rest
  | emptyObject {text rest : List Char} (skips : Skips text ('}' :: rest)) : Value ('{' :: text) (.object []) rest
  | object {text rest : List Char} {members : List (String × Data)}
      (parts : Separated Member text members ('}' :: rest)) : Value ('{' :: text) (.object members) rest

/-- A value with blanks around it. -/
inductive Element : List Char → Data → List Char → Prop
  | mk {text start stop rest : List Char} {data : Data} (before : Skips text start) (value : Value start data stop)
      (behind : Skips stop rest) : Element text data rest

/-- A text that names a value, with a colon between them. -/
inductive Member : List Char → String × Data → List Char → Prop
  | mk {text start name stop middle rest : List Char} {data : Data} (before : Skips text ('"' :: start))
      (body : Body start name stop) (behind : Skips stop (':' :: middle)) (element : Element middle data rest) :
      Member text (.ofList name, data) rest

end

def Denotes (text : String) (data : Data) : Prop := Element text.toList data []

/-! ## What is read where -/

section

variable {text rest left lead word : List Char} {c d : Char} {data : Data} {value : ℚ}

/-- Where a text does not begin with a blank, nothing is passed over. -/
theorem Skips.eq_of_solid (skips : Skips (c :: text) rest) (solid : c ∉ blanks) : rest = c :: text := by
  cases skips with
  | stay => rfl
  | pass blank => exact absurd blank solid

/-- Up to what is no blank, blanks can be passed over in only one way. -/
theorem Skips.unique (skips : Skips text (c :: rest)) (another : Skips text (d :: left)) (solid : c ∉ blanks)
    (bare : d ∉ blanks) : d = c ∧ left = rest := by
  -- Both pass over the same blanks, so the induction is on one of them and the other one follows.
  generalize stop : c :: rest = remaining at skips
  induction skips with
  | stay text => exact List.cons.inj ((stop ▸ another).eq_of_solid solid)
  | pass blank _ ih =>
    cases another with
    | stay => exact absurd blank bare
    | pass _ more => exact ih more stop

theorem skips_blanks (blank : ∀ c ∈ lead, c ∈ blanks) (text : List Char) : Skips (lead ++ text) text := by
  induction lead with
  | nil => exact .stay text
  | cons c lead ih =>
    obtain ⟨first, others⟩ := List.forall_mem_cons.mp blank
    exact .pass first (ih others)

/-- A number begins with a digit or a minus. -/
theorem Number.first (number : Number word value) : ∃ c others, word = c :: others ∧ (c.isDigit = true ∨ c = '-') := by
  cases number with
  | @mk whole _ _ _ _ negative numeral _ _ =>
    obtain ⟨first, others, rfl⟩ := List.exists_cons_of_ne_nil numeral.nonempty
    cases negative with
    | true => exact ⟨'-', _, rfl, .inr rfl⟩
    | false => exact ⟨first, _, rfl, .inl (numeral.areDigits first (List.mem_cons_self ..))⟩

/-- The characters of which numbers consist. -/
def isNumeric (c : Char) : Bool := c.isDigit || ['-', '+', '.', 'e', 'E'].contains c

theorem Number.chars (number : Number word value) : ∀ c ∈ word, isNumeric c = true := by
  have digits {text : List Char} (areDigits : ∀ c ∈ text, c.isDigit = true) : ∀ c ∈ text, isNumeric c = true :=
    fun c member => Bool.or_eq_true_iff.mpr (.inl (areDigits c member))
  cases number with
  | @mk whole _ _ _ _ negative numeral point scale =>
    simp only [List.forall_mem_append]
    refine ⟨List.all_eq_true.mp (by cases negative <;> rfl), digits numeral.areDigits, ?_, ?_⟩
    · cases point with
      | absent => exact List.forall_mem_nil _
      | present areDigits => exact List.forall_mem_cons.mpr ⟨by decide, digits areDigits.2⟩
    · cases scale with
      | absent => exact List.forall_mem_nil _
      | @present mark sign _ marked signed areDigits =>
        have marks : ['e', 'E'].all isNumeric = true := rfl
        have signs : ∀ sign ∈ [[], ['+'], ['-']], sign.all isNumeric = true := by decide
        have signNumeric := List.all_eq_true.mp (signs sign signed)
        exact List.forall_mem_cons.mpr ⟨List.all_eq_true.mp marks mark marked,
          List.forall_mem_append.mpr ⟨signNumeric, digits areDigits.2⟩⟩

/-- No value begins with a blank. -/
theorem Value.solid (value : Value text data rest) : ∃ c others, text = c :: others ∧ c ∉ blanks := by
  cases value with
  | number split written =>
    obtain ⟨c, others, rfl, first⟩ := written.first
    refine ⟨c, others ++ rest, split, ?_⟩
    rintro member
    simp only [blanks, List.mem_cons, List.not_mem_nil, or_false] at member
    rcases member with rfl | rfl | rfl | rfl <;> revert first <;> decide
  | _ => exact ⟨_, _, rfl, by decide⟩

end

end RecursiveDescent.Json
