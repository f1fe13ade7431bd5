import Mathlib.Computability.Language
import RecursiveDescent.Proofs.Numerals
import RecursiveDescent.Proofs.Rounding
import RecursiveDescent.Value

/-! # Documents and how they are written

A document is a tree of arrays and objects over literals. What may be written for it is a language: each
token may have blanks before and after it, and numbers and texts are written as their literals are. Its
value depends on how decimals are rounded.
-/

namespace RecursiveDescent

/-- An integer of at most 4300 digits, written without leading zeros. -/
structure IntegerLiteral where
  negative : Bool
  number : Nat
  short : (Nat.toDigits 10 number).length ≤ 4300

/-- A decimal with digits on both sides of its point. -/
structure DecimalLiteral where
  negative : Bool
  whole : List (Fin 10)
  places : List (Fin 10)
  nonempty : whole ≠ [] ∧ places ≠ []

/-- A text that is written between quotes as it is. -/
structure PlainText where
  content : String
  plain : ∀ c ∈ content.toList, c ≠ '"' ∧ c ≠ '\\'

/-- A JSON document of which the numbers and texts are given by their literals. -/
inductive Document where
  | null
  | flag (holds : Bool)
  | integer (literal : IntegerLiteral)
  | decimal (literal : DecimalLiteral)
  | text (literal : PlainText)
  | array (items : List Document)
  | object (entries : List (PlainText × Document))

def IntegerLiteral.word (literal : IntegerLiteral) : List Char :=
  Lexeme.minus literal.negative ++ Nat.toDigits 10 literal.number

def digitChars (digits : List (Fin 10)) : List Char := digits.map fun digit => digit.val.digitChar

def DecimalLiteral.word (literal : DecimalLiteral) : List Char :=
  Lexeme.minus literal.negative ++ (digitChars literal.whole ++ '.' :: digitChars literal.places)

/-- The number that all the digits of a decimal write. -/
def DecimalLiteral.digits (literal : DecimalLiteral) : Nat :=
  Nat.ofDigits 10 ((literal.whole ++ literal.places).map Fin.val).reverse

/-- The number that a decimal writes after its sign. -/
def DecimalLiteral.magnitude (literal : DecimalLiteral) : ℚ := literal.digits / 10 ^ literal.places.length

def PlainText.word (literal : PlainText) : List Char := '"' :: (literal.content.toList ++ ['"'])

/-- The double of every decimal is the one nearest to it, a tie going to the even one. -/
def RoundsCorrectly (round : DecimalLiteral → Binary64) : Prop :=
  ∀ literal, (round literal).negative = literal.negative ∧
    Binary64.Rounds literal.magnitude (round literal).magnitude.toNat

/-- The double as which a decimal is read. -/
def DecimalLiteral.nearest (literal : DecimalLiteral) : Binary64 :=
  .ofDecimal literal.negative literal.digits literal.places.length

theorem roundsCorrectly_nearest : RoundsCorrectly DecimalLiteral.nearest :=
  fun literal => Binary64.ofDecimal_rounds literal.negative literal.digits literal.places.length

/-- There is only one way to round correctly. -/
theorem RoundsCorrectly.eq_nearest {round : DecimalLiteral → Binary64} (rounds : RoundsCorrectly round) :
    round = DecimalLiteral.nearest := by
  funext literal
  obtain ⟨sign, magnitude⟩ := rounds literal
  obtain ⟨signNearest, magnitudeNearest⟩ := roundsCorrectly_nearest literal
  exact Binary64.eq_of_rounds (sign.trans signNearest.symm) magnitude magnitudeNearest

/-! ## Renderings -/

namespace Document

/-- Any run of blanks. -/
def blanks : Language Char := {text | ∀ c ∈ text, Text.isBlank c = true}

/-- A word with blanks before and after it. -/
def token (word : List Char) : Language Char := blanks * {word} * blanks

theorem mem_token (word : List Char) {before after : List Char} (blank : ∀ c ∈ before ++ after, Text.isBlank c = true) :
    before ++ word ++ after ∈ token word :=
  Language.append_mem_mul
    (Language.append_mem_mul (fun c member => blank c (List.mem_append_left _ member)) (Set.mem_singleton word))
    fun c member => blank c (List.mem_append_right _ member)

/-- Texts of the languages in order, with commas between them. -/
def separated : List (Language Char) → Language Char
  | [] => 1
  | first :: rest => first * (rest.map (token [','] * ·)).prod

mutual

/-- The texts that may be written for a document. -/
def renderings : Document → Language Char
  | null => token "null".toList
  | flag holds => token (if holds then "true".toList else "false".toList)
  | integer literal => token literal.word
  | decimal literal => token literal.word
  | text literal => token literal.word
  | array items => token ['['] * separated (itemRenderings items) * token [']']
  | object entries => token ['{'] * separated (entryRenderings entries) * token ['}']

def itemRenderings : List Document → List (Language Char)
  | [] => []
  | item :: rest => item.renderings :: itemRenderings rest

def entryRenderings : List (PlainText × Document) → List (Language Char)
  | [] => []
  | (key, document) :: rest => token key.word * token [':'] * document.renderings :: entryRenderings rest

end

/-! ## Values -/

mutual

/-- The value of a document, with a double for each decimal. -/
def value (round : DecimalLiteral → Binary64) : Document → Value
  | null => .null
  | flag holds => .bool holds
  | integer literal => .int (Lexeme.signed literal.negative literal.number)
  | decimal literal => .float (round literal)
  | text literal => .text literal.content
  | array items => .list (itemValues round items)
  | object entries => .dict (entryValues round entries)

def itemValues (round : DecimalLiteral → Binary64) : List Document → List Value
  | [] => []
  | item :: rest => item.value round :: itemValues round rest

def entryValues (round : DecimalLiteral → Binary64) : List (PlainText × Document) → List (String × Value)
  | [] => []
  | (key, document) :: rest => (key.content, document.value round) :: entryValues round rest

end

mutual

/-- No object within a document has one key twice. -/
def Distinct : Document → Prop
  | array items => ItemsDistinct items
  | object entries => (entries.map (·.1.content)).Nodup ∧ EntriesDistinct entries
  | _ => True

def ItemsDistinct : List Document → Prop
  | [] => True
  | item :: rest => item.Distinct ∧ ItemsDistinct rest

def EntriesDistinct : List (PlainText × Document) → Prop
  | [] => True
  | (_, document) :: rest => document.Distinct ∧ EntriesDistinct rest

end

def IsContainer : Document → Prop
  | array _ | object _ => True
  | _ => False

/-! ## Members -/

theorem itemRenderings_eq_map (items : List Document) : itemRenderings items = items.map renderings := by
  induction items with
  | nil => rfl
  | cons item rest ih => rw [itemRenderings, ih, List.map_cons]

theorem entryRenderings_eq_map (entries : List (PlainText × Document)) :
    entryRenderings entries = entries.map fun entry => token entry.1.word * token [':'] * entry.2.renderings := by
  induction entries with
  | nil => rfl
  | cons entry rest ih => rw [entryRenderings, ih, List.map_cons]

theorem itemValues_eq_map (round : DecimalLiteral → Binary64) (items : List Document) :
    itemValues round items = items.map (value round) := by
  induction items with
  | nil => rfl
  | cons item rest ih => rw [itemValues, ih, List.map_cons]

theorem entryValues_eq_map (round : DecimalLiteral → Binary64) (entries : List (PlainText × Document)) :
    entryValues round entries = entries.map fun entry => (entry.1.content, entry.2.value round) := by
  induction entries with
  | nil => rfl
  | cons entry rest ih => rw [entryValues, ih, List.map_cons]

theorem itemsDistinct_iff {items : List Document} : ItemsDistinct items ↔ ∀ item ∈ items, item.Distinct := by
  induction items with
  | nil => simp [ItemsDistinct]
  | cons item rest ih => simp [ItemsDistinct, ih]

theorem entriesDistinct_iff {entries : List (PlainText × Document)} :
    EntriesDistinct entries ↔ ∀ entry ∈ entries, entry.2.Distinct := by
  induction entries with
  | nil => simp [EntriesDistinct]
  | cons entry rest ih => simp [EntriesDistinct, ih]

section Induction

variable {motive : Document → Prop}
  (null : motive null)
  (flag : ∀ holds, motive (flag holds))
  (integer : ∀ literal, motive (integer literal))
  (decimal : ∀ literal, motive (decimal literal))
  (text : ∀ literal, motive (text literal))
  (array : ∀ items, (∀ item ∈ items, motive item) → motive (array items))
  (object : ∀ entries, (∀ entry ∈ entries, motive entry.2) → motive (object entries))

include null flag integer decimal text array object in
/-- What arrays and objects inherit from what they hold is true of every document. -/
@[elab_as_elim, induction_eliminator]
theorem induct : ∀ document, motive document
  | .null => null
  | .flag holds => flag holds
  | .integer literal => integer literal
  | .decimal literal => decimal literal
  | .text literal => text literal
  | .array items => array items fun item _ => induct item
  | .object entries => object entries fun (_, document) _ => induct document
termination_by document => sizeOf document
decreasing_by
  · decreasing_tactic
  · next member =>
    have smaller := List.sizeOf_lt_of_mem member
    simp only [Prod.mk.sizeOf_spec] at smaller
    decreasing_with omega

end Induction

end Document

end RecursiveDescent
