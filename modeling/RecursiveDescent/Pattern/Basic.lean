import RecursiveDescent.Text.Alphanumeric
import RecursiveDescent.Text.Blank
import RecursiveDescent.Text.Case
import RecursiveDescent.Text.Digit

/-! # Patterns

The syntax trees of regular expressions with groups, lazy and greedy repetition, lookaround and
references to groups. Flags have no place here: a reader of patterns resolves them, so that each node
says by itself what it accepts.
-/

namespace RecursiveDescent

/-- A property by which a set of characters is named. -/
inductive CharProperty where
  | digit
  | word
  | blank
deriving DecidableEq, Repr

def CharProperty.holds : CharProperty → Char → Bool
  | .digit => Text.isDigit
  | .word => Text.isWord
  | .blank => Text.isBlank

/-- A part of a set of characters. -/
inductive CharItem where
  /-- The code points of a range, both ends included. -/
  | range (first last : Nat)
  /-- The characters with a property, or those without it. -/
  | named (property : CharProperty) (complement : Bool)
deriving DecidableEq, Repr

namespace CharItem

def char (c : Char) : CharItem := .range c.toNat c.toNat

def accepts : CharItem → Char → Bool
  | .range first last, c => first ≤ c.toNat && c.toNat ≤ last
  | .named property complement, c => property.holds c != complement

/-- Whether a character belongs to an item where case is disregarded. -/
def acceptsFolded : CharItem → Char → Bool
  | .range first last, c => (Text.caseVariants c.toNat).any fun code => first ≤ code && code ≤ last
  | item, c => item.accepts c

/-- An item holds no less where case is disregarded. -/
theorem acceptsFolded_of_accepts {item : CharItem} {c : Char} (accepts : item.accepts c = true) :
    item.acceptsFolded c = true := by
  cases item with
  | range first last => exact List.any_eq_true.mpr ⟨_, Text.mem_caseVariants _, accepts⟩
  | named property complement => exact accepts

example : (char 'é').accepts 'É' = false ∧ (char 'é').acceptsFolded 'É' = true := by decide

end CharItem

/-- A set of characters; one that folds case accepts a character if it holds it in any case. -/
structure CharSet where
  items : List CharItem
  complement : Bool
  foldCase : Bool
deriving DecidableEq, Repr

def CharSet.accepts (set : CharSet) (c : Char) : Bool :=
  let held := set.items.any fun item =>
    if set.foldCase then item.acceptsFolded c else item.accepts c
  held != set.complement

/-- A condition on the place in the text. -/
inductive Anchor where
  /-- The text begins here. -/
  | textStart
  /-- A line begins here. -/
  | lineStart
  /-- The text ends here. -/
  | textEnd
  /-- The text ends here, or after a line feed that follows. -/
  | finalLineEnd
  /-- A line ends here. -/
  | lineEnd
  /-- A word begins or ends here. -/
  | wordEdge
  /-- No word begins or ends here. -/
  | noWordEdge
deriving DecidableEq, Repr

/-- A regular expression. -/
inductive Pattern where
  /-- Nothing at all. -/
  | empty
  /-- One character of a set. -/
  | char (set : CharSet)
  /-- One pattern and then another. -/
  | seq (first second : Pattern)
  /-- One of two patterns, the first one by preference. -/
  | alt (first second : Pattern)
  /-- A pattern whose match is remembered under a number. -/
  | group (index : Nat) (body : Pattern)
  /-- The text that a group matched last. -/
  | backref (index : Nat) (foldCase : Bool)
  /-- A number of copies, as many or as few as possible by preference. -/
  | repeat (least : Nat) (most : Option Nat) (greedy : Bool) (body : Pattern)
  /-- A number of characters of one set, as many or as few as possible by preference. If it is known that
  a character of some set has to `follow`, other places to stop need not be tried. -/
  | span (least : Nat) (most : Option Nat) (greedy : Bool) (set : CharSet) (follow : Option CharSet)
  /-- A test whether a pattern matches, or does not, from some characters back; nothing is consumed. -/
  | look (back : Nat) (complement : Bool) (body : Pattern)
  /-- A condition on the place. -/
  | anchor (condition : Anchor)
  /-- A pattern that is tried only where so many characters are left. -/
  | atLeast (room : Nat) (body : Pattern)
deriving DecidableEq, Repr

end RecursiveDescent
