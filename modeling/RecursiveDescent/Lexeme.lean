import RecursiveDescent.Matcher
import RecursiveDescent.Pattern.Assembly

/-! # Built-in lexemes

White space, integer literals and decimal literals. Each has a pattern, kept both as text and as the
tree that the text describes, and a label for its failures. Numbers are read off the matched text.
-/

namespace RecursiveDescent.Lexeme

/-- A sign, if there is one, with the characters that follow it. -/
def splitSign : List Char → Bool × List Char
  | '-' :: digits => (true, digits)
  | digits => (false, digits)

/-- The number that ASCII digits write. -/
def ofDigits (digits : List Char) : Nat := digits.foldl (fun n c => n * 10 + (c.toNat - '0'.toNat)) 0

/-- The characters of a set, without folding of case. -/
def oneOf (items : List CharItem) : Pattern := .char ⟨items, false, false⟩

def point : CharSet := ⟨[.char '.'], false, false⟩

/-- At least so many ASCII digits, and what has to follow them, if that is known. -/
def digits (least : Nat) (follow : Option CharSet) : Pattern :=
  .span least none true ⟨[.range 0x30 0x39], false, false⟩ follow

def sign : Pattern := .span 0 (some 1) true ⟨[.char '-'], false, false⟩ none

def whitespacePattern : String := "\\s+"

/-- The text of the pattern for integers: a lone zero, or digits that do not begin with one. -/
def integerPattern : String := "-?(0|[1-9][0-9]*)"

/-- The text of the pattern for decimals: digits are required on both sides of the point. -/
def floatPattern : String := "-?[0-9]+\\.[0-9]+"

def whitespaceTree : Pattern := .span 1 none true ⟨[.named .blank false], false, false⟩ none

/-- A sign, if any, and a numeral without leading zeros. -/
def integerTree : Pattern :=
  .seq sign
    (.group 1 (.alt (oneOf [.char '0']) (.seq (oneOf [.range 0x31 0x39]) (digits 0 none))))

/-- A sign, if any, and two numerals with a point between them. -/
def floatTree : Pattern := .seq sign (.seq (digits 1 (some point)) (.seq (.char point) (digits 1 none)))

theorem compile?_whitespacePattern :
    Pattern.compile? {} whitespacePattern = some (.atLeast 1 whitespaceTree) := by
  decide

theorem compile?_integerPattern :
    Pattern.compile? {} integerPattern = some (.atLeast 1 integerTree) := by
  decide

theorem compile?_floatPattern :
    Pattern.compile? {} floatPattern = some (.atLeast 3 floatTree) := by
  decide

def whitespaceLabel : String := "whitespace"

def integerLabel : String := "integer number"

def floatLabel : String := "float number"

/-- The integer that a literal writes, unless it has too many digits. -/
def readInteger (literal : String) : Run Value :=
  let (negative, digits) := splitSign literal.toList
  if Fault.digitLimit < digits.length then .stop (.literalTooLong digits.length)
  else return .int (if negative then -(ofDigits digits : Int) else ofDigits digits)

/-- The double nearest to the number that a literal writes. -/
def readFloat (literal : String) : Value :=
  let (negative, numeral) := splitSign literal.toList
  let whole := numeral.takeWhile (· != '.')
  let places := (numeral.dropWhile (· != '.')).drop 1
  .float (.ofDecimal negative (ofDigits (whole ++ places)) places.length)

/-- The text that a leaf matched, handed to a reader. -/
def reading (read : String → Run Value) : Action := fun value _ =>
  match value with
  | .text literal => read literal
  | other => return other

def whitespace : Matcher := Matcher.pattern whitespaceTree whitespaceLabel

def integer : Matcher := Matcher.map (Matcher.pattern integerTree integerLabel) (reading readInteger)

def float : Matcher :=
  Matcher.map (Matcher.pattern floatTree floatLabel) (reading fun literal => return readFloat literal)

end RecursiveDescent.Lexeme
