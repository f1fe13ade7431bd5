import RecursiveDescent.Number.Numeral

/-! # JSON text

The members of an object in one line, with texts and integers as values. Only quotes, backslashes and
control characters are escaped; all other characters stand for themselves.
-/

namespace RecursiveDescent.Json

/-- The value of a member. -/
inductive Scalar where
  | text (content : String)
  | int (number : Int)
deriving DecidableEq, Repr

def escape (c : Char) : List Char :=
  if c = '"' || c = '\\' then ['\\', c]
  else if c = '\n' then ['\\', 'n']
  else if c = '\r' then ['\\', 'r']
  else if c = '\t' then ['\\', 't']
  else if c = '\x0c' then ['\\', 'f']
  else if c = '\x08' then ['\\', 'b']
  else if c.toNat < 0x20 then '\\' :: 'u' :: Text.hexDigits 4 c.toNat
  else [c]

def quoted (content : String) : String :=
  String.ofList ('"' :: content.toList.flatMap escape ++ ['"'])

def Scalar.render : Scalar → Except Fault String
  | .text content => .ok (quoted content)
  | .int number => printed number

def renderMember (member : String × Scalar) : Except Fault String := do
  return quoted member.1 ++ ": " ++ (← member.2.render)

/-- An object with its members in order, unless an integer among them is too long. -/
def object (members : List (String × Scalar)) : Except Fault String := do
  let parts ← members.mapM renderMember
  return "\x7b" ++ ", ".intercalate parts ++ "\x7d"

end RecursiveDescent.Json
