import RecursiveDescent.Text.Hex
import RecursiveDescent.Text.Unprintable

/-! # Quoted text

How names and values are shown to a person: between single quotes, or between double quotes where that
saves an escape, with every character that has no printed form written by its code.
-/

namespace RecursiveDescent.Text

/-- The quote for a text: the double one just for a text with single quotes and no double ones. -/
def delimiter (content : List Char) : Char :=
  if content.contains '\'' && !content.contains '"' then '"' else '\''

/-- A code in the shortest of the three escapes that can hold it. -/
def escapeCode (code : Nat) : List Char :=
  if code < 0x100 then '\\' :: 'x' :: hexDigits 2 code
  else if code < 0x10000 then '\\' :: 'u' :: hexDigits 4 code
  else '\\' :: 'U' :: hexDigits 8 code

def escape (quote c : Char) : List Char :=
  if c == '\\' || c == quote then ['\\', c]
  else if c == '\n' then ['\\', 'n']
  else if c == '\r' then ['\\', 'r']
  else if c == '\t' then ['\\', 't']
  else if isPrintable c then [c]
  else escapeCode c.toNat

def quoted (content : String) : String :=
  let chars := content.toList
  let quote := delimiter chars
  String.ofList (quote :: chars.flatMap (escape quote) ++ [quote])

end RecursiveDescent.Text
