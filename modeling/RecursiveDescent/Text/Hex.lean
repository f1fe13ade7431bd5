/-! # Hexadecimal numerals

Numerals of a fixed width in lower-case digits, as escapes and bit patterns are written.
-/

namespace RecursiveDescent.Text

/-- The last `width` hexadecimal digits of a number, most significant first. -/
def hexDigits : Nat → Nat → List Char
  | 0, _ => []
  | width + 1, n => hexDigits width (n / 16) ++ [Nat.digitChar (n % 16)]

def hex (width n : Nat) : String := String.ofList (hexDigits width n)

end RecursiveDescent.Text
