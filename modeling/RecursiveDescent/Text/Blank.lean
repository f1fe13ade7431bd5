import RecursiveDescent.Text.Ranges

/-! # Blank characters

The characters that separate words: the ASCII blanks with the four information separators, the next
line control, and the Unicode spaces and separators.
-/

namespace RecursiveDescent.Text

def blankRanges : Ranges :=
  [ (0x0009, 0x000D), (0x001C, 0x0020), (0x0085, 0x0085), (0x00A0, 0x00A0), (0x1680, 0x1680),
    (0x2000, 0x200A), (0x2028, 0x2029), (0x202F, 0x202F), (0x205F, 0x205F), (0x3000, 0x3000)]

def isBlank (c : Char) : Bool := blankRanges.includes c.toNat

end RecursiveDescent.Text
