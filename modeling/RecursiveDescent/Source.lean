/-! # Texts under parse

A source is a sequence of Unicode code points. Offsets are integers: a parser may be asked to start
before the text or beyond it, so the two ways in which an offset is brought into range live here.
`Source.clamp` moves an offset to the nearest end; `Source.slice` first counts a negative offset from
the end of the text.
-/

namespace RecursiveDescent

/-- A text, held so that the character at an offset is found at once. -/
structure Source where
  chars : Array Char
deriving DecidableEq, Repr

namespace Source

def ofString (text : String) : Source := ⟨text.toList.toArray⟩

/-- The number of code points. -/
@[inline] def size (source : Source) : Nat := source.chars.size

@[inline] def char? (source : Source) (index : Nat) : Option Char := source.chars[index]?

/-- The text between two offsets; nothing if the second does not lie after the first. -/
def extract (source : Source) (start stop : Nat) : String :=
  String.ofList (source.chars.extract start stop).toList

/-- The nearest offset that lies within the text. -/
def clamp (source : Source) (pos : Int) : Nat := (min pos source.size).toNat

theorem clamp_le (source : Source) (pos : Int) : source.clamp pos ≤ source.size := by
  simp only [clamp]
  omega

theorem clamp_of_le {source : Source} {offset : Nat} (within : offset ≤ source.size) :
    source.clamp offset = offset := by
  rw [clamp]
  omega

theorem clamp_of_ge {source : Source} {pos : Int} (beyond : source.size ≤ pos) : source.clamp pos = source.size := by
  rw [clamp, Int.min_eq_right beyond, Int.toNat_natCast]

/-- The offset that a slice bound stands for: a negative one counts from the end, and all are clamped. -/
def bound (source : Source) (pos : Int) : Nat :=
  if pos < 0 then (pos + source.size).toNat else source.clamp pos

theorem bound_of_le {source : Source} {offset : Nat} (within : offset ≤ source.size) :
    source.bound offset = offset := by
  rw [bound, if_neg (by omega), clamp_of_le within]

/-- The text between two slice bounds. -/
def slice (source : Source) (start stop : Int) : String :=
  source.extract (source.bound start) (source.bound stop)

end Source

end RecursiveDescent
