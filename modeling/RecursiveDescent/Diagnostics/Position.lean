import RecursiveDescent.Source

/-! # Lines and columns

Parsers work on offsets; lines and columns are computed when something is shown to a person. Lines end
with a line feed. There are two ways to the same answer: `Position.of` reads the text before the
offset, and a `LineIndex` is built once and then searched.
-/

namespace RecursiveDescent

/-- A place in a text; lines and columns are counted from one. -/
structure Position where
  line : Nat
  column : Nat
deriving DecidableEq, Repr

/-- The position of an offset, which is first brought into range. -/
def Position.of (source : Source) (pos : Int) : Position :=
  let before := source.chars.toList.take (source.clamp pos)
  ⟨before.count '\n' + 1, (before.reverse.takeWhile (· != '\n')).length + 1⟩

/-- The offsets at which the lines of a text begin, with the length of the text. -/
structure LineIndex where
  starts : Array Nat
  size : Nat
deriving DecidableEq, Repr

namespace LineIndex

/-- The offsets that follow the line feeds of a text, which begins at `offset`. -/
def startsFrom (offset : Nat) : List Char → List Nat
  | [] => []
  | c :: rest =>
      let later := startsFrom (offset + 1) rest
      if c = '\n' then (offset + 1) :: later else later

def ofSource (source : Source) : LineIndex :=
  ⟨(0 :: startsFrom 0 source.chars.toList).toArray, source.size⟩

def lineCount (index : LineIndex) : Nat := index.starts.size

/-- Halve the range from `low` to `high` until it shows how many of the ascending numbers are at most
`pos`. -/
def search (starts : Array Nat) (pos low high : Nat) : Nat :=
  if low < high then
    let middle := (low + high) / 2
    if pos < starts.getD middle 0 then search starts pos low middle else search starts pos (middle + 1) high
  else low
termination_by high - low

def position (index : LineIndex) (pos : Int) : Position :=
  let offset := (min pos index.size).toNat
  let line := search index.starts offset 0 index.starts.size
  ⟨line, offset - index.starts.getD (line - 1) 0 + 1⟩

end LineIndex

end RecursiveDescent
