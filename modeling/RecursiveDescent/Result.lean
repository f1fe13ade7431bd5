import RecursiveDescent.Value

/-! # Outcomes of a match

A match succeeds with a value or fails with a label of what was expected. Both say which part of the
source they covered and where they stopped; nothing here ties the three together, since a result may
also be made by hand.
-/

namespace RecursiveDescent

/-- A half-open range of offsets. -/
structure Span where
  start : Int
  stop : Int
deriving DecidableEq, Repr, Inhabited

/-- A match, with the offset at which the next parser resumes. -/
structure Success where
  pos : Int
  span : Span
  value : Value
deriving Inhabited, Repr

/-- A failed match, with the offset that the attempt reached. -/
structure Failure where
  pos : Int
  span : Span
  expected : String
deriving DecidableEq, Repr, Inhabited

/-- What a parser answers. -/
inductive Result where
  | success (found : Success)
  | failure (missed : Failure)
deriving Inhabited, Repr

namespace Result

/-- The offset at which the attempt stopped. -/
def pos : Result → Int
  | .success found => found.pos
  | .failure missed => missed.pos

/-- The part of the source that the attempt covered. -/
def span : Result → Span
  | .success found => found.span
  | .failure missed => missed.span

def isSuccess : Result → Bool
  | .success _ => true
  | .failure _ => false

/-- Equality of results, with values compared by `Value.same`. -/
def same : Result → Result → Bool
  | .success a, .success b => a.pos == b.pos && a.span == b.span && a.value.same b.value
  | .failure a, .failure b => a == b
  | _, _ => false

end Result

end RecursiveDescent
