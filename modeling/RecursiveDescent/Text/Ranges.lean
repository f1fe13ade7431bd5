/-! # Sets of code points

A set of characters is given by its ranges in ascending order. Small sets are searched as they are; for
large ones the ranges are arranged in a balanced tree first.
-/

namespace RecursiveDescent.Text

/-- Disjoint ranges of code points in ascending order, both ends included. -/
abbrev Ranges := List (Nat × Nat)

/-- Whether a code point lies in one of the ranges; the search ends at the first that begins after it. -/
def Ranges.includes : Ranges → Nat → Bool
  | [], _ => false
  | (first, last) :: rest, code =>
      if code < first then false else if code ≤ last then true else includes rest code

inductive RangeTree where
  | empty
  | node (before : RangeTree) (first last : Nat) (after : RangeTree)
deriving Inhabited

namespace RangeTree

def includes : RangeTree → Nat → Bool
  | .empty, _ => false
  | .node before first last after, code =>
      if code < first then before.includes code else if code ≤ last then true else after.includes code

/-- A tree of at most a given depth with the first of some ranges, and the ranges that are left. -/
def build : Nat → Ranges → RangeTree × Ranges
  | 0, ranges => (.empty, ranges)
  | depth + 1, ranges =>
      match build depth ranges with
      | (before, []) => (before, [])
      | (before, (first, last) :: ranges) =>
          let (after, ranges) := build depth ranges
          (.node before first last after, ranges)

def ofRanges (ranges : Ranges) : RangeTree := (build (ranges.length.log2 + 1) ranges).1

end RangeTree

end RecursiveDescent.Text
