import RecursiveDescent.Pattern.Basic
import RecursiveDescent.Source

/-! # Matching patterns

A pattern is matched by backtracking: `Pattern.attempt` takes what has to follow as a continuation and
answers with the first way to satisfy both, in the order in which the pattern prefers them. Captured
groups travel with the position, so a way that is given up leaves nothing behind.

An optional copy of a repeated pattern is tried only if the copy before it moved. No copy moves
backwards, so a repetition never needs more copies than there are characters left, and one more; that
bound makes the recursion structural.

Characters of one set need no backtracking to be counted: a greedy span runs as far as it can and then
gives up one character at a time, and passes over the places where what has to follow does not stand.
-/

namespace RecursiveDescent

/-- The text that a group matched. -/
structure Capture where
  index : Nat
  start : Nat
  stop : Nat
deriving DecidableEq, Repr

/-- How far a match has come: its position, and the captures with the latest first. -/
structure Progress where
  pos : Nat
  captures : List Capture
deriving DecidableEq, Repr

/-- What has to follow a part of a pattern: the end of the whole match, if there is one. -/
abbrev Continuation := Progress → Option Progress

namespace Progress

def move (state : Progress) (pos : Nat) : Progress := { state with pos }

/-- Remember the text up to the present position under the number of a group. -/
def capture (state : Progress) (index start : Nat) : Progress :=
  { state with captures := ⟨index, start, state.pos⟩ :: state.captures }

def capture? (state : Progress) (index : Nat) : Option Capture :=
  state.captures.find? (·.index == index)

end Progress

namespace Anchor

/-- Whether the character at an offset may stand in a word; beyond the ends none does. -/
def wordAt (source : Source) (index : Nat) : Bool := (source.char? index).any Text.isWord

def wordBefore (source : Source) (pos : Nat) : Bool := 0 < pos && wordAt source (pos - 1)

/-- Whether a condition holds at a position; on an empty text neither condition on word edges does. -/
def holds (source : Source) (pos : Nat) : Anchor → Bool
  | .textStart => pos == 0
  | .lineStart => pos == 0 || source.char? (pos - 1) == some '\n'
  | .textEnd => pos == source.size
  | .finalLineEnd => pos == source.size || (pos + 1 == source.size && source.char? pos == some '\n')
  | .lineEnd => pos == source.size || source.char? pos == some '\n'
  | .wordEdge => source.size != 0 && wordBefore source pos != wordAt source pos
  | .noWordEdge => source.size != 0 && wordBefore source pos == wordAt source pos

end Anchor

namespace Pattern

/-- Whether as many characters from the second offset on repeat those from the first, in any case if it is folded. -/
def repeats (source : Source) (foldCase : Bool) : Nat → Nat → Nat → Bool
  | 0, _, _ => true
  | count + 1, first, second =>
      match source.char? first, source.char? second with
      | some a, some b =>
          (if foldCase then Text.toSmall a.toNat == Text.toSmall b.toNat else a == b) &&
            repeats source foldCase count (first + 1) (second + 1)
      | _, _ => false

/-- Where the characters of a set that stand from an offset on come to an end, or a limit is reached. -/
def runEnd (source : Source) (set : CharSet) : Nat → Nat → Nat
  | 0, pos => pos
  | limit + 1, pos =>
      if (source.char? pos).any set.accepts then runEnd source set limit (pos + 1) else pos

/-- Whether a character that has to follow, if any does, stands at an offset. -/
def mayFollow (source : Source) (follow : Option CharSet) (pos : Nat) : Bool :=
  follow.all fun set => (source.char? pos).any set.accepts

/-- Try the positions up to `count` beyond `pos`, the farthest first, but those only where what has to
follow does. -/
def farthestFirst (source : Source) (follow : Option CharSet) (next : Continuation) (state : Progress)
    (pos : Nat) : Nat → Option Progress
  | 0 => next (state.move pos)
  | count + 1 =>
      if mayFollow source follow (pos + (count + 1)) then
        match next (state.move (pos + (count + 1))) with
        | some done => some done
        | none => farthestFirst source follow next state pos count
      else farthestFirst source follow next state pos count

/-- Try the positions from an offset on, the nearest first, as far as characters of a set and their
`count` allow. -/
def nearestFirst (source : Source) (set : CharSet) (next : Continuation) (state : Progress) :
    Nat → Nat → Option Progress
  | 0, pos => next (state.move pos)
  | count + 1, pos =>
      match next (state.move pos) with
      | some done => some done
      | none =>
          if (source.char? pos).any set.accepts then nearestFirst source set next state count (pos + 1)
          else none

/-- A number of copies, one after another. -/
def requiredCopies (body : Continuation → Continuation) (next : Continuation) : Nat → Continuation
  | 0 => next
  | count + 1 => body (requiredCopies body next count)

/-- At most a number of copies, and none after one that ended where it `began`. -/
def optionalCopies (body : Continuation → Continuation) (greedy : Bool) (next : Continuation) :
    Nat → Option Nat → Continuation
  | 0, _ => next
  | count + 1, began => fun state =>
      if began = some state.pos then next state
      else
        let further := optionalCopies body greedy next count (some state.pos)
        if greedy then
          match body further state with
          | some done => some done
          | none => next state
        else
          match next state with
          | some done => some done
          | none => body further state

/-- The number of optional copies worth trying with `room` characters left. -/
def allowance (least : Nat) (most : Option Nat) (room : Nat) : Nat :=
  match most with
  | none => room
  | some most => min (most - least) room

/-- Match a pattern and then what has to follow. -/
def attempt (source : Source) : Pattern → Continuation → Continuation
  | .empty, next => next
  | .char set, next => fun state =>
      if (source.char? state.pos).any set.accepts then next (state.move (state.pos + 1)) else none
  | .seq first second, next => attempt source first (attempt source second next)
  | .alt first second, next => fun state =>
      match attempt source first next state with
      | some done => some done
      | none => attempt source second next state
  | .group index body, next => fun state =>
      attempt source body (fun inner => next (inner.capture index state.pos)) state
  | .backref index foldCase, next => fun state =>
      match state.capture? index with
      | none => none
      | some found =>
          let length := found.stop - found.start
          if repeats source foldCase length found.start state.pos then
            next (state.move (state.pos + length))
          else none
  | .repeat least most greedy body, next =>
      requiredCopies (attempt source body)
        (fun state =>
          optionalCopies (attempt source body) greedy next
            (allowance least most (source.size - state.pos + 1)) none state)
        least
  | .span least most true set follow, next => fun state =>
      let room := source.size - state.pos
      let count := runEnd source set (min room (most.getD room)) state.pos - state.pos
      if count < least then none
      else farthestFirst source follow next state (state.pos + least) (count - least)
  | .span least most false set _, next => fun state =>
      let room := source.size - state.pos
      if room < least || runEnd source set least state.pos < state.pos + least then none
      else nearestFirst source set next state (min room (most.getD room) - least) (state.pos + least)
  | .look back complement body, next => fun state =>
      if state.pos < back then (if complement then next state else none)
      else
        match attempt source body some (state.move (state.pos - back)) with
        | some inner => if complement then none else next (inner.move state.pos)
        | none => if complement then next state else none
  | .anchor condition, next => fun state =>
      if condition.holds source state.pos then next state else none
  | .atLeast room body, next => fun state =>
      if source.size - state.pos < room then none else attempt source body next state

/-- The end of the preferred match that begins at a position. -/
def end? (pattern : Pattern) (source : Source) (start : Nat) : Option Nat :=
  (pattern.attempt source some ⟨start, []⟩).map (·.pos)

end Pattern

end RecursiveDescent
