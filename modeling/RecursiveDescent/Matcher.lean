import RecursiveDescent.Pattern.Matching
import RecursiveDescent.Run

/-! # Matchers and their combinators

A matcher attempts a match of a source at an offset. All of the policy for failures is here:
`Matcher.map` never touches a failure, `Matcher.sequence` hands on the first one, and `Matcher.choice`
keeps the one that got furthest, the earliest of those on a tie. `Matcher.many` is the only loop; it
takes a limit on its rounds, and a run that reaches the limit is unfinished.

The combinators work on any matchers, also on such as answer with odd offsets.
-/

namespace RecursiveDescent

/-- An attempt to match a source at an offset. -/
abbrev Matcher := Source → Int → Run Result

/-- What is done with the value and the span of a match to obtain a new value. -/
abbrev Action := Value → Span → Run Value

/-- The values of matches that follow one another, and the offset at which the last one stopped. -/
structure Chain where
  values : List Value
  stop : Int
deriving Inhabited, Repr

namespace Matcher

/-- Go on with a success; a failure is handed on as it is. -/
def onSuccess (run : Run Result) (next : Success → Run Result) : Run Result := do
  match ← run with
  | .success found => next found
  | .failure missed => return .failure missed

/-- Match a literal text. A failure covers the characters that were compared. -/
def literal (expected : String) : Matcher := fun source pos =>
  let stop := max pos (min (pos + expected.length) source.size)
  if source.slice pos stop = expected then return .success ⟨stop, ⟨pos, stop⟩, .text expected⟩
  else return .failure ⟨stop, ⟨pos, stop⟩, expected⟩

/-- Match a pattern at the offset, brought into range; a failure is reported at the offset given. -/
def pattern (pattern : Pattern) (label : String) : Matcher := fun source pos =>
  let start := source.clamp pos
  match pattern.end? source start with
  | some stop => return .success ⟨stop, ⟨pos, stop⟩, .text (source.extract start stop)⟩
  | none => return .failure ⟨pos, ⟨pos, pos⟩, label⟩

/-- Succeed without consuming anything. -/
def nothing : Matcher := fun _ pos => return .success ⟨pos, ⟨pos, pos⟩, .null⟩

def fixed (result : Result) : Matcher := fun _ _ => return result

/-- Report the offset of each call before making it. -/
def observed (observer : String) (child : Matcher) : Matcher := fun source pos => do
  Run.emit (.visited observer pos)
  child source pos

def map (child : Matcher) (action : Action) : Matcher := fun source pos =>
  onSuccess (child source pos) fun found => do
    let value ← action found.value found.span
    return .success ⟨found.pos, found.span, value⟩

/-- Match children one after another, each where the one before it stopped, up to the first failure. -/
def chain (source : Source) : List Matcher → Int → Run (Except Failure Chain)
  | [], pos => return .ok ⟨[], pos⟩
  | child :: rest, pos => do
      match ← child source pos with
      | .failure missed => return .error missed
      | .success found =>
          match ← chain source rest found.pos with
          | .error missed => return .error missed
          | .ok tail => return .ok ⟨found.value :: tail.values, tail.stop⟩

/-- Match children one after another and collect their values; the first failure is the result. -/
def sequence (children : List Matcher) : Matcher := fun source pos => do
  match ← chain source children pos with
  | .error missed => return .failure missed
  | .ok all => return .success ⟨all.stop, ⟨pos, all.stop⟩, .list all.values⟩

/-- The failure that got further; the first one on a tie. -/
def furthest (first second : Failure) : Failure := if first.pos < second.pos then second else first

/-- Match the first child or else the second; if both fail, the furthest failure is the result. -/
def orElse (first second : Matcher) : Matcher := fun source pos => do
  match ← first source pos with
  | .success found => return .success found
  | .failure missed =>
      match ← second source pos with
      | .success found => return .success found
      | .failure later => return .failure (furthest missed later)

/-- Match the first alternative that succeeds, all at the same offset. -/
def choice (first : Matcher) (rest : List Matcher) : Matcher := rest.foldl orElse first

def optional (child : Matcher) : Matcher := choice child [nothing]

/-- Match a child again and again, for as long as there is text left and it moves. -/
def rounds (child : Matcher) (source : Source) : Nat → Int → Run Chain
  | 0, _ => .unfinished
  | limit + 1, pos =>
      if pos < source.size then do
        match ← child source pos with
        | .failure _ => return ⟨[], pos⟩
        | .success found =>
            if found.pos = pos then return ⟨[], pos⟩
            else
              let tail ← rounds child source limit found.pos
              return ⟨found.value :: tail.values, tail.stop⟩
      else return ⟨[], pos⟩

/-- Match a child as often as it moves, and collect the values. -/
def many (limit : Nat) (child : Matcher) : Matcher := fun source pos => do
  let all ← rounds child source limit pos
  return .success ⟨all.stop, ⟨pos, all.stop⟩, .list all.values⟩

/-- Match items with separators between them, and collect the values of the items. -/
def sepBy (limit : Nat) (item separator : Matcher) : Matcher := fun source pos => do
  match ← item source pos with
  | .failure _ => return .success ⟨pos, ⟨pos, pos⟩, .list []⟩
  | .success head =>
      let tail ← rounds (sequence [separator, item]) source limit head.pos
      return .success
        ⟨tail.stop, ⟨pos, tail.stop⟩, .list (head.value :: tail.values.map (Value.item 1))⟩

def middle : Action := fun value _ => return value.item 1

/-- Match three children and keep only the value of the second. -/
def takeMid (opening child closing : Matcher) : Matcher := map (sequence [opening, child, closing]) middle

/-- The label of the failure to consume all of a source. -/
def endOfInput : String := "end of input"

/-- Match from the beginning of a source and require that nothing is left over. -/
def strict (child : Matcher) (source : Source) : Run Result :=
  onSuccess (child source 0) fun found => do
    if found.pos < source.size then
      Run.emit (.logged (.strictParseStopped found.pos source.size))
      return .failure ⟨found.pos, ⟨found.pos, source.size⟩, endOfInput⟩
    else return .success found

end Matcher

end RecursiveDescent
