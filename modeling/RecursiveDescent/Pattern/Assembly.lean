import RecursiveDescent.Pattern.Token

/-! # Patterns from tokens

The tokens of a pattern are taken one by one; the groups that are open form a stack of frames, and the
frame for the whole pattern lies below them. A reference is accepted only if its group is closed, and
a lookbehind only if everything that it matches has one length.
-/

namespace RecursiveDescent

/-- The least and the greatest number of characters that a pattern matches. -/
structure Width where
  least : Nat
  most : Option Nat
deriving DecidableEq, Repr

namespace Width

def exactly (count : Nat) : Width := ⟨count, some count⟩

def add (a b : Width) : Width := ⟨a.least + b.least, a.most.bind fun m => b.most.map (m + ·)⟩

def join (a b : Width) : Width := ⟨min a.least b.least, a.most.bind fun m => b.most.map (max m ·)⟩

/-- The width of a number of copies; no copies of any length are of length zero. -/
def copies (least : Nat) (most : Option Nat) (width : Width) : Width :=
  ⟨least * width.least,
    if width.most = some 0 || most = some 0 then some 0 else most.bind fun m => width.most.map (m * ·)⟩

/-- The greatest length that may be looked back over. -/
def greatest : Nat := 4294967294

/-- The only length, if the bounds leave just one, and it is not too great to look back over. -/
def fixed? (width : Width) : Option Nat :=
  if width.most = some width.least && width.least ≤ greatest then some width.least else none

end Width

namespace Pattern

/-- The width of a pattern, where `groups` tells the widths of the groups that it may refer to. -/
def width (groups : Nat → Width) : Pattern → Width
  | .empty | .look _ _ _ | .anchor _ => .exactly 0
  | .char _ => .exactly 1
  | .seq first second => (first.width groups).add (second.width groups)
  | .alt first second => (first.width groups).join (second.width groups)
  | .group _ body => body.width groups
  | .backref index _ => groups index
  | .repeat least most _ body => (body.width groups).copies least most
  | .span least most _ _ _ => (Width.exactly 1).copies least most
  | .atLeast _ body => body.width groups

/-- The set that the first character of every match belongs to, if the pattern begins with one. -/
def opening? : Pattern → Option CharSet
  | .char set => some set
  | .seq first _ => first.opening?
  | _ => none

/-- A pattern before another that opens with a character of a set, if with any. -/
def before (opening : Option CharSet) : Pattern → Pattern
  | .span least most greedy set _ => .span least most greedy set opening
  | pattern => pattern

/-- One pattern after another. -/
def ofSequence : List Pattern → Pattern
  | [] => .empty
  | [pattern] => pattern
  | pattern :: rest =>
      let tail := ofSequence rest
      .seq (pattern.before tail.opening?) tail

def parts : Pattern → List Pattern
  | .empty => []
  | .seq first second => first.parts ++ second.parts
  | pattern => [pattern]

/-- Whether a pattern matches in at most one way wherever it begins. -/
def isSingleWay : Pattern → Bool
  | .char _ | .backref _ _ | .anchor _ => true
  | _ => false

/-- The parts with which a branch and all others begin, and what is left of each. Only parts that match
in one way are shared, so that the branches are still preferred in their order. -/
def shareStart : List Pattern → List (List Pattern) → List Pattern × List (List Pattern)
  | [], others => ([], [] :: others)
  | head :: tail, others =>
      if head.isSingleWay && others.all (·.head? == some head) then
        let (shared, branches) := shareStart tail (others.map List.tail)
        (head :: shared, branches)
      else ([], (head :: tail) :: others)

/-- The items of a pattern that is one character of a set. -/
def items? : Pattern → Option (List CharItem × Bool)
  | .char ⟨items, false, foldCase⟩ => some (items, foldCase)
  | _ => none

/-- The one set that stands for all branches, if each of them is one character of a set. -/
def joinSets? (branches : List Pattern) : Option Pattern := do
  let sets ← branches.mapM items?
  let foldCase := sets.any (·.2)
  if sets.all (·.2 == foldCase) then some (.char ⟨sets.flatMap (·.1), false, foldCase⟩) else none

def choice : List Pattern → Pattern
  | [] => .empty
  | [pattern] => pattern
  | pattern :: rest => .alt pattern (choice rest)

/-- A choice between branches, in which nothing is tried twice that can be seen to be the same: what the
branches begin with is shared, sets of characters are joined, and a repeated branch is left out. -/
def ofBranches : List Pattern → Pattern
  | [] => .empty
  | [pattern] => pattern
  | first :: rest =>
      let (shared, branches) := shareStart first.parts (rest.map parts)
      let branches := branches.map ofSequence
      let choices := (joinSets? branches).getD (choice branches.eraseDups)
      ofSequence (shared ++ choices.parts)

/-- Repeat a pattern; characters of one set take a form of their own. -/
def quantify (least : Nat) (most : Option Nat) (greedy : Bool) : Pattern → Pattern
  | .char set => .span least most greedy set none
  | pattern => .repeat least most greedy pattern

end Pattern

/-- What becomes of the pattern between two parentheses. -/
inductive FrameKind where
  | plain
  | capturing (index : Nat)
  /-- A lookaround that was opened when the groups up to `known` had been. -/
  | look (behind complement : Bool) (known : Nat)
deriving DecidableEq, Repr

/-- A pattern under construction: finished branches and the parts of the last one, latest first. -/
structure Frame where
  kind : FrameKind
  branches : List Pattern
  parts : List Pattern
  /-- Whether the latest part may be repeated. -/
  repeatable : Bool
deriving DecidableEq, Repr

namespace Frame

def fresh (kind : FrameKind) : Frame := ⟨kind, [], [], false⟩

def push (frame : Frame) (part : Pattern) (repeatable : Bool) : Frame :=
  { frame with parts := part :: frame.parts, repeatable }

/-- Finish the last branch and begin another. -/
def branch (frame : Frame) : Frame :=
  { frame with
    branches := Pattern.ofSequence frame.parts.reverse :: frame.branches, parts := [], repeatable := false }

/-- The pattern that a frame holds once it is closed. -/
def pattern (frame : Frame) : Pattern := Pattern.ofBranches frame.branch.branches.reverse

end Frame

/-- The state of reading: the groups opened, the widths of those closed, and the frames. -/
structure Assembly where
  opened : Nat
  closed : List (Nat × Width)
  current : Frame
  outer : List Frame
deriving DecidableEq, Repr

namespace Assembly

def start : Assembly := ⟨0, [], .fresh .plain, []⟩

def groupWidth (state : Assembly) (index : Nat) : Width := (state.closed.lookup index).getD (.exactly 0)

/-- The groups that had been opened before the outermost lookbehind that is open. -/
def knownBeforeLookbehind? (state : Assembly) : Option Nat :=
  (state.outer.reverse ++ [state.current]).findSome? fun frame =>
    match frame.kind with
    | .look true _ known => some known
    | _ => none

/-- Whether a group may be referred to: it is closed, and began before any lookbehind that is open. -/
def mayRefer (state : Assembly) (index : Nat) : Bool :=
  (state.closed.lookup index).isSome && state.knownBeforeLookbehind?.all (index ≤ ·)

def openGroup (state : Assembly) (kind : GroupKind) : Assembly :=
  let outer := state.current :: state.outer
  match kind with
  | .plain => { state with current := .fresh .plain, outer }
  | .capturing =>
      let index := state.opened + 1
      { state with opened := index, current := .fresh (.capturing index), outer }
  | .look behind complement =>
      { state with current := .fresh (.look behind complement state.opened), outer }

def closeGroup? (state : Assembly) : Option Assembly :=
  match state.outer with
  | [] => none
  | frame :: outer =>
      let body := state.current.pattern
      match state.current.kind with
      | .plain => some { state with current := frame.push body true, outer }
      | .capturing index =>
          let closed := (index, body.width state.groupWidth) :: state.closed
          some { state with closed, current := frame.push (.group index body) true, outer }
      | .look false complement _ =>
          some { state with current := frame.push (.look 0 complement body) true, outer }
      | .look true complement _ => do
          let back ← (body.width state.groupWidth).fixed?
          some { state with current := frame.push (.look back complement body) true, outer }

def step? (state : Assembly) : PatternToken → Option Assembly
  | .leaf (.backref index foldCase) =>
      if state.mayRefer index then
        some { state with current := state.current.push (.backref index foldCase) true }
      else none
  | .leaf (.anchor condition) =>
      some { state with current := state.current.push (.anchor condition) false }
  | .leaf pattern => some { state with current := state.current.push pattern true }
  | .opening kind => some (state.openGroup kind)
  | .closing => state.closeGroup?
  | .bar => some { state with current := state.current.branch }
  | .quantifier least most greedy =>
      match state.current.repeatable, state.current.parts with
      | true, part :: parts =>
          let part := part.quantify least most greedy
          some { state with current := { state.current with parts := part :: parts, repeatable := false } }
      | _, _ => none

/-- The whole pattern, once every group is closed; it is not tried where too little text is left. -/
def finish? (state : Assembly) : Option Pattern :=
  if state.outer.isEmpty then
    let pattern := state.current.pattern
    let room := (pattern.width state.groupWidth).least
    some (if room = 0 then pattern else .atLeast room pattern)
  else none

end Assembly

namespace Pattern

/-- The pattern that tokens form, if their groups and references are in order. -/
def ofTokens? (tokens : List PatternToken) : Option Pattern := do
  let state ← tokens.foldlM Assembly.step? Assembly.start
  state.finish?

/-- The pattern that a text describes, if it follows the pattern syntax. -/
def compile? (flags : PatternFlags) (text : String) : Option Pattern := do
  ofTokens? (← PatternToken.scan? flags text.toList)

end Pattern

end RecursiveDescent
