import RecursiveDescent.Parser

/-! # The store of parsers

Every parser that can be named lives in a cell. A cell keeps its name for good, but what it does can be
replaced: by a copy of what another cell does at the time, or by a reference that follows the other
cell. Whether two cells do the same is asked of a mark: what is made anew gets a mark of its own, and a
copy keeps the mark.
-/

namespace RecursiveDescent

/-- What a cell does, with the mark that its copies share. -/
structure Behaviour where
  mark : Nat
  body : Parser
deriving Inhabited

structure Cell where
  name : Option String
  behaviour : Behaviour
deriving Inhabited

/-- The stored parsers, and the first mark that is still free. -/
structure Store where
  cells : Array Cell
  nextMark : Nat

namespace Store

/-- A store without parsers; the mark that precedes the free ones belongs to what consumes nothing. -/
def empty : Store := ⟨#[], 1⟩

/-- What a new parser does: a fresh mark, but one and the same for all that consume nothing. -/
def fresh (store : Store) : Parser → Behaviour
  | .nothing => ⟨0, .nothing⟩
  | body => ⟨store.nextMark, body⟩

/-- Store a new parser; its address is the number of cells before. -/
def add (store : Store) (name : Option String) (body : Parser) : Store :=
  ⟨store.cells.push ⟨name, store.fresh body⟩, store.nextMark + 1⟩

def install (store : Store) (address : Address) (behaviour : Behaviour) : Store :=
  { store with cells := store.cells.modify address fun cell => { cell with behaviour } }

def installFresh (store : Store) (address : Address) (body : Parser) : Store :=
  { store.install address (store.fresh body) with nextMark := store.nextMark + 1 }

def installCopy (store : Store) (address source : Address) : Store :=
  match store.cells[source]? with
  | some cell => store.install address cell.behaviour
  | none => store

def name (store : Store) (address : Address) : Option String := store.cells[address]?.bind (·.name)

def mark? (store : Store) (address : Address) : Option Nat :=
  store.cells[address]?.map (·.behaviour.mark)

/-- Invoke a stored parser; the limit bounds how deep such calls nest, and the rounds of each loop. -/
def call (store : Store) : Nat → Address → Matcher
  | 0, _ => fun _ _ => .unfinished
  | limit + 1, address =>
      match store.cells[address]? with
      | some cell => cell.behaviour.body.matcher limit (call store limit)
      | none => fun _ _ => .unfinished

/-- A limit on calls and rounds. Where no call and no round is repeated at one offset, as in every parse
that comes to an end, the cells and the offsets bound both; the first factor is a reserve for results
made by hand, which may lead to other offsets. -/
def limit (store : Store) (source : Source) (pos : Int) : Nat :=
  1024 * (store.cells.size + 1) * (source.size + pos.natAbs + 1)

def matcher (store : Store) (parser : Parser) : Matcher := fun source pos =>
  let limit := store.limit source pos
  parser.matcher limit (store.call limit) source pos

end Store

inductive RunMode where
  /-- Begin at an offset. -/
  | startingAt (pos : Int)
  /-- Begin at the first character; a rest may be left. -/
  | lenient
  /-- Begin at the first character and leave nothing. -/
  | strict
deriving DecidableEq, Repr

def Store.run (store : Store) (mode : RunMode) (parser : Parser) (source : Source) : Run Result :=
  match mode with
  | .startingAt pos => store.matcher parser source pos
  | .lenient => store.matcher parser source 0
  | .strict => Matcher.strict (store.matcher parser) source

end RecursiveDescent
