import RecursiveDescent.Grammar.Construction
import RecursiveDescent.Session.Step

/-! # Sessions

A session binds names to parsers and grammars, runs them, and changes what stored parsers do. A step
that faults has no effect beyond its events.
-/

namespace RecursiveDescent

structure Session where
  store : Store
  bindings : Bindings

/-- Put a binding in place of an earlier one of the same name. -/
def Bindings.rebind {α : Type} (name : String) (bound : α) (others : List (String × α)) :
    List (String × α) :=
  (name, bound) :: others.filter (·.1 != name)

/-- A parser as shown to a person: by its name, or by a stand-in for the address where it has none. -/
def displayParser : Option String → String
  | some name => "<Parser " ++ name ++ ">"
  | none => "<Parser at ADDR>"

namespace Session

def empty : Session := ⟨.empty, .empty⟩

/-- The scope of an expression outside of any grammar. -/
def scope (session : Session) : Scope := ⟨session.store, session.bindings, ⟨[]⟩⟩

def find (session : Session) (target : Target) : Run Address :=
  Run.ofExcept (session.bindings.address target)

def findGrammar (session : Session) (name : String) : Run Grammar :=
  Run.ofExcept (session.bindings.grammar name)

def bindParser (session : Session) (name : String) (address : Address) (store : Store) : Session :=
  ⟨store, { session.bindings with parsers := Bindings.rebind name address session.bindings.parsers }⟩

def bindGrammar (session : Session) (name : String) (grammar : Grammar) (store : Store) : Session :=
  ⟨store, { session.bindings with grammars := Bindings.rebind name grammar session.bindings.grammars }⟩

/-- Bind a name to what an expression stands for; a new parser is stored first. -/
def bind (session : Session) (name : String) : Resolved → Run Session
  | .existing address => return session.bindParser name address session.store
  | .fresh label body =>
      return session.bindParser name session.store.cells.size (session.store.add label body)
  | .foreign kind => .stop (.notAParser kind "parse")

/-- The store after a transfer between two stored parsers. -/
def transfer (store : Store) (target source : Address) : Transfer → Store
  | .copy => store.installCopy target source
  | .delegate => store.installFresh target (.ref source)

def describe (store : Store) : Member → Description
  | .rule address => .parser (store.name address)
  | other => .other other.kind

def ask (session : Session) (grammar : Grammar) : GrammarQuery → Run Answer
  | .display => return .text grammar.display
  | .keys => return .names grammar.names
  | .size => return .count grammar.rules.length
  | .parserNames =>
      return .parserNames (grammar.rules.map fun (name, address) => (name, session.store.name address))
  | .has name => return .flags (grammar.find? name).isSome (grammar.member name).isOk
  | .member name => do
      let found ← Run.ofExcept (grammar.member name)
      return .description (describe session.store found)
  | .item name => do
      let found ← Run.ofExcept (grammar.item name)
      return .description (describe session.store found)
  | .itemOrNothing name =>
      match grammar.find? name with
      | some address => return .description (.parser (session.store.name address))
      | none => return .description (.other Value.null.kind)
  | .sameAs other => do
      let other ← session.findGrammar other
      return .flag (grammar.same other)
  | .setMember _ => .stop .immutableGrammar

def step (session : Session) : Step → Run (Session × Answer)
  | .bind name definition => do
      let resolved ← definition.resolve session.scope
      let next ← session.bind name resolved
      return (next, .done)
  | .buildGrammar name definitions => do
      let (store, grammar) ← Grammar.build session.bindings session.store definitions
      return (session.bindGrammar name grammar store, .names grammar.names)
  | .parse target mode source => do
      let address ← session.find target
      let result ← session.store.run mode (.ref address) source
      return (session, .result result)
  | .install target source how => do
      let target ← session.find target
      let source ← session.find source
      return ({ session with store := transfer session.store target source how }, .done)
  | .describe target => do
      let name := session.store.name (← session.find target)
      return (session, .parser name (displayParser name))
  | .sameParser first second => do
      let first ← session.find first
      let second ← session.find second
      return (session, .flag (first == second))
  | .sameBehaviour first second => do
      let first ← session.find first
      let second ← session.find second
      return (session, .flag (session.store.mark? first == session.store.mark? second))
  | .sameResult first second source pos => do
      let a ← session.store.matcher (.ref (← session.find first)) source pos
      let b ← session.store.matcher (.ref (← session.find second)) source pos
      return (session, .flag (a.same b))
  | .query name query => do
      let answer ← session.ask (← session.findGrammar name) query
      return (session, answer)

/-- The session after a run of a step: the one it answers with, or else the one before. -/
def next (session : Session) (run : Run (Session × Answer)) : Session :=
  match run.outcome with
  | .value (next, _) => next
  | _ => session

/-- Carry out steps one after another, whatever becomes of each. -/
def runAll (session : Session) : List Step → List (Run (Session × Answer))
  | [] => []
  | step :: rest =>
      let run := session.step step
      run :: runAll (session.next run) rest

end Session

end RecursiveDescent
