import RecursiveDescent.Grammar

/-! # Parser expressions

The expressions in which parsers and the rules of grammars are written. An expression is resolved from
its leaves upwards, children from left to right: patterns are compiled, names are looked up, and the
first fault is the answer. What results is a parser that exists already, a new one with its name, or
something that is no parser. Most combinators take such a thing for a child all the same, and only its
call is a fault; a map asks its child for the name at once.
-/

namespace RecursiveDescent

/-- A stored parser, by the name it is bound to or as a rule of a grammar that is. -/
inductive Target where
  | bound (name : String)
  | rule (grammar name : String) (access : Access)
deriving DecidableEq, Repr

/-- The names that are bound to parsers and to grammars. -/
structure Bindings where
  parsers : List (String × Address)
  grammars : List (String × Grammar)
deriving DecidableEq, Repr

/-- How a parser is written. -/
inductive Expression where
  | literal (expected : String)
  | pattern (flags : PatternFlags) (text label : String)
  | nothing
  | whitespace
  | integer
  | float
  | map (child : Expression) (action : Action)
  | sequence (children : List Expression)
  | choice (children : List Expression)
  | many (child : Expression)
  | optional (child : Expression)
  | sepBy (item separator : Expression)
  | takeMid (opening child closing : Expression)
  | fixed (name : Option String) (result : Result)
  | observed (name : Option String) (observer : String) (child : Expression)
  /-- A parser that exists already. -/
  | existing (target : Target)
  /-- A rule of the grammar under construction. -/
  | rule (name : String) (access : Access)
  /-- What is written in `next`, after a parse with a rule of the grammar under construction. -/
  | early (name : String) (access : Access) (source : Source) (pos : Int) (next : Expression)
  /-- A value, which is no parser. -/
  | foreign (value : Value)
deriving Inhabited

/-- What an expression stands for. -/
inductive Resolved where
  | existing (address : Address)
  | fresh (name : Option String) (body : Parser)
  | foreign (kind : String)
deriving Inhabited

/-- What expressions may refer to. -/
structure Scope where
  store : Store
  bindings : Bindings
  /-- The grammar under construction. -/
  grammar : Grammar

namespace Bindings

def empty : Bindings := ⟨[], []⟩

def grammar (bindings : Bindings) (name : String) : Except Fault Grammar :=
  match bindings.grammars.lookup name with
  | some grammar => .ok grammar
  | none => .error (.missingKey name)

/-- The parser that a target means; members of a grammar that are no rules are refused. -/
def address (bindings : Bindings) : Target → Except Fault Address
  | .bound name =>
      match bindings.parsers.lookup name with
      | some address => .ok address
      | none => .error (.missingKey name)
  | .rule grammar name access => do
      match ← (← bindings.grammar grammar).access access name with
      | .rule address => .ok address
      | other => .error (.notAParser other.kind "parse")

end Bindings

/-- The tree of what is used as a parser. -/
def Resolved.tree : Resolved → Parser
  | .existing address => .ref address
  | .fresh _ body => body
  | .foreign kind => .foreign kind

namespace Scope

def empty : Scope := ⟨.empty, .empty, ⟨[]⟩⟩

/-- What a rule reference in a definition stands for. -/
def rule (scope : Scope) (name : String) (access : Access) : Run Resolved := do
  match ← Run.ofExcept (scope.grammar.access access name) with
  | .rule address => return .existing address
  | other => return .foreign other.kind

/-- The name of a parser, which only parsers have. -/
def nameOf (scope : Scope) : Resolved → Run (Option String)
  | .existing address => return scope.store.name address
  | .fresh name _ => return name
  | .foreign kind => .stop (.notAParser kind "name")

/-- Parse with a rule while the grammar is under construction, and report the result. -/
def parseEarly (scope : Scope) (name : String) (access : Access) (source : Source) (pos : Int) :
    Run Unit := do
  let resolved ← scope.rule name access
  let result ← scope.store.matcher resolved.tree source pos
  Run.emit (.parsedEarly name result)

end Scope

namespace Expression

def compile (flags : PatternFlags) (text : String) : Run Pattern :=
  match Pattern.compile? flags text with
  | some tree => return tree
  | none => .stop .malformedPattern

/-- The tree for a choice between parsers, which needs one at least. -/
def choiceOf : List Parser → Run Parser
  | [] => .stop (.emptyCombinator "choice")
  | first :: rest => return .choice first rest

def sequenceOf : List Parser → Run Parser
  | [] => .stop (.emptyCombinator "sequence")
  | children => return .sequence children

mutual

/-- What an expression stands for in a scope. -/
def resolve (scope : Scope) : Expression → Run Resolved
  | .literal expected => return .fresh (some (Text.quoted expected)) (.literal expected)
  | .pattern flags text label => do
      let tree ← compile flags text
      return .fresh (some label) (.pattern tree label)
  | .nothing => return .fresh (some "nothing") .nothing
  | .whitespace => return .fresh (some Lexeme.whitespaceLabel) .whitespace
  | .integer => return .fresh (some Lexeme.integerLabel) .integer
  | .float => return .fresh (some Lexeme.floatLabel) .float
  | .map child action => do
      let resolved ← resolve scope child
      let name ← scope.nameOf resolved
      return .fresh name (.map resolved.tree action)
  | .sequence children => do
      let body ← sequenceOf (← resolveAll scope children)
      return .fresh (some "sequence") body
  | .choice children => do
      let body ← choiceOf (← resolveAll scope children)
      return .fresh (some "choice") body
  | .many child => do
      let resolved ← resolve scope child
      return .fresh (some "many") (.many resolved.tree)
  | .optional child => do
      let resolved ← resolve scope child
      return .fresh (some "choice") (.optional resolved.tree)
  | .sepBy item separator => do
      let item ← resolve scope item
      let separator ← resolve scope separator
      return .fresh (some "sep_by") (.sepBy item.tree separator.tree)
  | .takeMid opening child closing => do
      let opening ← resolve scope opening
      let child ← resolve scope child
      let closing ← resolve scope closing
      return .fresh (some "sequence") (.takeMid opening.tree child.tree closing.tree)
  | .fixed name result => return .fresh name (.fixed result)
  | .observed name observer child => do
      let resolved ← resolve scope child
      return .fresh name (.observed observer resolved.tree)
  | .existing target => do
      let address ← Run.ofExcept (scope.bindings.address target)
      return .existing address
  | .rule name access => scope.rule name access
  | .early name access source pos next => do
      scope.parseEarly name access source pos
      resolve scope next
  | .foreign value => return .foreign value.kind

def resolveAll (scope : Scope) : List Expression → Run (List Parser)
  | [] => return []
  | child :: rest => do
      let resolved ← resolve scope child
      let rest ← resolveAll scope rest
      return resolved.tree :: rest

end

def parser (scope : Scope) (expression : Expression) : Run Parser := do
  let resolved ← resolve scope expression
  return resolved.tree

end Expression

end RecursiveDescent
