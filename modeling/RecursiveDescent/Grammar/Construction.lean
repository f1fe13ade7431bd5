import RecursiveDescent.Expression

/-! # Construction of grammars

Rules may refer to one another in any order. So a parser that refuses every call is stored for each
rule first, and then the definitions are resolved in order, each of them replacing what the parser of
its rule does. A definition that is itself a rule of the grammar becomes a reference to that rule; any
other parser that exists already is copied.
-/

namespace RecursiveDescent.Grammar

/-- Store a parser that refuses every call for each name. -/
def reserve : List String → Store → Store × List (String × Address)
  | [], store => (store, [])
  | name :: rest, store =>
      let (extended, rules) := reserve rest (store.add (some name) (.unpatched name))
      (extended, (name, store.cells.size) :: rules)

/-- Let the parser of a rule do what its definition stands for. -/
def installRule (grammar : Grammar) (store : Store) (name : String) (address : Address) :
    Resolved → Run Store
  | .foreign kind => .stop (.invalidRule name kind)
  | .fresh _ body => return store.installFresh address body
  | .existing other =>
      if grammar.owns other then return store.installFresh address (.ref other)
      else return store.installCopy address other

/-- Resolve and install definitions in order; the addresses are those of the rules. -/
def installRules (bindings : Bindings) (grammar : Grammar) :
    List (String × Expression) → List (String × Address) → Store → Run Store
  | (name, definition) :: definitions, (_, address) :: rules, store => do
      let resolved ← definition.resolve ⟨store, bindings, grammar⟩
      let store ← installRule grammar store name address resolved
      installRules bindings grammar definitions rules store
  | _, _, store => return store

/-- The grammar with the given rules, and the store with their parsers. -/
def build (bindings : Bindings) (store : Store) (definitions : List (String × Expression)) :
    Run (Store × Grammar) := do
  Run.emit (.logged (.buildingGrammar definitions.length))
  let (reserved, rules) := reserve (definitions.map (·.1)) store
  let grammar : Grammar := ⟨rules⟩
  let store ← installRules bindings grammar definitions rules reserved
  Run.emit (.logged (.grammarReady grammar.names))
  return (store, grammar)

end RecursiveDescent.Grammar
