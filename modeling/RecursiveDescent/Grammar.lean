import RecursiveDescent.Store

/-! # Grammars

A grammar maps the names of its rules, in the order of their definition, to stored parsers. A rule can
be looked up as an item or as a member. Some members belong to the grammar itself and hide rules of the
same name, and names that begin with two underscores are never taken for rules by a member lookup.
-/

namespace RecursiveDescent

/-- The rules of a grammar in order. -/
structure Grammar where
  rules : List (String × Address)
deriving DecidableEq, Repr

/-- The two ways to look a rule up. -/
inductive Access where
  | member
  | item
deriving DecidableEq, Repr

/-- What a look-up in a grammar finds. -/
inductive Member where
  | rule (address : Address)
  | method
  | table
  | registry
deriving DecidableEq, Repr

def Member.kind : Member → String
  | .rule _ => "Parser"
  | .method => "method"
  | .table => "dict"
  | .registry => "_abc_data"

namespace Grammar

def names (grammar : Grammar) : List String := grammar.rules.map (·.1)

def find? (grammar : Grammar) (name : String) : Option Address := grammar.rules.lookup name

def owns (grammar : Grammar) (address : Address) : Bool := grammar.rules.any (·.2 == address)

/-- The members that are operations on the grammar. -/
def methodNames : List String := ["get", "keys", "items", "values"]

/-- The member that holds the rules themselves. -/
def tableName : String := "_rules"

/-- The member that holds what all mappings of one kind keep in common. -/
def registryName : String := "_abc_impl"

/-- Whether a name is never looked up among the rules as a member. -/
def isReserved (name : String) : Bool := ['_', '_'].isPrefixOf name.toList

/-- Look a name up as a member. -/
def member (grammar : Grammar) (name : String) : Except Fault Member :=
  if methodNames.contains name then .ok .method
  else if name = tableName then .ok .table
  else if name = registryName then .ok .registry
  else if isReserved name then .error (.reservedName name)
  else
    match grammar.find? name with
    | some address => .ok (.rule address)
    | none => .error (.unknownRule name grammar.names)

def item (grammar : Grammar) (name : String) : Except Fault Member :=
  match grammar.find? name with
  | some address => .ok (.rule address)
  | none => .error (.missingKey name)

def access (grammar : Grammar) : Access → String → Except Fault Member
  | .member => grammar.member
  | .item => grammar.item

/-- Whether two grammars map the same names to the same stored parsers, in whatever order. -/
def same (a b : Grammar) : Bool :=
  a.rules.length == b.rules.length && a.rules.all fun rule => b.find? rule.1 == some rule.2

def display (grammar : Grammar) : String := "Grammar(" ++ ", ".intercalate grammar.names ++ ")"

end Grammar

end RecursiveDescent
