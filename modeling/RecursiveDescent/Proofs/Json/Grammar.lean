import RecursiveDescent.Action
import RecursiveDescent.Proofs.Reading
import RecursiveDescent.Proofs.Termination

/-! # A grammar for JSON

Eight rules, of which the objects, their properties, the arrays and the values call each other. Blanks
are skipped around every token. Once the grammar is built, each rule does on a source what its
definition says, with calls of the other rules in place of their names.
-/

namespace RecursiveDescent.JsonGrammar

/-- The rules, in the order of their definition. -/
inductive Rule where
  | root
  | object
  | property
  | array
  | string
  | number
  | keyword
  | value
deriving DecidableEq, Repr

def space : Expression := .optional .whitespace

/-- A word with blanks around it. -/
def token (word : String) : Expression := .takeMid space (.literal word) space

def keywords : List (String × Value) := [("true", .bool true), ("false", .bool false), ("null", .null)]

/-- The text of the pattern for strings: a backslash takes the next character with it. -/
def stringPattern : String := "\"([^\"\\\\]|\\\\.)*\""

def stringLabel : String := "string"

def quote : CharSet := ⟨[.char '"'], false, false⟩

/-- The characters that stand for themselves in a string. -/
def unescaped : CharSet := ⟨[.char '"', .char '\\'], true, false⟩

/-- A character of a string, or an escape. -/
def stringItem : Pattern :=
  .group 1 (.alt (.char unescaped)
    (.seq (.char ⟨[.char '\\'], false, false⟩) (.char ⟨[.char '\n'], true, false⟩)))

def stringTree : Pattern :=
  .atLeast 2 (.seq (.char quote) (.seq (.repeat 0 none true stringItem) (.char quote)))

namespace Rule

def name : Rule → String
  | root => "Root"
  | object => "Object"
  | property => "Property"
  | array => "Array"
  | string => "String"
  | number => "Number"
  | keyword => "Keyword"
  | value => "Value"

def reference (rule : Rule) : Expression := .rule rule.name .member

def definition : Rule → Expression
  | root => .choice [object.reference, array.reference]
  | object => .map (.takeMid (token "\x7b") (.sepBy property.reference (token ",")) (token "\x7d")) .toDict
  | property => .map (.sequence [string.reference, token ":", value.reference]) .property
  | array => .takeMid (token "[") (.sepBy value.reference (token ",")) (token "]")
  | string => .map (.takeMid space (.pattern {} stringPattern stringLabel) space) .stripEnds
  | number => .takeMid space (.choice [.float, .integer]) space
  | keyword => .map (.takeMid space (.choice [.literal "true", .literal "false", .literal "null"]) space)
      (.keyword keywords)
  | value => .choice [object.reference, array.reference, string.reference, number.reference, keyword.reference]

def all : List Rule := [root, object, property, array, string, number, keyword, value]

end Rule

def rules : List (String × Expression) := Rule.all.map fun rule => (rule.name, rule.definition)

namespace Rule

theorem mem_rules (rule : Rule) : (rule.name, rule.definition) ∈ rules :=
  List.mem_map_of_mem (by cases rule <;> decide)

/-! ## The grammar, built -/

/-- The rules that a rule may call at the offset where it begins. -/
def heads : Rule → List Rule
  | root => [object, array]
  | property => [string]
  | value => [object, array, string, number, keyword]
  | _ => []

theorem heads_definition (bindings : Bindings) (sure : Address → Bool) (rule : Rule) :
    rule.definition.heads bindings sure = rule.heads.map name := by
  cases rule <;> rfl

/-- The rules that begin with a token of their own rank below the others. -/
def rank (name : String) : Nat := if name = "Root" ∨ name = "Property" ∨ name = "Value" then 1 else 0

theorem rank_lt_of_head (rule : Rule) : ∀ head ∈ rule.heads, rank head.name < rank rule.name := by
  cases rule <;> decide

theorem standard (bindings : Bindings) (rule : Rule) :
    rule.definition.Standard Action.Finishes bindings fun _ => False := by
  have pure (compute : Value → Value) : Action.Finishes (.ofValue compute) := fun _ _ => Run.finished_pure _
  have blanks : space.Standard Action.Finishes bindings fun _ => False := .optional .whitespace
  have padded {child : Expression} (standard : child.Standard Action.Finishes bindings fun _ => False) :
      (Expression.takeMid space child space).Standard Action.Finishes bindings fun _ => False :=
    .takeMid blanks standard blanks
  have each {children : List Expression}
      (all : List.Forall (·.Standard Action.Finishes bindings fun _ => False) children) :=
    List.forall_iff_forall_mem.mp all
  have reference (rule : Rule) : rule.reference.Standard Action.Finishes bindings fun _ => False :=
    .rule (by cases rule <;> decide)
  cases rule with
  | root => exact .choice (each ⟨reference _, reference _⟩)
  | object =>
    exact .map (pure _) (.takeMid (padded (.literal _)) (.sepBy (reference _) (padded (.literal _)))
      (padded (.literal _)))
  | property => exact .map (pure _) (.sequence (each ⟨reference _, padded (.literal _), reference _⟩))
  | array => exact .takeMid (padded (.literal _)) (.sepBy (reference _) (padded (.literal _))) (padded (.literal _))
  | string => exact .map (pure _) (padded (.pattern _ _ _))
  | number => exact padded (.choice (each ⟨.float, .integer⟩))
  | keyword => exact .map (pure _) (padded (.choice (each ⟨.literal _, .literal _, .literal _⟩)))
  | value => exact .choice (each ⟨reference _, reference _, reference _, reference _, reference _⟩)

/-- What a rule does, by what all the rules do. -/
def matcher (limit : Nat) (read : Rule → Matcher) : Rule → Matcher
  | root => .choice (read object) [read array]
  | object => .map (.takeMid (.padded (.literal "\x7b")) (.sepBy limit (read property) (.padded (.literal ",")))
      (.padded (.literal "\x7d"))) .toDict
  | property => .map (.sequence [read string, .padded (.literal ":"), read value]) .property
  | array => .takeMid (.padded (.literal "[")) (.sepBy limit (read value) (.padded (.literal ",")))
      (.padded (.literal "]"))
  | string => .map (.padded (.pattern stringTree stringLabel)) .stripEnds
  | number => .padded (.choice Lexeme.float [Lexeme.integer])
  | keyword => .map (.padded (.choice (.literal "true") [.literal "false", .literal "null"])) (.keyword keywords)
  | value => .choice (read object) [read array, read string, read number, read keyword]

/-- With its references resolved, a definition is a tree for the matcher of its rule, and no mere reference. -/
theorem exists_tree (bindings : Bindings) (final : Store) (first : Address) (rule : Rule) :
    ∃ tree, (rule.definition.parser ⟨final, bindings, ⟨(rules.map (·.1)).zipIdx first⟩⟩).outcome = .value tree ∧
      (∀ other, tree ≠ .ref other) ∧
      ∀ limit call, tree.matcher limit call = rule.matcher limit fun rule => call (first + all.idxOf rule) := by
  cases rule <;> exact ⟨_, rfl, nofun, fun _ _ => rfl⟩

theorem find?_name (first : Address) (rule : Rule) :
    (Grammar.mk ((rules.map (·.1)).zipIdx first)).find? rule.name = some (first + all.idxOf rule) := by
  cases rule <;> rfl

end Rule

variable {bindings : Bindings} {store final : Store} {grammar : Grammar}

/-- The grammar can be built anywhere. -/
theorem exists_build (bindings : Bindings) (store : Store) :
    ∃ final grammar, (Grammar.build bindings store rules).outcome = .value (final, grammar) :=
  ⟨_, _, rfl⟩

/-- Within the limit of a run, the rules of the grammar do what their definitions say. -/
theorem exists_matchers (within : bindings.Within store)
    (success : (Grammar.build bindings store rules).outcome = .value (final, grammar)) (source : Source) :
    ∃ (address : Rule → Address) (read : Rule → Matcher), (∀ rule, grammar.find? rule.name = some (address rule)) ∧
      (∀ rule, read rule = final.call (final.limit source 0) (address rule)) ∧
      ∀ rule, Matcher.AgreeOn source (read rule) (rule.matcher (final.limit source 0) read) := by
  have built := Grammar.built_of_build within success
  have definitions : ∀ definition ∈ rules, ∃ rule : Rule, definition = (rule.name, rule.definition) := by
    intro definition member
    obtain ⟨rule, _, rfl⟩ := List.mem_map.mp member
    exact ⟨rule, rfl⟩
  have each : ∀ definition ∈ rules, definition.2.Standard Action.Finishes bindings fun _ => False := by
    intro definition member
    obtain ⟨rule, rfl⟩ := definitions definition member
    exact rule.standard bindings
  have lower : ∀ definition ∈ rules, ∀ name ∈ definition.2.heads bindings fun _ => false,
      Rule.rank name < Rule.rank definition.1 := by
    intro definition member
    obtain ⟨rule, rfl⟩ := definitions definition member
    rw [rule.heads_definition, List.forall_mem_map]
    exact rule.rank_lt_of_head
  have ranked := built.ranked within store.ranked_none each lower fun _ => Nat.zero_le _
  obtain ⟨addresses⟩ := grammar
  obtain rfl : addresses = _ := built.rules_eq
  let address (rule : Rule) := store.cells.size + Rule.all.idxOf rule
  refine ⟨address, fun rule => final.call (final.limit source 0) (address rule), Rule.find?_name _, fun _ => rfl, ?_⟩
  intro rule pos after inside
  have found := Rule.find?_name store.cells.size rule
  obtain ⟨tree, outcome, noReference, same⟩ := rule.exists_tree bindings final store.cells.size
  have stored : final.body? (address rule) = some tree := by
    obtain ⟨other, stands, follows⟩ := built.follows_of_defined (by decide) rule.mem_rules found
    obtain rfl : other = tree := Outcome.value.inj (stands.symm.trans outcome)
    rcases follows with here | ⟨target, _, reference, _⟩
    · exact here
    · exact (noReference target reference).elim
  have owned : Grammar.owns ⟨_⟩ (address rule) = true := Grammar.owns_of_mem (Grammar.mem_of_find? found)
  exact (ranked.call_eq (.inr owned) stored after inside).trans (by rw [same])

end RecursiveDescent.JsonGrammar
