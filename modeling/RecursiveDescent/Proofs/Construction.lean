import Mathlib.Data.List.Forall2
import RecursiveDescent.Proofs.Underway

/-! # What a finished grammar consists of

A build stores a placeholder for each rule and replaces the placeholders one at a time, so the store
differs between any two definitions. What survives of this order is little: a definition that resolved
in an unfinished store resolves to the same in the finished one, where each rule then does what its
definition stands for. `Grammar.Built` says so, and is all that later proofs use of a build.
-/

namespace RecursiveDescent

/-- A stored parser does what a definition stands for. If that is a parser from outside of the grammar,
the stored one does the same as that one. -/
def Scope.Follows (scope : Scope) (address : Address) (definition : Expression) : Prop :=
  ∃ tree, definition.StandsFor scope tree ∧
    (scope.store.body? address = some tree ∨
      ∃ other body, tree = .ref other ∧ scope.grammar.owns other = false ∧
        scope.store.body? other = some body ∧ scope.store.body? address = some body)

/-- What was installed for a definition follows it. -/
theorem Scope.Installed.follows {scope : Scope} {address : Address} {definition : Expression}
    (installed : scope.Installed address definition) : scope.Follows address definition := by
  obtain ⟨tree, body, stands, made, stored⟩ := installed
  refine ⟨tree, stands, ?_⟩
  cases tree with
  | ref other =>
    simp only [installed?] at made
    split at made
    · cases made; exact .inl stored
    · next outside => exact .inr ⟨other, body, rfl, Bool.eq_false_iff.mpr outside, made, stored⟩
  | foreign kind => cases made
  | _ => cases made; exact .inl stored

namespace Grammar

/-- The rules of a finished grammar: they have the addresses after those of the store before, what was
stored there is as it was, and each rule follows its definition. -/
structure Built (bindings : Bindings) (store : Store) (definitions : List (String × Expression))
    (final : Store) (grammar : Grammar) : Prop where
  rules_eq : grammar.rules = (definitions.map (·.1)).zipIdx store.cells.size
  size_eq : final.cells.size = store.cells.size + definitions.length
  kept : ∀ address, address < store.cells.size → final.body? address = store.body? address
  follow : List.Forall₂ (fun definition rule => Scope.Follows ⟨final, bindings, grammar⟩ rule.2 definition.2)
    definitions grammar.rules

/-- The scope of a build that succeeds, after the last definition. -/
theorem underway_of_build {bindings : Bindings} {store final : Store} {grammar : Grammar}
    {definitions : List (String × Expression)} (within : bindings.Within store)
    (success : (build bindings store definitions).outcome = .value (final, grammar)) :
    Underway bindings store definitions definitions.length ⟨final, bindings, grammar⟩ :=
  underway_spec within (Nat.le_refl _) (build_outcome.mp success)

/-- A build that succeeds leaves a finished grammar. -/
theorem built_of_build {bindings : Bindings} {store final : Store} {grammar : Grammar}
    {definitions : List (String × Expression)} (within : bindings.Within store)
    (success : (build bindings store definitions).outcome = .value (final, grammar)) :
    Built bindings store definitions final grammar := by
  have underway := underway_of_build within success
  refine ⟨underway.rules_eq, underway.size_eq, underway.kept, ?_⟩
  have rules_eq : grammar.rules = (definitions.map (·.1)).zipIdx store.cells.size := underway.rules_eq
  rw [List.forall₂_iff_get, rules_eq]
  refine ⟨by rw [List.length_zipIdx, List.length_map], fun index inside _ => ?_⟩
  have installed := underway.installed inside (List.getElem?_eq_getElem inside)
  simpa only [List.get_eq_getElem, List.getElem_zipIdx] using installed.follows

namespace Built

variable {bindings : Bindings} {store final : Store} {grammar : Grammar}
  {definitions : List (String × Expression)} (built : Built bindings store definitions final grammar)
include built

/-- The rules of the grammar have the addresses that were added. -/
theorem owns_iff {address : Address} :
    grammar.owns address = true ↔ store.cells.size ≤ address ∧ address < final.cells.size := by
  obtain ⟨rules⟩ := grammar
  obtain rfl : rules = _ := built.rules_eq
  rw [owns_zipIdx, built.size_eq, List.length_map]

/-- What is stored outside of the grammar was there before. -/
theorem body?_of_outside {address : Address} {body : Parser} (outside : grammar.owns address = false)
    (stored : final.body? address = some body) : store.body? address = some body := by
  have before : address < store.cells.size := by
    by_contra after
    rw [built.owns_iff.mpr ⟨Nat.not_lt.mp after, Store.body?_of_lt stored⟩] at outside
    cases outside
  rw [← built.kept address before, stored]

/-- Every rule follows a definition of its name. -/
theorem follows_of_mem {rule : String × Address} (member : rule ∈ grammar.rules) :
    ∃ definition, (rule.1, definition) ∈ definitions ∧
      Scope.Follows ⟨final, bindings, grammar⟩ rule.2 definition := by
  have names : definitions.map (·.1) = grammar.rules.map (·.1) := by
    rw [built.rules_eq, List.zipIdx_map_fst]
  have follow := built.follow
  clear built
  generalize grammar.rules = rules at member names follow
  induction follow with
  | nil => cases member
  | @cons definition first definitions rest here _ ih =>
    obtain ⟨sameName, names⟩ := List.cons.inj names
    rcases List.mem_cons.mp member with rfl | member
    · exact ⟨definition.2, List.mem_cons.mpr (.inl (Prod.ext sameName.symm rfl)), here⟩
    · obtain ⟨found, among, follows⟩ := ih member names
      exact ⟨found, List.mem_cons_of_mem _ among, follows⟩

/-- What a look-up finds follows a definition of the name looked up. -/
theorem follows_of_find? {name : String} {address : Address} (found : grammar.find? name = some address) :
    ∃ definition, (name, definition) ∈ definitions ∧
      Scope.Follows ⟨final, bindings, grammar⟩ address definition :=
  built.follows_of_mem (mem_of_find? found)

/-- If names are distinct, a look-up finds the definition of the name looked up. -/
theorem follows_of_defined (distinct : (definitions.map (·.1)).Nodup) {name : String} {definition : Expression}
    {address : Address} (defined : (name, definition) ∈ definitions) (found : grammar.find? name = some address) :
    Scope.Follows ⟨final, bindings, grammar⟩ address definition := by
  obtain ⟨other, among, follows⟩ := built.follows_of_find? found
  obtain rfl : other = definition := by
    have same := List.inj_on_of_nodup_map distinct among defined rfl
    exact (Prod.mk.inj same).2
  exact follows

/-- Every name that is defined is found. -/
theorem find?_of_mem {name : String} {definition : Expression} (member : (name, definition) ∈ definitions) :
    ∃ address, grammar.find? name = some address := by
  rw [exists_find?_iff, names, built.rules_eq, List.zipIdx_map_fst]
  exact List.mem_map.mpr ⟨_, member, rfl⟩

/-- What is stored at known addresses and for rules is as it should be, if what was stored before and what definitions
stand for is, and refers to nothing else. -/
theorem bodies {good : Parser → Prop} {known : Address → Prop}
    (refers : ∀ address, good (.ref address) → known address ∨ grammar.owns address = true)
    (before : ∀ address body, known address → store.body? address = some body → good body)
    (each : ∀ definition ∈ definitions, ∀ tree,
      definition.2.StandsFor ⟨final, bindings, grammar⟩ tree → good tree)
    (address : Address) (body : Parser) (member : known address ∨ grammar.owns address = true)
    (stored : final.body? address = some body) : good body := by
  have old {address : Address} {body : Parser} (member : known address ∨ grammar.owns address = true)
      (outside : grammar.owns address = false) (stored : final.body? address = some body) : good body :=
    before address body (member.resolve_right (by rw [outside]; exact Bool.false_ne_true))
      (built.body?_of_outside outside stored)
  cases owned : grammar.owns address with
  | false => exact old member owned stored
  | true =>
    obtain ⟨rule, among, same⟩ := List.any_eq_true.mp owned
    obtain rfl := beq_iff_eq.mp same
    obtain ⟨definition, defined, tree, stands, follows⟩ := built.follows_of_mem among
    have made := each _ defined tree stands
    rcases follows with here | ⟨other, _, rfl, outside, there, here⟩
    · obtain rfl := Option.some.inj (stored.symm.trans here)
      exact made
    · obtain rfl := Option.some.inj (stored.symm.trans here)
      exact old (refers other made) outside there

end Built

/-- Nested lists of integers, under a name that is an alias of a rule defined later. -/
def nestedLists : List (String × Expression) :=
  [("Top", .rule "List" .member),
    ("List", .takeMid (.literal "[") (.sepBy (.rule "Item" .member) (.literal ",")) (.literal "]")),
    ("Item", .choice [.rule "Top" .item, .integer])]

theorem within_empty : Bindings.empty.Within .empty := by
  intro target address found
  cases target <;> cases found

end Grammar

end RecursiveDescent
