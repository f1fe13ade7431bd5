import Mathlib.Data.List.Nodup
import RecursiveDescent.Proofs.Completion

/-! # Grammars under construction

The definitions of a grammar are resolved one after another, each in a store where the rules before it do
what their definitions stand for, and the others are still placeholders. `Grammar.underway` is that scope,
`Grammar.Underway` what is known of it: one definition is a step from there to the next, and everything
about a whole build follows by induction on the number of its definitions.
-/

namespace RecursiveDescent

/-! ## Rules and what they are bound to -/

/-- Every bound parser and every rule of a bound grammar has its place in the store. -/
def Bindings.Within (bindings : Bindings) (store : Store) : Prop :=
  ∀ target address, bindings.address target = .ok address → address < store.cells.size

namespace Grammar

theorem mem_of_find? {grammar : Grammar} {name : String} {address : Address}
    (found : grammar.find? name = some address) : (name, address) ∈ grammar.rules := by
  obtain ⟨before, after, split, _⟩ := List.lookup_eq_some_iff.mp found
  simp [split]

/-- A look-up that finds a rule, of either kind, finds the one of that name. -/
theorem find?_of_access {grammar : Grammar} {access : Access} {name : String} {address : Address}
    (found : grammar.access access name = .ok (.rule address)) : grammar.find? name = some address := by
  cases access with
  | member =>
    simp only [Grammar.access, member] at found
    split_ifs at found
    · cases found
    · cases found
    · cases found
    · split at found
      · next same => cases found; exact same
      · cases found
  | item =>
    simp only [Grammar.access, item] at found
    split at found
    · next same => cases found; exact same
    · cases found

/-- Whether a look-up finds a rule depends on the rules of that name alone. -/
theorem access_of_find? {grammar other : Grammar} {access : Access} {name : String} {address moved : Address}
    (looked : grammar.access access name = .ok (.rule address)) (found : other.find? name = some moved) :
    other.access access name = .ok (.rule moved) := by
  cases access with
  | member =>
    simp only [Grammar.access, member] at looked ⊢
    split_ifs at looked ⊢
    · cases looked
    · cases looked
    · cases looked
    · rw [found]
  | item => simp only [Grammar.access, item, found]

/-- With distinct names, a look-up finds every rule. -/
theorem find?_eq_some_iff {grammar : Grammar} (distinct : grammar.names.Nodup) {name : String} {address : Address} :
    grammar.find? name = some address ↔ (name, address) ∈ grammar.rules := by
  refine ⟨mem_of_find?, fun member => ?_⟩
  obtain ⟨before, after, split⟩ := List.append_of_mem member
  refine List.lookup_eq_some_iff.mpr ⟨before, after, split, fun rule among => ?_⟩
  simp only [names, split, List.map_append, List.map_cons] at distinct
  have apart := (List.nodup_append.mp distinct).2.2 rule.1 (List.mem_map_of_mem among) name (List.mem_cons_self ..)
  simpa using apart.symm

/-- A look-up finds a rule if and only if there is one of that name. -/
theorem exists_find?_iff {grammar : Grammar} {name : String} :
    (∃ address, grammar.find? name = some address) ↔ name ∈ grammar.names := by
  constructor
  · rintro ⟨address, found⟩
    exact List.mem_map.mpr ⟨_, mem_of_find? found, rfl⟩
  · intro named
    obtain ⟨rule, among, rfl⟩ := List.mem_map.mp named
    rw [← Option.isSome_iff_exists, Option.isSome_iff_ne_none]
    intro missing
    simpa using List.lookup_eq_none_iff.mp missing rule among

theorem owns_of_mem {grammar : Grammar} {rule : String × Address} (member : rule ∈ grammar.rules) :
    grammar.owns rule.2 = true :=
  List.any_eq_true.mpr ⟨rule, member, beq_self_eq_true _⟩

theorem owns_of_find? {grammar : Grammar} {name : String} {address : Address}
    (found : grammar.find? name = some address) : grammar.owns address = true :=
  owns_of_mem (mem_of_find? found)

/-- Whatever a rule is looked up by, the grammar owns it. -/
theorem owns_of_access {grammar : Grammar} {access : Access} {name : String} {address : Address}
    (found : grammar.access access name = .ok (.rule address)) : grammar.owns address = true :=
  owns_of_find? (find?_of_access found)

/-- With distinct addresses, every rule is found by its address. -/
theorem find?_address_of_mem {grammar : Grammar} (distinct : (grammar.rules.map (·.2)).Nodup)
    {rule : String × Address} (member : rule ∈ grammar.rules) :
    grammar.rules.find? (·.2 == rule.2) = some rule := by
  cases found : grammar.rules.find? (·.2 == rule.2) with
  | none => simpa using List.find?_eq_none.mp found rule member
  | some other =>
    have same : other.2 = rule.2 := by simpa only [beq_iff_eq] using List.find?_some found
    rw [List.inj_on_of_nodup_map distinct (List.mem_of_find?_eq_some found) member same]

theorem find?_address_of_outside {grammar : Grammar} {address : Address} (outside : grammar.owns address = false) :
    grammar.rules.find? (·.2 == address) = none :=
  List.find?_eq_none.mpr (List.any_eq_false.mp outside)

end Grammar

/-- What exists already, if an expression stands for it, is bound outside or is a rule. -/
theorem Expression.bound_or_owned {scope : Scope} {expression : Expression} {other : Address}
    (stands : expression.StandsFor scope (.ref other)) :
    (∃ target, scope.bindings.address target = .ok other) ∨ scope.grammar.owns other = true := by
  induction expression with
  | existing target =>
    obtain ⟨address, found, same⟩ := standsFor_existing.mp stands
    cases same
    exact .inl ⟨target, found⟩
  | rule name access =>
    obtain ⟨member, found, same⟩ := standsFor_rule.mp stands
    cases member <;> cases same
    exact .inr (Grammar.owns_of_access found)
  | early name access source pos next ih => exact ih (standsFor_early.mp stands).2
  | _ => simp [Parser.whitespace, Parser.optional, Parser.takeMid] at stands

/-! ## Installing one definition -/

namespace Grammar

variable {grammar : Grammar} {bindings : Bindings}

/-- The body that an installation leaves in the place of a rule. -/
inductive Installs (grammar : Grammar) (store : Store) : Resolved → Parser → Prop
  | fresh (name : Option String) (body : Parser) : Installs grammar store (.fresh name body) body
  | refer {other : Address} (owned : grammar.owns other = true) :
      Installs grammar store (.existing other) (.ref other)
  | copy {other : Address} {body : Parser} (outside : grammar.owns other = false)
      (stored : store.body? other = some body) : Installs grammar store (.existing other) body

/-- One installation changes the body at one address, and nothing else that can be seen. -/
theorem installRule_spec {store next : Store} {name : String} {address : Address} {resolved : Resolved}
    (allocated : address < store.cells.size)
    (known : ∀ other, resolved = .existing other → other < store.cells.size)
    (installed : (installRule grammar store name address resolved).outcome = .value next) :
    ∃ body, Installs grammar store resolved body ∧ next.cells.size = store.cells.size ∧
      (∀ other, next.name other = store.name other) ∧
      ∀ other, next.body? other = if address = other then some body else store.body? other := by
  cases resolved with
  | foreign kind => cases installed
  | fresh label body =>
    cases installed
    exact ⟨body, .fresh label body, store.installFresh_size body, fun _ => store.installFresh_name body,
      store.installFresh_body? allocated body⟩
  | existing other =>
    simp only [installRule] at installed
    split at installed
    · next owned =>
      cases installed
      exact ⟨.ref other, .refer owned, store.installFresh_size _, fun _ => store.installFresh_name _,
        store.installFresh_body? allocated _⟩
    · next outside =>
      cases installed
      obtain ⟨body, stored⟩ := store.body?_isSome (known other rfl)
      exact ⟨body, .copy (Bool.eq_false_iff.mpr outside) stored, store.installCopy_size _,
        fun _ => store.installCopy_name _, store.installCopy_body? allocated stored⟩

end Grammar

/-- What is installed for a rule whose definition stands for a tree. A reference to a rule of the same grammar
stays one; of any other parser that exists already, a copy is made. -/
def Scope.installed? (scope : Scope) : Parser → Option Parser
  | .ref other => if scope.grammar.owns other then some (.ref other) else scope.store.body? other
  | .foreign _ => none
  | tree => some tree

/-- A stored parser does what was installed for a definition. -/
def Scope.Installed (scope : Scope) (address : Address) (definition : Expression) : Prop :=
  ∃ tree body, definition.StandsFor scope tree ∧ scope.installed? tree = some body ∧
    scope.store.body? address = some body

/-- One definition: what it stands for in a scope is installed at the address of its rule. -/
def Scope.define (scope : Scope) (definition : String × Expression) (address : Address) : Run Scope := do
  let resolved ← definition.2.resolve scope
  let store ← Grammar.installRule scope.grammar scope.store definition.1 address resolved
  return { scope with store }

namespace Scope

variable {scope next : Scope} {address other : Address} {definition : Expression}

/-- What was installed for a definition is still there after a change at the address of another rule. -/
theorem Installed.later (installed : scope.Installed other definition)
    (completes : next.Completes (fun _ => False) scope) (owned : scope.grammar.owns address = true)
    (apart : other ≠ address)
    (frame : ∀ other, other ≠ address → next.store.body? other = scope.store.body? other) :
    next.Installed other definition := by
  obtain ⟨tree, body, stands, made, stored⟩ := installed
  refine ⟨tree, body, ?_, ?_, (frame other apart).trans stored⟩
  · obtain ⟨resolved, resolves, used⟩ := Run.bind_outcome.mp stands
    refine Run.bind_outcome.mpr ⟨resolved, ?_, used⟩
    rw [Expression.resolve_extends completes definition (Run.settled_of_value resolves), resolves]
  · cases tree with
    | ref target =>
      simp only [installed?, completes.grammar_eq] at made ⊢
      split at made
      · next owns => rwa [if_pos owns]
      · next outside =>
        rw [if_neg outside, frame target fun same => outside (same ▸ owned)]
        exact made
    | _ => exact made

/-- A definition changes the body of its rule to what is installed for it, and nothing else. -/
theorem define_spec {rule : String × Expression} {label : String}
    (placeholder : scope.store.body? address = some (.unpatched label))
    (owned : scope.grammar.owns address = true) (within : scope.bindings.Within scope.store)
    (allocated : ∀ other, scope.grammar.owns other = true → other < scope.store.cells.size)
    (defined : (scope.define rule address).outcome = .value next) :
    next.Completes (fun _ => False) scope ∧ next.Installed address rule.2 ∧
      ∀ other, other ≠ address → next.store.body? other = scope.store.body? other := by
  simp only [define, Run.bind_outcome, Run.pure_outcome, Outcome.value.injEq] at defined
  obtain ⟨resolved, resolves, store, changed, rfl⟩ := defined
  have known (other : Address) (same : resolved = .existing other) : other < scope.store.cells.size := by
    subst same
    have stands : rule.2.StandsFor scope (.ref other) :=
      Expression.standsFor_iff_resolve.mpr ⟨_, resolves, rfl⟩
    rcases Expression.bound_or_owned stands with ⟨target, bound⟩ | owns
    · exact within target other bound
    · exact allocated other owns
  obtain ⟨body, installs, size, names, bodies⟩ :=
    Grammar.installRule_spec (Store.body?_of_lt placeholder) known changed
  have frame (other : Address) (apart : other ≠ address) : store.body? other = scope.store.body? other := by
    rw [bodies, if_neg fun same => apart same.symm]
  have completes : Scope.Completes (fun _ => False) { scope with store } scope := by
    refine ⟨fun other tree stored => ?_, size, names, rfl, rfl⟩
    by_cases here : other = address
    · subst here
      exact .inl ⟨label, Option.some.inj (stored.symm.trans placeholder), id⟩
    · exact .inr ((frame other here).trans stored)
  have still : (rule.2.resolve { scope with store }).outcome = .value resolved := by
    rw [Expression.resolve_extends completes rule.2 (Run.settled_of_value resolves), resolves]
  have here : store.body? address = some body := by rw [bodies, if_pos rfl]
  refine ⟨completes, ?_, frame⟩
  cases installs with
  | fresh tag body =>
    refine ⟨body, body, Expression.standsFor_iff_resolve.mpr ⟨_, still, rfl⟩, ?_, here⟩
    cases body with
    | ref _ | foreign _ => exact (Expression.fresh_isNode still).elim
    | _ => rfl
  | @refer other owns =>
    exact ⟨_, _, Expression.standsFor_iff_resolve.mpr ⟨_, still, rfl⟩, if_pos owns, here⟩
  | @copy other body outside stored =>
    have apart : other ≠ address := by
      rintro rfl
      rw [owned] at outside
      cases outside
    refine ⟨_, body, Expression.standsFor_iff_resolve.mpr ⟨_, still, rfl⟩, ?_, here⟩
    simp only [Resolved.tree, installed?, outside, Bool.false_eq_true, if_false]
    exact (frame other apart).trans stored

/-- What stands for a parser can be installed. -/
theorem exists_define {rule : String × Expression} {tree : Parser} (stands : rule.2.StandsFor scope tree)
    (parser : ∀ kind, tree ≠ .foreign kind) (address : Address) :
    ∃ next, (scope.define rule address).outcome = .value next := by
  obtain ⟨resolved, resolves, rfl⟩ := Expression.standsFor_iff_resolve.mp stands
  obtain ⟨store, installed⟩ :
      ∃ store, (Grammar.installRule scope.grammar scope.store rule.1 address resolved).outcome = .value store := by
    cases resolved with
    | existing other =>
      simp only [Grammar.installRule]
      split <;> exact ⟨_, rfl⟩
    | fresh label body => exact ⟨_, rfl⟩
    | foreign kind => exact (parser kind rfl).elim
  exact ⟨{ scope with store }, Run.bind_outcome.mpr ⟨_, resolves, Run.bind_outcome.mpr ⟨_, installed, rfl⟩⟩⟩

end Scope

/-! ## Installing definitions in order -/

namespace Grammar

variable {bindings : Bindings} {store : Store} {definitions : List (String × Expression)}

/-- The scope in which a definition is resolved, after the `count` definitions before it have been installed. -/
def underway (bindings : Bindings) (store : Store) (definitions : List (String × Expression)) (count : Nat) :
    Run Scope := do
  let (reserved, rules) := reserve (definitions.map (·.1)) store
  let current ← installRules bindings ⟨rules⟩ (definitions.take count) rules reserved
  return ⟨current, bindings, ⟨rules⟩⟩

/-- The scope of a grammar of which so many definitions have been installed. The rules have the addresses after
those of the store before, what was stored there is as it was, each rule with an installed definition does
what that stands for, and every other rule is a placeholder. -/
structure Underway (bindings : Bindings) (store : Store) (definitions : List (String × Expression)) (count : Nat)
    (scope : Scope) : Prop where
  bindings_eq : scope.bindings = bindings
  rules_eq : scope.grammar.rules = (definitions.map (·.1)).zipIdx store.cells.size
  size_eq : scope.store.cells.size = store.cells.size + definitions.length
  kept : ∀ address, address < store.cells.size → scope.store.body? address = store.body? address
  installed : ∀ {index definition}, index < count → definitions[index]? = some definition →
    scope.Installed (store.cells.size + index) definition.2
  waiting : ∀ {index definition}, count ≤ index → definitions[index]? = some definition →
    scope.store.body? (store.cells.size + index) = some (.unpatched definition.1)

/-- Among the rules of consecutive addresses, those addresses and no others are owned. -/
theorem owns_zipIdx {names : List String} {first address : Address} :
    owns ⟨names.zipIdx first⟩ address = true ↔ first ≤ address ∧ address < first + names.length := by
  simp only [owns, List.any_eq_true, beq_iff_eq]
  constructor
  · rintro ⟨⟨name, index⟩, member, rfl⟩
    exact ⟨List.le_snd_of_mem_zipIdx member, List.snd_lt_add_of_mem_zipIdx member⟩
  · rintro ⟨le, lt⟩
    have inside : address - first < names.length := Nat.sub_lt_left_of_lt_add le lt
    refine ⟨(names[address - first], address), ?_, rfl⟩
    rw [List.mem_zipIdx_iff_le_and_getElem?_sub]
    exact ⟨le, List.getElem?_eq_getElem inside⟩

namespace Underway

variable {count : Nat} {scope : Scope} (underway : Underway bindings store definitions count scope)
include underway

/-- The rules of the grammar have the addresses that were added. -/
theorem owns_iff {address : Address} :
    scope.grammar.owns address = true ↔ store.cells.size ≤ address ∧ address < scope.store.cells.size := by
  have owns : scope.grammar.owns address = owns ⟨scope.grammar.rules⟩ address := rfl
  rw [owns, underway.rules_eq, owns_zipIdx, underway.size_eq, List.length_map]

theorem outside_of_lt {address : Address} (before : address < store.cells.size) :
    scope.grammar.owns address = false := by
  rw [Bool.eq_false_iff]
  exact fun owned => Nat.not_lt.mpr (underway.owns_iff.mp owned).1 before

theorem within (bound : bindings.Within store) : scope.bindings.Within scope.store := by
  intro target address found
  rw [underway.bindings_eq] at found
  rw [underway.size_eq]
  exact Nat.lt_add_right _ (bound target address found)

/-- One more definition. -/
theorem next (within : bindings.Within store) {definition : String × Expression} {later : Scope}
    (here : definitions[count]? = some definition)
    (defined : (scope.define definition (store.cells.size + count)).outcome = .value later) :
    later.Completes (fun _ => False) scope ∧ Underway bindings store definitions (count + 1) later := by
  have placeholder := underway.waiting (Nat.le_refl count) here
  have owned : scope.grammar.owns (store.cells.size + count) = true :=
    underway.owns_iff.mpr ⟨Nat.le_add_right _ _, Store.body?_of_lt placeholder⟩
  obtain ⟨completes, installed, frame⟩ := Scope.define_spec placeholder owned (underway.within within)
    (fun other owns => (underway.owns_iff.mp owns).2) defined
  refine ⟨completes, completes.bindings_eq.trans underway.bindings_eq, ?_, completes.size_eq.trans underway.size_eq,
    fun address before => ?_, fun {index other} before among => ?_, fun {index other} after among => ?_⟩
  · rw [completes.grammar_eq, underway.rules_eq]
  · rw [frame address (Nat.ne_of_lt (Nat.lt_add_right _ before)), underway.kept address before]
  · rcases Nat.lt_or_eq_of_le (Nat.le_of_lt_succ before) with before | rfl
    · have apart := Nat.ne_of_lt (Nat.add_lt_add_left before store.cells.size)
      exact (underway.installed before among).later completes owned apart frame
    · obtain rfl := Option.some.inj (here.symm.trans among)
      exact installed
  · rw [frame _ (Nat.ne_of_gt (Nat.add_lt_add_left after _))]
    exact underway.waiting (Nat.le_of_succ_le after) among

end Underway

/-! ## Runs of definitions -/

/-- The definitions up to the last, and then the last. -/
theorem installRules_take_succ {grammar : Grammar} {rules : List (String × Address)} {count : Nat}
    {definition : String × Expression} {rule : String × Address} (here : definitions[count]? = some definition)
    (there : rules[count]? = some rule) :
    installRules bindings grammar (definitions.take (count + 1)) rules store =
      (do let store ← installRules bindings grammar (definitions.take count) rules store
          let resolved ← definition.2.resolve ⟨store, bindings, grammar⟩
          installRule grammar store definition.1 rule.2 resolved) := by
  induction count generalizing definitions rules store with
  | zero =>
    cases definitions with
    | nil => cases here
    | cons first definitions =>
      cases rules with
      | nil => cases there
      | cons other rules =>
        cases here
        cases there
        simp only [List.take_succ_cons, List.take_zero, installRules, pure_bind, bind_pure]
  | succ count ih =>
    cases definitions with
    | nil => cases here
    | cons first definitions =>
      cases rules with
      | nil => cases there
      | cons other rules =>
        simp only [List.getElem?_cons_succ] at here there
        simp only [List.take_succ_cons, installRules, ih here there, bind_assoc]

/-- One definition more is one step more. -/
theorem underway_succ {count : Nat} {definition : String × Expression}
    (here : definitions[count]? = some definition) :
    underway bindings store definitions (count + 1) =
      underway bindings store definitions count >>= fun scope =>
        scope.define definition (store.cells.size + count) := by
  have there : (reserve (definitions.map (·.1)) store).2[count]? =
      some (definition.1, store.cells.size + count) := by
    rw [reserve_rules, List.getElem?_zipIdx, List.getElem?_map, here]
    rfl
  simp only [underway, installRules_take_succ here there, bind_assoc, pure_bind, Scope.define]

theorem underway_zero (bindings : Bindings) (store : Store) (definitions : List (String × Expression)) :
    Underway bindings store definitions 0
      ⟨(reserve (definitions.map (·.1)) store).1, bindings, ⟨(reserve (definitions.map (·.1)) store).2⟩⟩ where
  bindings_eq := rfl
  rules_eq := reserve_rules _ store
  size_eq := by rw [reserve_size, List.length_map]
  kept _ before := reserve_body? _ store before
  installed before := absurd before (Nat.not_lt_zero _)
  waiting {index definition} _ here := by
    have reserved : (definition.1, store.cells.size + index) ∈ (definitions.map (·.1)).zipIdx store.cells.size := by
      rw [List.mem_zipIdx_iff_le_and_getElem?_sub, Nat.add_sub_cancel_left, List.getElem?_map, here]
      exact ⟨Nat.le_add_right _ _, rfl⟩
    exact reserve_placeholder _ store reserved

/-- Whatever definitions were installed, the scope is as it should be. -/
theorem underway_spec (within : bindings.Within store) {count : Nat} (le : count ≤ definitions.length) {scope : Scope}
    (answered : (underway bindings store definitions count).outcome = .value scope) :
    Underway bindings store definitions count scope := by
  induction count generalizing scope with
  | zero =>
    cases answered
    exact underway_zero bindings store definitions
  | succ count ih =>
    have here := List.getElem?_eq_getElem (Nat.lt_of_succ_le le)
    rw [underway_succ here] at answered
    obtain ⟨middle, before, defined⟩ := Run.bind_outcome.mp answered
    exact ((ih (Nat.le_of_succ_le le) before).next within here defined).2

/-- The scopes in which definitions are resolved, one after another, complete each other. -/
theorem exists_underway (within : bindings.Within store) {count more : Nat} (le : count ≤ more)
    (all : more ≤ definitions.length) {later : Scope}
    (answered : (underway bindings store definitions more).outcome = .value later) :
    ∃ scope, (underway bindings store definitions count).outcome = .value scope ∧
      later.Completes (fun _ => False) scope := by
  induction le generalizing later with
  | refl => exact ⟨later, answered, later.completes_refl⟩
  | @step more le ih =>
    have here := List.getElem?_eq_getElem (Nat.lt_of_succ_le all)
    rw [underway_succ here] at answered
    obtain ⟨middle, before, defined⟩ := Run.bind_outcome.mp answered
    obtain ⟨scope, reached, completes⟩ := ih (Nat.le_of_succ_le all) before
    have step := (underway_spec within (Nat.le_of_succ_le all) before).next within here defined
    exact ⟨scope, reached, step.1.trans completes⟩

/-- If every definition stands for a parser in its turn, all can be installed. -/
theorem exists_underway_of_standsFor
    (stand : ∀ {index definition scope}, definitions[index]? = some definition →
      (underway bindings store definitions index).outcome = .value scope →
        ∃ tree, definition.2.StandsFor scope tree ∧ ∀ kind, tree ≠ .foreign kind)
    {count : Nat} (le : count ≤ definitions.length) :
    ∃ scope, (underway bindings store definitions count).outcome = .value scope := by
  induction count with
  | zero => exact ⟨_, rfl⟩
  | succ count ih =>
    have here := List.getElem?_eq_getElem (Nat.lt_of_succ_le le)
    obtain ⟨scope, reached⟩ := ih (Nat.le_of_succ_le le)
    obtain ⟨tree, stands, parser⟩ := stand here reached
    obtain ⟨next, defined⟩ := Scope.exists_define stands parser (store.cells.size + count)
    refine ⟨next, ?_⟩
    rw [underway_succ here, Run.bind_outcome]
    exact ⟨scope, reached, defined⟩

/-- A fault is that of one definition, in the scope that the definitions before it lead to. -/
theorem exists_define_of_fault {count : Nat} (le : count ≤ definitions.length) {cause : Fault}
    (stopped : (underway bindings store definitions count).outcome = .fault cause) :
    ∃ index definition scope, definitions[index]? = some definition ∧
      (underway bindings store definitions index).outcome = .value scope ∧
      (scope.define definition (store.cells.size + index)).outcome = .fault cause := by
  induction count with
  | zero => cases stopped
  | succ count ih =>
    have here := List.getElem?_eq_getElem (Nat.lt_of_succ_le le)
    rw [underway_succ here] at stopped
    rcases Run.bind_fault.mp stopped with stopped | ⟨scope, reached, stopped⟩
    · exact ih (Nat.le_of_succ_le le) stopped
    · exact ⟨count, _, scope, here, reached, stopped⟩

/-- To build a grammar is to install all of its definitions, and to log the beginning and the end. -/
theorem build_eq (bindings : Bindings) (store : Store) (definitions : List (String × Expression)) :
    build bindings store definitions =
      Run.emit (.logged (.buildingGrammar definitions.length)) >>= fun _ =>
        underway bindings store definitions definitions.length >>= fun scope =>
          Run.emit (.logged (.grammarReady scope.grammar.names)) >>= fun _ => pure (scope.store, scope.grammar) := by
  simp only [build, underway, List.take_length, bind_assoc, pure_bind]

theorem bindings_of_underway {count : Nat} {scope : Scope}
    (answered : (underway bindings store definitions count).outcome = .value scope) : scope.bindings = bindings := by
  obtain ⟨current, _, made⟩ := Run.bind_outcome.mp answered
  cases made
  rfl

theorem names_of_underway {count : Nat} {scope : Scope}
    (answered : (underway bindings store definitions count).outcome = .value scope) :
    scope.grammar.names = definitions.map (·.1) := by
  obtain ⟨current, _, made⟩ := Run.bind_outcome.mp answered
  cases made
  exact reserve_names _ store

/-- A build succeeds if all definitions can be installed. -/
theorem build_outcome {final : Store} {grammar : Grammar} :
    (build bindings store definitions).outcome = .value (final, grammar) ↔
      (underway bindings store definitions definitions.length).outcome = .value ⟨final, bindings, grammar⟩ := by
  rw [build_eq]
  simp only [Run.bind_outcome, Run.pure_outcome, Outcome.value.injEq, Prod.mk.injEq]
  constructor
  · rintro ⟨_, _, scope, answered, _, _, rfl, rfl⟩
    obtain rfl := bindings_of_underway answered
    exact answered
  · intro answered
    exact ⟨(), rfl, _, answered, (), rfl, rfl, rfl⟩

/-- A build stops with a fault if a definition cannot be installed. -/
theorem build_fault {cause : Fault} (stopped : (build bindings store definitions).outcome = .fault cause) :
    (underway bindings store definitions definitions.length).outcome = .fault cause := by
  rw [build_eq] at stopped
  rcases Run.bind_fault.mp stopped with stopped | ⟨_, _, stopped⟩
  · cases stopped
  · rcases Run.bind_fault.mp stopped with stopped | ⟨_, _, stopped⟩
    · exact stopped
    · cases stopped

end Grammar

end RecursiveDescent
