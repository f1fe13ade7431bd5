import RecursiveDescent.Proofs.Renaming
import RecursiveDescent.Proofs.Sessions

/-! # The order of definitions

Two grammars with the same definitions in different order have their rules at different addresses, and that is all
the difference between them. Whatever a quiet definition stands for in the one, it stands for in the other up to
these addresses, before and after the placeholders are replaced. So the one can be built if and only if the other
can, and their rules parse alike.
-/

namespace RecursiveDescent

namespace Grammar

/-- The address at which another grammar has the rule that is at an address, if it is a rule. -/
def counterpart (grammar other : Grammar) (address : Address) : Address :=
  match grammar.rules.find? (·.2 == address) with
  | some rule => (other.find? rule.1).getD address
  | none => address

theorem counterpart_of_outside {grammar : Grammar} {address : Address} (outside : grammar.owns address = false)
    (other : Grammar) : grammar.counterpart other address = address := by
  simp only [counterpart, find?_address_of_outside outside]

namespace Underway

variable {bindings : Bindings} {store : Store} {definitions permuted : List (String × Expression)} {count more : Nat}
  {scope other : Scope} (underway : Underway bindings store definitions count scope)
include underway

theorem names_eq : scope.grammar.names = definitions.map (·.1) := by
  rw [names, underway.rules_eq, List.zipIdx_map_fst]

/-- The rules have their addresses in the order of their definitions. -/
theorem mem_rules_iff {name : String} {address : Address} :
    (name, address) ∈ scope.grammar.rules ↔
      ∃ index definition, definitions[index]? = some definition ∧ definition.1 = name ∧
        address = store.cells.size + index := by
  rw [underway.rules_eq, List.mem_zipIdx_iff_le_and_getElem?_sub, List.getElem?_map]
  constructor
  · rintro ⟨le, there⟩
    obtain ⟨definition, here, rfl⟩ := Option.map_eq_some_iff.mp there
    exact ⟨address - store.cells.size, definition, here, rfl, (Nat.add_sub_cancel' le).symm⟩
  · rintro ⟨index, definition, here, rfl, rfl⟩
    exact ⟨Nat.le_add_right _ _, by rw [Nat.add_sub_cancel_left, here, Option.map_some]⟩

/-- A definition is found under its name. -/
theorem find?_of_getElem? (distinct : (definitions.map (·.1)).Nodup) {index : Nat} {definition : String × Expression}
    (here : definitions[index]? = some definition) :
    scope.grammar.find? definition.1 = some (store.cells.size + index) :=
  (find?_eq_some_iff (underway.names_eq ▸ distinct)).mpr
    (underway.mem_rules_iff.mpr ⟨index, definition, here, rfl, rfl⟩)

variable (others : Underway bindings store permuted more other) (perm : definitions.Perm permuted)
  (distinct : (definitions.map (·.1)).Nodup)
include others perm distinct

/-- The rule of a definition has as its counterpart the rule of the same definition. -/
theorem counterpart_of_getElem? {index : Nat} {definition : String × Expression}
    (here : definitions[index]? = some definition) :
    ∃ place, permuted[place]? = some definition ∧
      scope.grammar.counterpart other.grammar (store.cells.size + index) = store.cells.size + place := by
  obtain ⟨place, there⟩ := List.mem_iff_getElem?.mp (perm.mem_iff.mp (List.mem_of_getElem? here))
  have found := others.find?_of_getElem? ((perm.map _).nodup_iff.mp distinct) there
  have addresses : (scope.grammar.rules.map (·.2)).Nodup := by
    rw [underway.rules_eq, List.zipIdx_map_snd]
    exact List.nodup_range'
  have looked := find?_address_of_mem addresses (underway.mem_rules_iff.mpr ⟨index, definition, here, rfl, rfl⟩)
  exact ⟨place, there, by simp only [counterpart, looked, found, Option.getD_some]⟩

/-- What a look-up finds in the one grammar, it finds in the other as the counterpart. -/
theorem find?_counterpart {name : String} {address : Address} (found : scope.grammar.find? name = some address) :
    other.grammar.find? name = some (scope.grammar.counterpart other.grammar address) := by
  obtain ⟨index, definition, here, rfl, rfl⟩ := underway.mem_rules_iff.mp (mem_of_find? found)
  obtain ⟨place, there, moved⟩ := underway.counterpart_of_getElem? others perm distinct here
  rw [moved]
  exact others.find?_of_getElem? ((perm.map _).nodup_iff.mp distinct) there

/-- Counterparts of rules are rules, and those of other parsers are not. -/
theorem owns_counterpart (address : Address) :
    other.grammar.owns (scope.grammar.counterpart other.grammar address) = scope.grammar.owns address := by
  have size_eq : other.store.cells.size = scope.store.cells.size := by
    rw [others.size_eq, underway.size_eq, perm.length_eq]
  cases owned : scope.grammar.owns address with
  | true =>
    obtain ⟨rule, member, same⟩ := List.any_eq_true.mp owned
    obtain ⟨index, definition, here, _, place⟩ := underway.mem_rules_iff.mp member
    obtain rfl : address = store.cells.size + index := (beq_iff_eq.mp same).symm.trans place
    have found := underway.find?_of_getElem? distinct here
    exact owns_of_mem (mem_of_find? (underway.find?_counterpart others perm distinct found))
  | false =>
    rw [counterpart_of_outside owned, Bool.eq_false_iff]
    intro foreign
    have inside := others.owns_iff.mp foreign
    rw [underway.owns_iff.mpr ⟨inside.1, size_eq ▸ inside.2⟩] at owned
    cases owned

/-- What a quiet expression stands for in the one scope, it stands for in the other up to the addresses of rules. -/
theorem standsFor_counterpart (within : bindings.Within store) {expression : Expression} {tree : Parser}
    (stands : expression.StandsFor scope tree) (quiet : expression.Quiet) :
    expression.StandsFor other (tree.rename (scope.grammar.counterpart other.grammar)) := by
  refine stands.rename quiet (fun target address found => ?_) fun access name address found => ?_
  · rw [underway.bindings_eq] at found
    rw [others.bindings_eq, counterpart_of_outside (underway.outside_of_lt (within target address found)), found]
  · exact access_of_find? found (underway.find?_counterpart others perm distinct (find?_of_access found))

end Underway

/-- If the quiet definitions of one grammar can all be installed, so can the same in another order. -/
theorem exists_build_of_perm {bindings : Bindings} {store final : Store} {grammar : Grammar}
    {definitions permuted : List (String × Expression)} (within : bindings.Within store)
    (perm : definitions.Perm permuted) (distinct : (definitions.map (·.1)).Nodup)
    (quiet : ∀ definition ∈ definitions, definition.2.Quiet)
    (success : (build bindings store definitions).outcome = .value (final, grammar)) :
    ∃ final grammar, (build bindings store permuted).outcome = .value (final, grammar) := by
  have underway := underway_of_build within success
  have stand {place : Nat} {definition : String × Expression} {scope : Scope}
      (here : permuted[place]? = some definition)
      (reached : (Grammar.underway bindings store permuted place).outcome = .value scope) :
      ∃ tree, definition.2.StandsFor scope tree ∧ ∀ kind, tree ≠ .foreign kind := by
    have le : place ≤ permuted.length := Nat.le_of_lt (List.getElem?_eq_some_iff.mp here).1
    have member := perm.mem_iff.mpr (List.mem_of_getElem? here)
    obtain ⟨index, there⟩ := List.mem_iff_getElem?.mp member
    obtain ⟨tree, _, stands, installed, _⟩ := underway.installed (List.getElem?_eq_some_iff.mp there).1 there
    refine ⟨_, underway.standsFor_counterpart (underway_spec within le reached) perm distinct within stands
      (quiet definition member), Parser.rename_ne_foreign ?_⟩
    rintro kind rfl
    cases installed
  obtain ⟨⟨final, other, grammar⟩, answered⟩ := exists_underway_of_standsFor stand (Nat.le_refl _)
  obtain rfl : other = bindings := bindings_of_underway answered
  exact ⟨final, grammar, build_outcome.mpr answered⟩

/-- What is installed for a renamed tree is what is installed for the tree, renamed. -/
theorem installed?_rename {scope other : Scope} {move : Address → Address}
    (owns : ∀ address, other.grammar.owns (move address) = scope.grammar.owns address)
    (bodies : ∀ address, scope.grammar.owns address = false →
      other.store.body? (move address) = (scope.store.body? address).map (Parser.rename move)) (tree : Parser) :
    other.installed? (tree.rename move) = (scope.installed? tree).map (Parser.rename move) := by
  cases tree with
  | ref address =>
    simp only [Parser.rename, Scope.installed?, owns]
    split
    · rfl
    · next outside => exact bodies address (Bool.eq_false_iff.mpr outside)
  | _ => rfl

/-- The parsers of two grammars with the same quiet definitions differ in the addresses of the rules alone. -/
theorem renamed_of_perm {bindings : Bindings} {store : Store} {definitions permuted : List (String × Expression)}
    {scope other : Scope} (underway : Underway bindings store definitions definitions.length scope)
    (others : Underway bindings store permuted permuted.length other) (perm : definitions.Perm permuted)
    (distinct : (definitions.map (·.1)).Nodup) (within : bindings.Within store)
    (closed : store.Closed (fun _ => True) fun _ => False) (quiet : ∀ definition ∈ definitions, definition.2.Quiet) :
    scope.store.Renamed (scope.grammar.counterpart other.grammar) other.store := by
  have size_eq : other.store.cells.size = scope.store.cells.size := by
    rw [others.size_eq, underway.size_eq, perm.length_eq]
  -- what is outside of the grammar is older than the grammar, and refers to nothing in it
  have bodies (address : Address) (foreign : scope.grammar.owns address = false) :
      other.store.body? (scope.grammar.counterpart other.grammar address) =
        (scope.store.body? address).map (Parser.rename (scope.grammar.counterpart other.grammar)) := by
    rw [counterpart_of_outside foreign]
    rcases Nat.lt_or_ge address store.cells.size with before | after
    · rw [others.kept address before, underway.kept address before]
      cases stored : store.body? address with
      | none => rfl
      | some body =>
        have fixed (target : Address) (inside : target < store.cells.size) :
            scope.grammar.counterpart other.grammar target = target :=
          counterpart_of_outside (underway.outside_of_lt inside) _
        rw [Option.map_some, (closed address body before stored).rename_eq fixed]
    · have beyond : scope.store.cells.size ≤ address := by
        by_contra inside
        rw [underway.owns_iff.mpr ⟨after, Nat.not_le.mp inside⟩] at foreign
        cases foreign
      rw [Store.body?_of_ge beyond, Store.body?_of_ge (size_eq ▸ beyond), Option.map_none]
  intro address
  cases owned : scope.grammar.owns address with
  | false => exact bodies address owned
  | true =>
    obtain ⟨after, inside⟩ := underway.owns_iff.mp owned
    obtain ⟨index, rfl⟩ := Nat.exists_eq_add_of_le after
    have among : index < definitions.length := Nat.lt_of_add_lt_add_left (underway.size_eq ▸ inside)
    have here := List.getElem?_eq_getElem among
    obtain ⟨place, there, moved⟩ := underway.counterpart_of_getElem? others perm distinct here
    obtain ⟨tree, body, stands, made, stored⟩ := underway.installed among here
    obtain ⟨second, copy, follows, remade, placed⟩ := others.installed (List.getElem?_eq_some_iff.mp there).1 there
    have renamed := underway.standsFor_counterpart others perm distinct within stands
      (quiet _ (List.getElem_mem among))
    obtain rfl := Outcome.value.inj (follows.symm.trans renamed)
    have owns := underway.owns_counterpart others perm distinct
    rw [moved, placed, stored, Option.map_some, ← remade, installed?_rename owns bodies, made, Option.map_some]

/-- The order in which the rules of a grammar are defined does not matter, if no definition asks for an early parse.
With the same definitions in another order, the grammar can be built if and only if it can be built with the given
one. Each of its rules is then run in the same way on every source, and has the same parses. -/
theorem definition_order_irrelevant {session : Session} (reachable : session.Reachable fun _ => True)
    {definitions permuted : List (String × Expression)} (perm : definitions.Perm permuted)
    (distinct : (definitions.map (·.1)).Nodup) (quiet : ∀ definition ∈ definitions, definition.2.Quiet) :
    ((∃ built, (build session.bindings session.store definitions).outcome = .value built) ↔
        ∃ built, (build session.bindings session.store permuted).outcome = .value built) ∧
      ∀ final grammar final' grammar',
        (build session.bindings session.store definitions).outcome = .value (final, grammar) →
        (build session.bindings session.store permuted).outcome = .value (final', grammar') →
        ∀ definition ∈ definitions, ∃ address address',
          grammar.find? definition.1 = some address ∧ grammar'.find? definition.1 = some address' ∧
          (∀ mode source, final'.run mode (.ref address') source = final.run mode (.ref address) source) ∧
          ∀ source pos run,
            final'.Parses (.ref address') source pos run ↔ final.Parses (.ref address) source pos run := by
  have sound := (reachable.mono fun step _ => step.applies_all).sound trivial
  have within := sound.within
  have distinct' : (permuted.map (·.1)).Nodup := (perm.map _).nodup_iff.mp distinct
  have quiet' : ∀ definition ∈ permuted, definition.2.Quiet :=
    fun definition member => quiet definition (perm.mem_iff.mpr member)
  refine ⟨⟨?_, ?_⟩, fun final grammar final' grammar' success success' definition member => ?_⟩
  · rintro ⟨⟨final, grammar⟩, success⟩
    obtain ⟨final, grammar, success⟩ := exists_build_of_perm within perm distinct quiet success
    exact ⟨(final, grammar), success⟩
  · rintro ⟨⟨final, grammar⟩, success⟩
    obtain ⟨final, grammar, success⟩ := exists_build_of_perm within perm.symm distinct' quiet' success
    exact ⟨(final, grammar), success⟩
  · have underway := underway_of_build within success
    have others := underway_of_build within success'
    have renamed := renamed_of_perm underway others perm distinct within sound.closed quiet
    have size_eq : final'.cells.size = final.cells.size := by
      rw [others.size_eq, underway.size_eq, perm.length_eq]
    obtain ⟨index, here⟩ := List.mem_iff_getElem?.mp member
    have found := underway.find?_of_getElem? distinct here
    exact ⟨_, _, found, underway.find?_counterpart others perm distinct found, renamed.run_eq size_eq _,
      renamed.parses_iff _⟩

/-- Nested lists parse the same with their rules defined backwards, also under the alias, which then comes last. -/
theorem nestedLists_reversed : ∃ (final : Store) (grammar : Grammar) (final' : Store) (grammar' : Grammar)
    (address address' : Address),
    (build .empty .empty nestedLists).outcome = .value (final, grammar) ∧
      (build .empty .empty nestedLists.reverse).outcome = .value (final', grammar') ∧
      grammar.find? "Top" = some address ∧ grammar'.find? "Top" = some address' ∧
      ∀ source pos run, final'.Parses (.ref address') source pos run ↔ final.Parses (.ref address) source pos run := by
  have perm : nestedLists.Perm nestedLists.reverse := (List.reverse_perm _).symm
  have quiet : ∀ definition ∈ nestedLists, definition.2.Quiet := by
    intro definition member
    have plain : definition.2.Applies (fun _ => True) ∧ definition.2.Quiet := nestedLists_plain member
    exact plain.2
  obtain ⟨final, grammar, success⟩ :
      ∃ final grammar, (build .empty .empty nestedLists).outcome = .value (final, grammar) := ⟨_, _, rfl⟩
  obtain ⟨⟨built, _⟩, agree⟩ := definition_order_irrelevant .empty perm (by decide) quiet
  obtain ⟨⟨final', grammar'⟩, success'⟩ := built ⟨_, success⟩
  obtain ⟨address, address', found, found', _, parses⟩ :=
    agree final grammar final' grammar' success success' ("Top", .rule "List" .member) (List.mem_cons_self ..)
  exact ⟨final, grammar, final', grammar', address, address', success, success', found, found', parses⟩

end Grammar

end RecursiveDescent
