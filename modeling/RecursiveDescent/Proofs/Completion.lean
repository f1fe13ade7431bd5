import RecursiveDescent.Grammar.Construction
import RecursiveDescent.Proofs.Denotation

/-! # Stores before and after placeholders are replaced

Here is what the operations on a store change, and what survives such changes: a definition that resolved
while some rules were placeholders resolves to the same once they are replaced, since a parse that called
none of them is the same parse.
-/

namespace RecursiveDescent

/-! ## Operations on stores -/

namespace Store

variable {store : Store} {address other : Address}

@[simp] theorem fresh_body (body : Parser) : (store.fresh body).body = body := by
  cases body <;> rfl

@[simp] theorem add_size (name : Option String) (body : Parser) :
    (store.add name body).cells.size = store.cells.size + 1 := by
  simp [add]

theorem body?_of_lt {body : Parser} (stored : store.body? address = some body) : address < store.cells.size := by
  obtain ⟨cell, present, _⟩ := Option.map_eq_some_iff.mp stored
  exact (Array.getElem?_eq_some_iff.mp present).1

theorem body?_of_ge (beyond : store.cells.size ≤ address) : store.body? address = none := by
  simp only [body?, Array.getElem?_eq_none beyond, Option.map_none]

theorem body?_isSome (allocated : address < store.cells.size) : ∃ body, store.body? address = some body :=
  ⟨store.cells[address].behaviour.body, by simp only [body?, Array.getElem?_eq_getElem allocated, Option.map_some]⟩

theorem add_body? (name : Option String) (body : Parser) (address : Address) :
    (store.add name body).body? address = if address = store.cells.size then some body else store.body? address := by
  simp only [body?, add, Array.getElem?_push]
  split <;> simp

@[simp] theorem install_size (behaviour : Behaviour) :
    (store.install address behaviour).cells.size = store.cells.size := by
  simp [install]

@[simp] theorem install_name (behaviour : Behaviour) :
    (store.install address behaviour).name other = store.name other := by
  simp only [name, install, Array.getElem?_modify]
  split
  · cases store.cells[other]? <;> rfl
  · rfl

theorem install_body? (behaviour : Behaviour) :
    (store.install address behaviour).body? other =
      if address = other then (store.body? other).map fun _ => behaviour.body else store.body? other := by
  simp only [body?, install, Array.getElem?_modify]
  split
  · simp only [Option.map_map, Function.comp_def]
  · rfl

/-- To install something new changes what one parser does. -/
theorem installFresh_body? (allocated : address < store.cells.size) (body : Parser) (other : Address) :
    (store.installFresh address body).body? other = if address = other then some body else store.body? other := by
  obtain ⟨old, stored⟩ := store.body?_isSome allocated
  change (store.install address (store.fresh body)).body? other = _
  rw [install_body?, fresh_body]
  split
  · next same => rw [← same, stored, Option.map_some]
  · rfl

@[simp] theorem installFresh_size (body : Parser) :
    (store.installFresh address body).cells.size = store.cells.size :=
  store.install_size _

@[simp] theorem installFresh_name (body : Parser) : (store.installFresh address body).name other = store.name other :=
  store.install_name _

/-- To install a copy changes what one parser does. -/
theorem installCopy_body? (allocated : address < store.cells.size) {source : Address} {body : Parser}
    (stored : store.body? source = some body) (other : Address) :
    (store.installCopy address source).body? other = if address = other then some body else store.body? other := by
  obtain ⟨cell, present, rfl⟩ := Option.map_eq_some_iff.mp stored
  obtain ⟨old, there⟩ := store.body?_isSome allocated
  simp only [installCopy, present, install_body?]
  split
  · next same => rw [← same, there, Option.map_some]
  · rfl

@[simp] theorem installCopy_size (source : Address) :
    (store.installCopy address source).cells.size = store.cells.size := by
  unfold installCopy
  split
  · exact store.install_size _
  · rfl

@[simp] theorem installCopy_name (source : Address) :
    (store.installCopy address source).name other = store.name other := by
  unfold installCopy
  split
  · exact store.install_name _
  · rfl

end Store

namespace Grammar

/-- The name of every rule, with the address that it is given. -/
theorem reserve_rules (names : List String) (store : Store) :
    (reserve names store).2 = names.zipIdx store.cells.size := by
  induction names generalizing store with
  | nil => rfl
  | cons name rest ih => simp only [reserve, ih, Store.add_size, List.zipIdx_cons]

/-- The rules have the names that were asked for, in the same order. -/
theorem reserve_names (names : List String) (store : Store) : Grammar.names ⟨(reserve names store).2⟩ = names := by
  rw [Grammar.names, reserve_rules, List.zipIdx_map_fst]

theorem reserve_size (names : List String) (store : Store) :
    (reserve names store).1.cells.size = store.cells.size + names.length := by
  induction names generalizing store with
  | nil => rfl
  | cons name rest ih => simp only [reserve, ih, Store.add_size, List.length_cons]; omega

/-- What was stored before remains in its place. -/
theorem reserve_body? (names : List String) (store : Store) {address : Address}
    (before : address < store.cells.size) : (reserve names store).1.body? address = store.body? address := by
  induction names generalizing store with
  | nil => rfl
  | cons name rest ih =>
    have still : address < (store.add (some name) (.unpatched name)).cells.size := by
      rw [Store.add_size]
      exact Nat.lt_succ_of_lt before
    simp only [reserve]
    rw [ih _ still, Store.add_body?, if_neg (Nat.ne_of_lt before)]

/-- Every rule begins as a placeholder. -/
theorem reserve_placeholder (names : List String) (store : Store) {rule : String × Address}
    (reserved : rule ∈ names.zipIdx store.cells.size) :
    (reserve names store).1.body? rule.2 = some (.unpatched rule.1) := by
  induction names generalizing store with
  | nil => simp at reserved
  | cons name rest ih =>
    rw [List.zipIdx_cons] at reserved
    rcases List.mem_cons.mp reserved with rfl | reserved
    · have added : store.cells.size < (store.add (some name) (.unpatched name)).cells.size := by
        rw [Store.add_size]
        exact Nat.lt_succ_self _
      simp only [reserve]
      rw [reserve_body? rest _ added, Store.add_body?, if_pos rfl]
    · exact ih (store.add (some name) (.unpatched name)) (by simpa only [Store.add_size] using reserved)

end Grammar

/-! ## Resolution before and after -/

/-- A scope repeats what another one offers, with placeholders of its store replaced whose use is no `final` fault. -/
structure Scope.Completes (final : Fault → Prop) (fuller scope : Scope) : Prop where
  store : fuller.store.Completes final scope.store
  size_eq : fuller.store.cells.size = scope.store.cells.size
  name_eq : ∀ address, fuller.store.name address = scope.store.name address
  bindings_eq : fuller.bindings = scope.bindings
  grammar_eq : fuller.grammar = scope.grammar

namespace Scope.Completes

variable {final : Fault → Prop} {fuller scope : Scope} (completes : fuller.Completes final scope)
include completes

theorem nameOf_eq : fuller.nameOf = scope.nameOf := by
  funext resolved
  cases resolved with
  | existing address => simp only [nameOf, completes.name_eq]
  | fresh name body => rfl
  | foreign kind => rfl

theorem rule_eq : fuller.rule = scope.rule := by
  funext name access
  simp only [rule, completes.grammar_eq]

/-- A parse that answers is the same in the fuller scope. -/
theorem matcher_extends (parser : Parser) :
    (fuller.store.matcher parser).Extends final (scope.store.matcher parser) := by
  intro source pos
  have sameLimit : fuller.store.limit source pos = scope.store.limit source pos := by
    simp only [Store.limit, completes.size_eq]
  simp only [Store.matcher, sameLimit]
  exact Parser.matcher_extends (Store.call_extends completes.store (Nat.le_refl _)) (Nat.le_refl _) _ source pos

/-- An early parse that answers is the same in the fuller scope. -/
theorem parseEarly_extends (name : String) (access : Access) (source : Source) (pos : Int) :
    (fuller.parseEarly name access source pos).Extends final (scope.parseEarly name access source pos) := by
  simp only [parseEarly, completes.rule_eq]
  apply Run.extends_bind (Run.extends_refl _)
  intro used _
  exact Run.extends_bind (completes.matcher_extends used.tree source pos) fun _ _ => Run.extends_refl _

end Scope.Completes

theorem Scope.completes_refl {final : Fault → Prop} (scope : Scope) : scope.Completes final scope :=
  ⟨scope.store.completes_refl, rfl, fun _ => rfl, rfl, rfl⟩

theorem Scope.Completes.trans {final : Fault → Prop} {fuller middle scope : Scope}
    (second : fuller.Completes final middle) (first : middle.Completes final scope) :
    fuller.Completes final scope where
  store address body stored := (first.store address body stored).elim .inl (second.store address body)
  size_eq := second.size_eq.trans first.size_eq
  name_eq address := (second.name_eq address).trans (first.name_eq address)
  bindings_eq := second.bindings_eq.trans first.bindings_eq
  grammar_eq := second.grammar_eq.trans first.grammar_eq

namespace Expression

variable {final : Fault → Prop} {fuller scope : Scope}

/-- A list resolves to the same, if its members do. -/
theorem resolveAll_extends {children : List Expression}
    (each : ∀ child ∈ children, (child.resolve fuller).Extends final (child.resolve scope)) :
    (resolveAll fuller children).Extends final (resolveAll scope children) := by
  induction children with
  | nil => exact Run.extends_refl _
  | cons child rest ih =>
    apply Run.extends_bind (each child (List.mem_cons_self ..))
    intro _ _
    exact Run.extends_bind (ih fun other member => each other (List.mem_cons_of_mem _ member))
      fun _ _ => Run.extends_refl _

/-- A resolution that answers is the same once placeholders are replaced. -/
theorem resolve_extends (completes : fuller.Completes final scope) (expression : Expression) :
    (expression.resolve fuller).Extends final (expression.resolve scope) := by
  induction expression with
  | literal _ | pattern _ _ _ | nothing | whitespace | integer | float | fixed _ _ | foreign _ =>
    exact Run.extends_refl _
  | map child _ ih =>
    apply Run.extends_bind ih
    intro _ _
    rw [completes.nameOf_eq]
    exact Run.extends_refl _
  | many child ih | optional child ih | observed _ _ child ih =>
    exact Run.extends_bind ih fun _ _ => Run.extends_refl _
  | sequence children ih | choice children ih =>
    exact Run.extends_bind (resolveAll_extends ih) fun _ _ => Run.extends_refl _
  | sepBy item separator ihItem ihSeparator =>
    apply Run.extends_bind ihItem
    intro _ _
    exact Run.extends_bind ihSeparator fun _ _ => Run.extends_refl _
  | takeMid opening child closing ihOpening ihChild ihClosing =>
    apply Run.extends_bind ihOpening
    intro _ _
    apply Run.extends_bind ihChild
    intro _ _
    exact Run.extends_bind ihClosing fun _ _ => Run.extends_refl _
  | existing target =>
    have same : (existing target).resolve fuller = (existing target).resolve scope := by
      change Run.ofExcept (fuller.bindings.address target) >>= _ = Run.ofExcept (scope.bindings.address target) >>= _
      rw [completes.bindings_eq]
    exact fun _ => same
  | rule name access =>
    have same : (rule name access).resolve fuller = (rule name access).resolve scope :=
      congrFun (congrFun completes.rule_eq name) access
    exact fun _ => same
  | early name access source pos next ih =>
    exact Run.extends_bind (completes.parseEarly_extends name access source pos) fun _ _ => ih

end Expression

end RecursiveDescent
