import RecursiveDescent.Session
import RecursiveDescent.Proofs.Parts

/-! # Sessions, step by step

A step that faults leaves a session as it was; `Session.Change` lists what any other step can do. From it
follows what holds of every session that steps lead to: all that is bound is stored, the stored parsers
refer to stored parsers only, and none of them is a placeholder.
-/

namespace RecursiveDescent

/-! ## Steps -/

def Step.expressions : Step → List Expression
  | .bind _ definition => [definition]
  | .buildGrammar _ definitions => definitions.map (·.2)
  | _ => []

/-- The parsers that a step makes apply actions of one kind only. -/
def Step.Applies (actions : Action → Prop) (step : Step) : Prop :=
  ∀ expression ∈ step.expressions, expression.Applies actions

theorem Step.applies_all (step : Step) : step.Applies fun _ => True :=
  fun expression _ => expression.applies_all

/-- What a stored parser does after a transfer from another. -/
def Transfer.body? (store : Store) (source : Address) : Transfer → Option Parser
  | .copy => store.body? source
  | .delegate => some (.ref source)

namespace Session

/-- What a step that succeeds does to a session. -/
inductive Change (session : Session) : Step → Session → Prop
  | unchanged (step : Step) : Change session step session
  | bound {name : String} {definition : Expression} {address : Address}
      (resolved : (definition.resolve session.scope).outcome = .value (.existing address)) :
      Change session (.bind name definition) (session.bindParser name address session.store)
  | added {name : String} {definition : Expression} {label : Option String} {body : Parser}
      (resolved : (definition.resolve session.scope).outcome = .value (.fresh label body)) :
      Change session (.bind name definition)
        (session.bindParser name session.store.cells.size (session.store.add label body))
  | built {name : String} {definitions : List (String × Expression)} {final : Store} {grammar : Grammar}
      (success : (Grammar.build session.bindings session.store definitions).outcome = .value (final, grammar)) :
      Change session (.buildGrammar name definitions) (session.bindGrammar name grammar final)
  | installed {target source : Target} {how : Transfer} {address origin : Address}
      (there : session.bindings.address target = .ok address)
      (here : session.bindings.address source = .ok origin) :
      Change session (.install target source how)
        { session with store := transfer session.store address origin how }

variable {session next : Session} {step : Step}

/-- A step that succeeds changes a session in one of these ways. -/
theorem change_of_step {answer : Answer} (success : (session.step step).outcome = .value (next, answer)) :
    session.Change step next := by
  cases step with
  | bind name definition =>
    simp only [Session.step, Run.bind_outcome, Run.pure_outcome, Outcome.value.injEq, Prod.mk.injEq] at success
    obtain ⟨resolved, resolves, bound, binds, rfl, _⟩ := success
    cases resolved with
    | existing address => cases binds; exact .bound resolves
    | fresh label body => cases binds; exact .added resolves
    | foreign kind => cases binds
  | buildGrammar name definitions =>
    simp only [Session.step, Run.bind_outcome, Run.pure_outcome, Outcome.value.injEq, Prod.mk.injEq] at success
    obtain ⟨⟨final, grammar⟩, built, rfl, _⟩ := success
    exact .built built
  | install target source how =>
    simp only [Session.step, find, Run.bind_outcome, Run.ofExcept_outcome, Run.pure_outcome, Outcome.value.injEq,
      Prod.mk.injEq] at success
    obtain ⟨address, there, origin, here, rfl, _⟩ := success
    exact .installed there here
  | parse _ _ _ | describe _ | sameParser _ _ | sameBehaviour _ _ | sameResult _ _ _ _ | query _ _ =>
    simp only [Session.step, Run.bind_outcome, Run.pure_outcome, Outcome.value.injEq, Prod.mk.injEq] at success
    obtain rfl : session = next := by grind
    exact .unchanged _

/-- An installation between parsers that are bound succeeds. -/
theorem step_install {target origin : Target} {address source : Address}
    (there : session.bindings.address target = .ok address) (here : session.bindings.address origin = .ok source)
    (how : Transfer) :
    (session.step (.install target origin how)).outcome =
      .value ({ session with store := transfer session.store address source how }, .done) := by
  simp only [Session.step, find, there, here, Run.ofExcept, pure_bind]
  rfl

/-- A step leaves a session as it is, or changes it in one of these ways. -/
theorem next_eq_or_change (session : Session) (step : Step) :
    session.next (session.step step) = session ∨ session.Change step (session.next (session.step step)) := by
  cases outcome : (session.step step).outcome with
  | value answered =>
    right
    have moved : session.next (session.step step) = answered.1 := by simp only [Session.next, outcome]
    exact moved ▸ change_of_step outcome
  | fault cause => left; simp only [Session.next, outcome]
  | unfinished => left; simp only [Session.next, outcome]

end Session

/-! ## Bindings -/

/-- After a binding of one name, that name is bound anew, and every other one as before. -/
theorem Bindings.lookup_rebind {α : Type} (name : String) (bound : α) (others : List (String × α)) (other : String) :
    (rebind name bound others).lookup other = if other = name then some bound else others.lookup other := by
  rw [rebind, List.lookup_cons]
  by_cases same : other = name
  · simp [same]
  · simp only [beq_false_of_ne same, if_neg same]
    induction others with
    | nil => rfl
    | cons first rest ih =>
      by_cases kept : first.1 = name
      · have apart : (other == first.1) = false := beq_false_of_ne fun equal => same (equal.trans kept)
        rw [List.filter_cons_of_neg (by simpa using kept), List.lookup_cons, apart]
        exact ih
      · rw [List.filter_cons_of_pos (by simpa using kept), List.lookup_cons, List.lookup_cons, ih]

/-- A target in a grammar is a rule of a grammar that is bound. -/
theorem Bindings.address_rule {bindings : Bindings} {name rule : String} {access : Access} {address : Address} :
    bindings.address (.rule name rule access) = .ok address ↔
      ∃ grammar, bindings.grammars.lookup name = some grammar ∧ grammar.access access rule = .ok (.rule address) := by
  simp only [Bindings.address, Bindings.grammar, bind, Except.bind]
  cases bindings.grammars.lookup name with
  | none => simp
  | some grammar =>
    cases found : grammar.access access rule with
    | error cause => simp [found]
    | ok member => cases member <;> simp [found]

namespace Session

variable {session : Session} {name : String} {address other : Address} {store : Store} {target : Target}

/-- What is bound after a parser has been bound is that parser, or was bound before. -/
theorem address_bindParser (found : (session.bindParser name address store).bindings.address target = .ok other) :
    other = address ∨ session.bindings.address target = .ok other := by
  cases target with
  | bound label =>
    simp only [bindParser, Bindings.address, Bindings.lookup_rebind] at found ⊢
    split_ifs at found with same
    · cases found; exact .inl rfl
    · exact .inr found
  | rule label rule access =>
    rw [Bindings.address_rule] at found ⊢
    exact .inr found

/-- What is bound after a grammar has been bound is a rule of it, or was bound before. -/
theorem address_bindGrammar {grammar : Grammar}
    (found : (session.bindGrammar name grammar store).bindings.address target = .ok other) :
    grammar.owns other = true ∨ session.bindings.address target = .ok other := by
  cases target with
  | bound label => exact .inr found
  | rule label rule access =>
    rw [Bindings.address_rule] at found ⊢
    obtain ⟨bound, looked, member⟩ := found
    simp only [bindGrammar, Bindings.lookup_rebind] at looked
    split_ifs at looked with same
    · cases looked
      exact .inl (Grammar.owns_of_access member)
    · exact .inr ⟨bound, looked, member⟩

/-- A transfer changes what its target does, and nothing else. -/
theorem transfer_body? {origin : Address} (allocated : address < store.cells.size) (stored : origin < store.cells.size)
    (how : Transfer) (other : Address) :
    (transfer store address origin how).body? other =
      if address = other then how.body? store origin else store.body? other := by
  cases how with
  | copy =>
    obtain ⟨body, present⟩ := store.body?_isSome stored
    simp only [transfer, Transfer.body?, present]
    exact store.installCopy_body? allocated present other
  | delegate => exact store.installFresh_body? allocated (.ref origin) other

@[simp] theorem transfer_size {origin : Address} (how : Transfer) :
    (transfer store address origin how).cells.size = store.cells.size := by
  cases how with
  | copy => exact store.installCopy_size origin
  | delegate => exact store.installFresh_size _

/-! ## Reachable sessions -/

/-- A session that some permitted steps lead to, whatever becomes of each of them. -/
inductive Reachable (permitted : Step → Prop) : Session → Prop
  | empty : Reachable permitted .empty
  | next {session : Session} {step : Step} (reachable : Reachable permitted session) (allowed : permitted step) :
      Reachable permitted (session.next (session.step step))

/-- The session that steps lead to, whatever becomes of each. -/
def after (session : Session) : List Step → Session
  | [] => session
  | step :: rest => (session.next (session.step step)).after rest

theorem Reachable.after {permitted : Step → Prop} (reachable : session.Reachable permitted) {steps : List Step}
    (allowed : ∀ step ∈ steps, permitted step) : (session.after steps).Reachable permitted := by
  induction steps generalizing session with
  | nil => exact reachable
  | cons step rest ih =>
    obtain ⟨first, others⟩ := List.forall_mem_cons.mp allowed
    exact ih (reachable.next first) others

theorem Reachable.mono {permitted more : Step → Prop} (le : ∀ step, permitted step → more step)
    (reachable : session.Reachable permitted) : session.Reachable more := by
  induction reachable with
  | empty => exact .empty
  | next _ allowed ih => exact .next ih (le _ allowed)

/-- All that is bound in a session is stored. The parsers that are stored apply actions of one kind only, refer to
stored parsers, and none of them is a placeholder. -/
structure Sound (actions : Action → Prop) (session : Session) : Prop where
  within : session.bindings.Within session.store
  closed : session.store.Closed actions fun _ => False

variable {actions : Action → Prop}

theorem sound_empty : Sound actions empty where
  within target address found := by cases target <;> cases found
  closed address body inside _ := absurd inside (Nat.not_lt_zero _)

/-- What an expression stands for in a sound session is confined to the stored parsers. -/
theorem Sound.confined (sound : session.Sound actions) (middle : actions Matcher.middle) {definition : Expression}
    (applies : definition.Applies actions) {tree : Parser} (stands : definition.StandsFor session.scope tree) :
    tree.Confined actions (· < session.store.cells.size) (Fault.Waits fun _ => False) :=
  stands.confined applies middle sound.within nofun

/-- A parser that is put in the place of one in a sound session, or after all of them, leaves it sound. -/
theorem Sound.closed_of_body? (sound : session.Sound actions) (grown : session.store.cells.size ≤ store.cells.size)
    {body : Parser} (confined : body.Confined actions (· < session.store.cells.size) (Fault.Waits fun _ => False))
    (bodies : ∀ other tree, store.body? other = some tree → tree = body ∨ session.store.body? other = some tree) :
    store.Closed actions fun _ => False := by
  have le (other : Address) (inside : other < session.store.cells.size) := Nat.lt_of_lt_of_le inside grown
  intro other tree _ stored
  rcases bodies other tree stored with rfl | before
  · exact confined.mono le fun _ => id
  · exact (sound.closed other tree (Store.body?_of_lt before) before).mono le fun _ => id

/-- A grammar that is built in a sound session has no placeholders left. -/
theorem Sound.closed_of_build (sound : session.Sound actions) (middle : actions Matcher.middle)
    {definitions : List (String × Expression)} (applies : ∀ definition ∈ definitions, definition.2.Applies actions)
    {final : Store} {grammar : Grammar}
    (success : (Grammar.build session.bindings session.store definitions).outcome = .value (final, grammar)) :
    final.Closed actions fun _ => False := by
  have underway := Grammar.underway_of_build sound.within success
  intro address body inside stored
  refine (underway.closed sound.within middle sound.closed applies address body inside stored).mono (fun _ => id)
    (Fault.Waits.mono ?_)
  rintro rule ⟨index, after, named⟩
  rw [List.getElem?_eq_none (by rwa [List.length_map])] at named
  cases named

/-- Every change leaves a sound session sound. -/
theorem Change.sound {step : Step} {next : Session} (change : session.Change step next)
    (middle : actions Matcher.middle) (applies : step.Applies actions) (sound : session.Sound actions) :
    next.Sound actions := by
  have bound := sound.within
  cases change with
  | unchanged => exact sound
  | @bound name definition address resolved =>
    have stands : definition.StandsFor session.scope (.ref address) :=
      Expression.standsFor_iff_resolve.mpr ⟨_, resolved, rfl⟩
    have confined := sound.confined middle (applies _ (List.mem_singleton_self _)) stands
    refine ⟨fun target other found => ?_, sound.closed⟩
    rcases address_bindParser found with rfl | before
    · exact confined.here
    · exact bound target other before
  | @added name definition label body resolved =>
    have stands : definition.StandsFor session.scope body :=
      Expression.standsFor_iff_resolve.mpr ⟨_, resolved, rfl⟩
    have confined := sound.confined middle (applies _ (List.mem_singleton_self _)) stands
    have grown : session.store.cells.size ≤ (session.store.add label body).cells.size := by
      rw [Store.add_size]
      exact Nat.le_succ _
    refine ⟨fun target other found => ?_, sound.closed_of_body? grown confined fun other tree stored => ?_⟩
    · change other < (session.store.add label body).cells.size
      rcases address_bindParser found with rfl | before
      · rw [Store.add_size]
        exact Nat.lt_succ_self _
      · exact Nat.lt_of_lt_of_le (bound target other before) grown
    · change (session.store.add label body).body? other = some tree at stored
      rw [Store.add_body?] at stored
      split_ifs at stored with here
      · cases stored; exact .inl rfl
      · exact .inr stored
  | @built name definitions final grammar success =>
    have underway := Grammar.underway_of_build bound success
    refine ⟨fun target other found => ?_,
      sound.closed_of_build middle (fun definition member => applies _ (List.mem_map_of_mem member)) success⟩
    rcases address_bindGrammar found with owned | before
    · exact (underway.owns_iff.mp owned).2
    · have size_eq : final.cells.size = session.store.cells.size + definitions.length := underway.size_eq
      exact Nat.lt_of_lt_of_le (bound target other before) (size_eq ▸ Nat.le_add_right _ _)
  | @installed target source how address origin there here =>
    have stored := bound source origin here
    obtain ⟨body, present⟩ := session.store.body?_isSome stored
    obtain ⟨made, transferred, confined⟩ : ∃ made, how.body? session.store origin = some made ∧
        made.Confined actions (· < session.store.cells.size) (Fault.Waits fun _ => False) := by
      cases how with
      | copy => exact ⟨body, present, sound.closed origin body stored present⟩
      | delegate => exact ⟨.ref origin, rfl, Tree.every_of_children stored (List.forall_mem_nil _)⟩
    refine ⟨fun target other found => ?_, ?_⟩
    · exact Nat.lt_of_lt_of_eq (bound target other found) (transfer_size how).symm
    · refine sound.closed_of_body? (Nat.le_of_eq (transfer_size how).symm) confined fun other tree stands => ?_
      rw [transfer_body? (bound target address there) stored] at stands
      split_ifs at stands
      · exact .inl (Option.some.inj (stands.symm.trans transferred))
      · exact .inr stands

/-- Every session that steps lead to is sound. -/
theorem Reachable.sound (reachable : session.Reachable (Step.Applies actions)) (middle : actions Matcher.middle) :
    session.Sound actions := by
  induction reachable with
  | empty => exact sound_empty
  | @next session step _ applies ih =>
    rcases session.next_eq_or_change step with same | change
    · rw [same]
      exact ih
    · exact change.sound middle applies ih

end Session

end RecursiveDescent
