import RecursiveDescent.Proofs.Reachability
import RecursiveDescent.Proofs.Sessions

/-! # What steps leave as it was

A stored parser keeps its name for good, and does the same until something is installed into it. No other step takes
anything away, and neither does one that fails: when the construction of a grammar breaks off, at whatever definition,
it has changed the parsers of its own rules and nothing else. So a session that drops the stores such a step has come
to, and goes on with the one before, shows no difference.
-/

namespace RecursiveDescent

namespace Store

variable {changed more : Address → Prop} {store middle later : Store} {address : Address}

/-- A later store has every parser of an earlier one under its name, and only those at changed addresses may do
something else. -/
def Retains (changed : Address → Prop) (later store : Store) : Prop :=
  ∀ address cell, store.cells[address]? = some cell →
    ∃ kept, later.cells[address]? = some kept ∧ kept.name = cell.name ∧
      (kept.behaviour = cell.behaviour ∨ changed address)

theorem retains_refl (changed : Address → Prop) (store : Store) : store.Retains changed store :=
  fun _ cell stored => ⟨cell, stored, rfl, .inl rfl⟩

theorem Retains.trans (second : later.Retains changed middle) (first : middle.Retains changed store) :
    later.Retains changed store := by
  intro address cell stored
  obtain ⟨between, there, name, same⟩ := first address cell stored
  obtain ⟨kept, here, last, still⟩ := second address between there
  refine ⟨kept, here, last.trans name, ?_⟩
  rcases same with same | changes
  · exact still.imp (·.trans same) id
  · exact .inr changes

/-- Changes count at addresses that were in use before, and nowhere else. -/
theorem Retains.mono (le : ∀ address, address < store.cells.size → changed address → more address)
    (retains : later.Retains changed store) : later.Retains more store := by
  intro address cell stored
  obtain ⟨kept, here, name, same⟩ := retains address cell stored
  exact ⟨kept, here, name, same.imp_right (le address (Array.getElem?_eq_some_iff.mp stored).1)⟩

theorem add_retains (store : Store) (name : Option String) (body : Parser) :
    (store.add name body).Retains changed store := by
  intro address cell stored
  have before := (Array.getElem?_eq_some_iff.mp stored).1
  refine ⟨cell, ?_, rfl, .inl rfl⟩
  simp only [add, Array.getElem?_push, if_neg (Nat.ne_of_lt before), stored]

theorem install_retains (store : Store) (address : Address) (behaviour : Behaviour) :
    (store.install address behaviour).Retains (· = address) store := by
  intro other cell stored
  simp only [install, Array.getElem?_modify, stored, Option.map_some]
  split
  · next same => exact ⟨_, rfl, rfl, .inr same.symm⟩
  · exact ⟨cell, rfl, rfl, .inl rfl⟩

theorem installCopy_retains (store : Store) (address source : Address) :
    (store.installCopy address source).Retains (· = address) store := by
  unfold installCopy
  split
  · exact store.install_retains address _
  · exact store.retains_refl _

theorem Retains.body?_eq (retains : later.Retains (fun _ => False) store) (inside : address < store.cells.size) :
    later.body? address = store.body? address := by
  obtain ⟨kept, here, _, same⟩ := retains address _ (Array.getElem?_eq_getElem inside)
  simp only [body?, here, Array.getElem?_eq_getElem inside, Option.map_some, same.resolve_right id]

/-- Where nothing has changed, every stored parser is called as before. -/
theorem Retains.call_eq (retains : later.Retains (fun _ => False) store) {actions : Action → Prop}
    {pending : String → Prop} (closed : store.Closed actions pending) (limit : Nat)
    (inside : address < store.cells.size) : later.call limit address = store.call limit address :=
  (closed.call_congr (fun _ inside => (retains.body?_eq inside).symm) limit inside).symm

end Store

/-! ## Constructions -/

namespace Grammar

variable {bindings : Bindings} {store : Store} {definitions : List (String × Expression)}

theorem reserve_retains {changed : Address → Prop} (names : List String) (store : Store) :
    (reserve names store).1.Retains changed store := by
  induction names generalizing store with
  | nil => exact store.retains_refl changed
  | cons name rest ih => exact (ih _).trans (store.add_retains _ _)

/-- An installation changes the parser of its rule, and no other. -/
theorem installRule_retains {grammar : Grammar} {next : Store} {name : String} {address : Address}
    {resolved : Resolved} (installed : (installRule grammar store name address resolved).outcome = .value next) :
    next.Retains (· = address) store := by
  cases resolved with
  | foreign kind => cases installed
  | fresh label body => cases installed; exact store.install_retains address _
  | existing other =>
    simp only [installRule] at installed
    split at installed
    · cases installed; exact store.install_retains address _
    · cases installed; exact store.installCopy_retains address other

/-- However many definitions have been installed, all that was stored before is as it was. -/
theorem underway_retains {count : Nat} (le : count ≤ definitions.length) {scope : Scope}
    (answered : (underway bindings store definitions count).outcome = .value scope) :
    scope.store.Retains (fun _ => False) store := by
  suffices rules : scope.store.Retains (store.cells.size ≤ ·) store by
    exact rules.mono fun address before after => Nat.not_lt.mpr after before
  induction count generalizing scope with
  | zero =>
    cases answered
    exact reserve_retains _ store
  | succ count ih =>
    have here := List.getElem?_eq_getElem (Nat.lt_of_succ_le le)
    rw [underway_succ here] at answered
    obtain ⟨earlier, reached, defined⟩ := Run.bind_outcome.mp answered
    simp only [Scope.define, Run.bind_outcome, Run.pure_outcome, Outcome.value.injEq] at defined
    obtain ⟨resolved, _, next, installed, rfl⟩ := defined
    refine Store.Retains.trans ?_ (ih (Nat.le_of_succ_le le) reached)
    apply (installRule_retains installed).mono
    rintro _ _ rfl
    exact Nat.le_add_right _ _

end Grammar

/-! ## Steps -/

namespace Session

variable {session middle next : Session} {step : Step}

/-- A step that succeeds replaces what is stored at an address: it installs something there. -/
def Replaces (session : Session) (step : Step) (address : Address) : Prop :=
  ∃ target origin how next, step = .install target origin how ∧ session.bindings.address target = .ok address ∧
    (session.step step).outcome = .value (next, .done)

/-- The sessions that a step comes to: the one that it begins in, those between the definitions of a grammar,
whether or not the grammar can be built in the end, and the one that it answers with. -/
inductive Visits (session : Session) : Step → Session → Prop
  | start (step : Step) : Visits session step session
  | underway {name : String} {definitions : List (String × Expression)} {count : Nat} {scope : Scope}
      (le : count ≤ definitions.length)
      (reached : (Grammar.underway session.bindings session.store definitions count).outcome = .value scope) :
      Visits session (.buildGrammar name definitions) ⟨scope.store, scope.bindings⟩
  | done {step : Step} {next : Session} {answer : Answer}
      (answered : (session.step step).outcome = .value (next, answer)) : Visits session step next

theorem transfer_retains (store : Store) (address origin : Address) (how : Transfer) :
    (transfer store address origin how).Retains (· = address) store := by
  cases how with
  | copy => exact store.installCopy_retains address origin
  | delegate => exact store.install_retains address _

/-- On its way, a step replaces nothing but what it installs something into. -/
theorem Visits.retains (visits : session.Visits step middle) :
    middle.store.Retains (session.Replaces step) session.store := by
  cases visits with
  | start => exact session.store.retains_refl _
  | underway le reached => exact (Grammar.underway_retains le reached).mono fun _ _ => False.elim
  | @done _ _ answer answered =>
    cases change_of_step answered with
    | unchanged | bound => exact session.store.retains_refl _
    | added => exact session.store.add_retains _ _
    | built success =>
      have retains := Grammar.underway_retains (Nat.le_refl _) (Grammar.build_outcome.mp success)
      exact retains.mono fun _ _ => False.elim
    | @installed target origin how address source there here =>
      refine (transfer_retains session.store address source how).mono ?_
      rintro _ _ rfl
      exact ⟨target, origin, how, _, rfl, there, step_install there here how⟩

/-- On its way, a step leaves every grammar bound as it was, unless it binds the name of that grammar anew. -/
theorem Visits.grammar (visits : session.Visits step middle) {name : String} {grammar : Grammar}
    (bound : session.bindings.grammars.lookup name = some grammar) :
    middle.bindings.grammars.lookup name = some grammar ∨ ∃ definitions, step = .buildGrammar name definitions := by
  cases visits with
  | start => exact .inl bound
  | underway le reached => exact .inl (Grammar.bindings_of_underway reached ▸ bound)
  | done answered =>
    cases change_of_step answered with
    | unchanged | bound | added | installed => exact .inl bound
    | @built label definitions final made success =>
      by_cases same : name = label
      · exact .inr ⟨definitions, same ▸ rfl⟩
      · left
        simp only [bindGrammar, Bindings.lookup_rebind, if_neg same, bound]

/-- A construction that fails stops at one of its definitions, in a session that it has come to. -/
theorem exists_visited_of_fault {name : String} {definitions : List (String × Expression)} {cause : Fault}
    (stopped : (session.step (.buildGrammar name definitions)).outcome = .fault cause) :
    ∃ (index : Nat) (definition : String × Expression) (scope : Scope), definitions[index]? = some definition ∧
      session.Visits (.buildGrammar name definitions) ⟨scope.store, scope.bindings⟩ ∧
      (scope.define definition (session.store.cells.size + index)).outcome = .fault cause := by
  rcases Run.bind_fault.mp stopped with stopped | ⟨_, _, stopped⟩
  · obtain ⟨index, definition, scope, here, reached, stopped⟩ :=
      Grammar.exists_define_of_fault (Nat.le_refl _) (Grammar.build_fault stopped)
    have inside := (List.getElem?_eq_some_iff.mp here).1
    exact ⟨index, definition, scope, here, .underway (Nat.le_of_lt inside) reached, stopped⟩
  · cases stopped

/-- Whatever a step comes to, each parser that was stored before has its name, and does the same unless the step
succeeds in installing something into it; and each grammar that was bound before has the same rules. Unless something
is installed, all that was bound before parses as before, within every limit. After a step that fails the session is
the one before. All this holds of the sessions that it came to as well, up to the definition where the construction
of a grammar breaks off. -/
theorem only_installs_replace (reachable : session.Reachable fun _ => True) (step : Step) :
    (∀ middle, session.Visits step middle →
      middle.store.Retains (session.Replaces step) session.store ∧
      (∀ name grammar, session.bindings.grammars.lookup name = some grammar →
        middle.bindings.grammars.lookup name = some grammar ∨ ∃ definitions, step = .buildGrammar name definitions) ∧
      ((∀ address, ¬session.Replaces step address) → ∀ target address, session.bindings.address target = .ok address →
        ∀ limit, middle.store.call limit address = session.store.call limit address)) ∧
    ∀ cause, (session.step step).outcome = .fault cause →
      session.next (session.step step) = session ∧ (∀ address, ¬session.Replaces step address) ∧
      (∀ middle, session.Visits step middle → middle.bindings = session.bindings) ∧
      ∀ name definitions, step = .buildGrammar name definitions →
        ∃ (index : Nat) (definition : String × Expression) (scope : Scope), definitions[index]? = some definition ∧
          session.Visits step ⟨scope.store, scope.bindings⟩ ∧
          (scope.define definition (session.store.cells.size + index)).outcome = .fault cause := by
  have sound : session.Sound fun _ => True := (reachable.mono fun step _ => step.applies_all).sound trivial
  constructor
  · intro middle visits
    refine ⟨visits.retains, fun name grammar => visits.grammar, fun nothing target address found limit => ?_⟩
    have retains := visits.retains.mono fun address _ => nothing address
    exact retains.call_eq sound.closed limit (sound.within target address found)
  · intro cause stopped
    refine ⟨by simp only [Session.next, stopped], ?_, fun middle visits => ?_, ?_⟩
    · rintro address ⟨_, _, _, next, _, _, answered⟩
      rw [stopped] at answered
      cases answered
    · cases visits with
      | start => rfl
      | underway _ reached => exact Grammar.bindings_of_underway reached
      | done answered => rw [stopped] at answered; cases answered
    · rintro name definitions rfl
      exact exists_visited_of_fault stopped

/-- A grammar that cannot be built, since its second definition is a number; its first rule copies a letter. -/
def brokenCopy : Step := .buildGrammar "broken" [("Copy", .existing (.bound "letter")), ("Bad", .foreign (.int 1))]

/-- When the construction breaks off, the letter has been copied already, and it is what it was. -/
theorem brokenCopy_spares_letter : ∃ session middle : Session, (session.Reachable fun _ => True) ∧
    session.bindings.address (.bound "letter") = .ok 0 ∧
    (session.step brokenCopy).outcome = .fault (.invalidRule "Bad" "int") ∧
    session.next (session.step brokenCopy) = session ∧ session.Visits brokenCopy middle ∧
    middle.store.body? 1 = some (.literal "a") ∧ middle.store.Retains (fun _ => False) session.store ∧
    ∀ limit, middle.store.call limit 0 = session.store.call limit 0 := by
  let session := Session.empty.after [.bind "letter" (.literal "a")]
  have reachable : session.Reachable fun _ => True := Reachable.empty.after fun _ _ => trivial
  obtain ⟨along, atEnd⟩ := only_installs_replace reachable brokenCopy
  obtain ⟨same, nothing, _⟩ := atEnd (.invalidRule "Bad" "int") rfl
  obtain ⟨scope, reached, copied⟩ : ∃ scope, (Grammar.underway session.bindings session.store
      [("Copy", .existing (.bound "letter")), ("Bad", .foreign (.int 1))] 1).outcome = .value scope ∧
      scope.store.body? 1 = some (.literal "a") := ⟨_, rfl, rfl⟩
  have visits : session.Visits brokenCopy ⟨scope.store, scope.bindings⟩ := .underway (by decide) reached
  obtain ⟨retains, _, calls⟩ := along _ visits
  exact ⟨session, _, reachable, rfl, rfl, same, visits, copied, retains.mono fun address _ => nothing address,
    calls nothing (.bound "letter") 0 rfl⟩

end Session

end RecursiveDescent
