import RecursiveDescent.Action
import RecursiveDescent.Proofs.RunProperties
import RecursiveDescent.Proofs.Sessions

/-! # The use of rules before they are installed

While a grammar is under construction, its rules are placeholders, and to call one of them is a fault that
the log tells of. A run of parsers that hold no placeholders is undisturbed by such faults, unless an action
brings them about. So are all parses of a session, and of its steps only the construction of a grammar may
stop in this way: at a definition that asks for an early parse.
-/

namespace RecursiveDescent

/-! ## Undisturbed runs -/

/-- A run uses no rule before its definition is installed: it neither logs such a use nor stops at one. -/
def Run.Undisturbed {α : Type} (run : Run α) : Prop :=
  ∀ rule, Event.logged (.ruleNotInstalled rule) ∉ run.events ∧ run.outcome ≠ .fault (.unpatchedRule rule)

/-- A run is undisturbed, or it uses a pending rule, logs that, and stops there. -/
inductive Run.Heeds (pending : String → Prop) : ∀ {α : Type}, Run α → Prop
  | undisturbed {α : Type} {run : Run α} (undisturbed : run.Undisturbed) : Heeds pending run
  | stopped {α : Type} {rule : String} {earlier : List Event} (waits : pending rule)
      (silent : ∀ rule, Event.logged (.ruleNotInstalled rule) ∉ earlier) :
      Heeds pending (⟨earlier ++ [.logged (.ruleNotInstalled rule)], .fault (.unpatchedRule rule)⟩ : Run α)

/-- An action neither stops nor logs as the use of a rule that is not installed does. -/
def Action.Independent (action : Action) : Prop := ∀ value span, (action value span).Undisturbed

namespace Run

variable {α : Type} {pending : String → Prop}

theorem undisturbed_pure (answer : α) : (pure answer : Run α).Undisturbed :=
  fun _ => ⟨List.not_mem_nil, nofun⟩

theorem undisturbed_stop {cause : Fault} (other : cause.Other) : (stop cause : Run α).Undisturbed := by
  refine fun rule => ⟨List.not_mem_nil, ?_⟩
  rintro ⟨⟩
  exact other rfl

theorem undisturbed_emit {event : Event} (other : ∀ rule, event ≠ .logged (.ruleNotInstalled rule)) :
    (emit event).Undisturbed :=
  fun rule => ⟨fun among => other rule (List.mem_singleton.mp among).symm, nofun⟩

/-- Where no rule is pending, a run is undisturbed. -/
theorem Heeds.undisturbed_of_none {run : Run α} (heeds : run.Heeds fun _ => False) : run.Undisturbed := by
  cases heeds with
  | undisturbed undisturbed => exact undisturbed
  | stopped waits _ => exact waits.elim

theorem heeds_lasting (pending : String → Prop) : Lasting (Heeds pending) where
  pure answer := .undisturbed (undisturbed_pure answer)
  unfinished := .undisturbed fun _ => ⟨List.not_mem_nil, nofun⟩
  bind {_ _ run next} first second := by
    cases first with
    | stopped waits silent => exact .stopped waits silent
    | undisturbed calm =>
      obtain ⟨events, outcome⟩ := run
      have silent (rule : String) : Event.logged (.ruleNotInstalled rule) ∉ events := (calm rule).1
      cases outcome with
      | unfinished => exact .undisturbed fun rule => ⟨silent rule, nofun⟩
      | fault cause =>
        refine .undisturbed fun rule => ⟨silent rule, ?_⟩
        rintro ⟨⟩
        exact (calm rule).2 rfl
      | value answer =>
        have later := second answer
        change Heeds pending ((next answer).after events)
        generalize next answer = rest at later
        cases later with
        | undisturbed calm =>
          exact .undisturbed fun rule => ⟨List.not_mem_append (silent rule) (calm rule).1, (calm rule).2⟩
        | stopped waits quiet =>
          simp only [after, ← List.append_assoc]
          exact .stopped waits fun rule => List.not_mem_append (silent rule) (quiet rule)

theorem heeds_stop {cause : Fault} (other : cause.Other) : (stop cause : Run α).Heeds pending :=
  .undisturbed (undisturbed_stop other)

/-- Parses heed pending rules, if their actions are independent. -/
theorem heeds_basic (source : Source) (pending : String → Prop) :
    Basic (Heeds pending) source Action.Independent (Fault.Waits pending) where
  toLasting := heeds_lasting pending
  applied independent value span := .undisturbed (independent value span)
  visited observer pos := .undisturbed (undisturbed_emit nofun)
  integers := by
    refine Matcher.keeps_map (heeds_lasting pending) (Matcher.keeps_pattern (heeds_lasting pending) _ _) ?_
    intro value span
    cases value with
    | text literal =>
      simp only [Lexeme.reading, Lexeme.readInteger]
      split
      · exact heeds_stop (by simp)
      · exact (heeds_lasting pending).pure _
    | _ => exact (heeds_lasting pending).pure _
  placeholders {rule} waits pos := by
    have stopped : Heeds pending
        (⟨[] ++ [.logged (.ruleNotInstalled rule)], .fault (.unpatchedRule rule)⟩ : Run Result) :=
      .stopped (waits rule rfl) fun _ => List.not_mem_nil
    exact stopped
  rejects _ _ := heeds_stop (by simp)

end Run

namespace Action

theorem independent_middle : Independent Matcher.middle := fun _ _ => Run.undisturbed_pure _

theorem independent_log (name : String) : (log name).Independent :=
  fun value span rule => ⟨by simp [log, Run.emit, bind, Run.andThen, Run.after], nofun⟩

end Action

/-! ## Early parses -/

/-- An early parse calls the rule that it names, unless there is no such rule. -/
theorem Scope.parseEarly_cases (scope : Scope) (name : String) (access : Access) (source : Source) (pos : Int) :
    (∃ address, scope.grammar.access access name = .ok (.rule address) ∧
      scope.parseEarly name access source pos =
        scope.store.matcher (.ref address) source pos >>= fun result => Run.emit (.parsedEarly name result)) ∨
      ∃ cause, cause.Other ∧ scope.parseEarly name access source pos = .stop cause := by
  have foreign (kind : String) (found : scope.rule name access = pure (.foreign kind)) :
      ∃ cause, cause.Other ∧ scope.parseEarly name access source pos = .stop cause :=
    ⟨.notAParser kind "parse", by simp, by rw [parseEarly, found]; rfl⟩
  cases found : scope.grammar.access access name with
  | error cause =>
    refine .inr ⟨cause, Grammar.other_of_access found, ?_⟩
    simp only [parseEarly, rule, found, Run.ofExcept, Run.stop_bind]
  | ok member =>
    cases member with
    | rule address =>
      have looked : scope.rule name access = pure (.existing address) := by rw [rule, found]; rfl
      exact .inl ⟨address, rfl, by rw [parseEarly, looked]; rfl⟩
    | method | table | registry => exact .inr (foreign _ (by rw [rule, found]; rfl))

/-- An early parse in a store that has only placeholders of pending rules heeds these. -/
theorem Scope.parseEarly_heeds {scope : Scope} {pending : String → Prop}
    (closed : scope.store.Closed Action.Independent pending)
    (stored : ∀ address, scope.grammar.owns address = true → address < scope.store.cells.size) (name : String)
    (access : Access) (source : Source) (pos : Int) : (scope.parseEarly name access source pos).Heeds pending := by
  rcases scope.parseEarly_cases name access source pos with ⟨address, found, same⟩ | ⟨cause, other, same⟩
  · rw [same]
    have owned := Grammar.owns_of_access found
    refine (Run.heeds_lasting pending).bind ?_ fun result => .undisturbed (Run.undisturbed_emit nofun)
    exact closed.call_keeps (Run.heeds_basic source pending) _ (stored address owned) pos
  · rw [same]
    exact Run.heeds_stop other

/-- Where the resolution of an expression stops at a rule that is not installed, an early parse within the
expression does. -/
theorem Expression.early_of_unpatched {scope : Scope} {expression : Expression} {rule : String}
    (stopped : (expression.resolve scope).outcome = .fault (.unpatchedRule rule)) :
    ∃ name access source pos next, Tree.Part children (.early name access source pos next) expression ∧
      (scope.parseEarly name access source pos).outcome = .fault (.unpatchedRule rule) := by
  by_contra none
  have early : Tree.Every children (EarlyParse (Run.Permits (· ≠ .unpatchedRule rule)) scope) expression := by
    intro part within
    cases part with
    | early name access source pos next =>
      rintro cause faulted rfl
      exact none ⟨name, access, source, pos, next, within, faulted⟩
    | _ => trivial
  have other {α : Type} {cause : Fault} (other : cause.Other) :
      Run.Permits (· ≠ .unpatchedRule rule) (Run.stop cause : Run α) := by
    rintro _ ⟨⟩ rfl
    exact other rfl
  exact resolve_keeps (Run.permits_lasting _) other early _ stopped rfl

/-- Where the construction of a grammar stops at a rule that is not installed, an early parse within one of its
definitions does. -/
theorem Grammar.early_of_unpatched {bindings : Bindings} {store : Store} {definitions : List (String × Expression)}
    {rule : String} (stopped : (build bindings store definitions).outcome = .fault (.unpatchedRule rule)) :
    ∃ index definition scope, definitions[index]? = some definition ∧
      (underway bindings store definitions index).outcome = .value scope ∧
      ∃ name access source pos next,
        Tree.Part Expression.children (.early name access source pos next) definition.2 ∧
        (scope.parseEarly name access source pos).outcome = .fault (.unpatchedRule rule) := by
  obtain ⟨index, definition, scope, here, reached, faulted⟩ :=
    exists_define_of_fault (Nat.le_refl _) (build_fault stopped)
  refine ⟨index, definition, scope, here, reached, ?_⟩
  rcases Run.bind_fault.mp faulted with faulted | ⟨resolved, _, faulted⟩
  · exact Expression.early_of_unpatched faulted
  rcases Run.bind_fault.mp faulted with faulted | ⟨_, _, faulted⟩
  · cases resolved with
    | existing other =>
      simp only [installRule] at faulted
      split at faulted <;> cases faulted
    | fresh _ _ => cases faulted
    | foreign _ => cases faulted
  · cases faulted

/-! ## Sessions -/

section Steps

variable {holds : ∀ {α : Type}, Run α → Prop} (lasting : Run.Lasting holds)
  (stops : ∀ {α : Type} {cause : Fault}, cause.Other → holds (Run.stop cause : Run α))
include lasting

/-- A parser is run in every mode with a property that its parses have, and the report of a parse that stopped
before the end of the source. -/
theorem Store.run_keeps {store : Store} {parser : Parser} {source : Source}
    (keeps : (store.matcher parser).Keeps holds source)
    (reported : ∀ pos, holds (Run.emit (.logged (.strictParseStopped pos source.size)))) (mode : RunMode) :
    holds (store.run mode parser source) := by
  cases mode with
  | startingAt pos => exact keeps pos
  | lenient => exact keeps 0
  | strict =>
    refine lasting.bind (keeps 0) fun result => ?_
    cases result with
    | failure missed => exact lasting.pure _
    | success found =>
      dsimp only
      split
      · exact lasting.bind (reported found.pos) fun _ => lasting.pure _
      · exact lasting.pure _

namespace Session

variable {session : Session}

include stops

theorem find_keeps (target : Target) : holds (session.find target) :=
  lasting.ofExcept fun _ failed => stops (Bindings.other_of_address failed)

theorem findGrammar_keeps (name : String) : holds (session.findGrammar name) :=
  lasting.ofExcept fun _ failed => stops (Bindings.other_of_grammar failed)

/-- A question about a grammar parses nothing, whatever it asks. -/
theorem ask_keeps (grammar : Grammar) (query : GrammarQuery) : holds (session.ask grammar query) := by
  have look (access : Access) (name : String) : holds (Run.ofExcept (grammar.access access name)) :=
    lasting.ofExcept fun _ failed => stops (Grammar.other_of_access failed)
  cases query with
  | member name => exact lasting.bind (look .member name) fun _ => lasting.pure _
  | item name => exact lasting.bind (look .item name) fun _ => lasting.pure _
  | itemOrNothing name =>
    simp only [ask]
    split <;> exact lasting.pure _
  | sameAs other => exact lasting.bind (findGrammar_keeps lasting stops other) fun _ => lasting.pure _
  | setMember name => exact stops (by simp)
  | _ => exact lasting.pure _

end Session

end Steps

namespace Session

variable {session : Session}

/-- In a sound session, and in any store that a build in it has come to, what was stored before parses without
the use of a placeholder. -/
theorem Sound.undisturbed (sound : session.Sound Action.Independent) {store : Store}
    (kept : ∀ address, address < session.store.cells.size → store.body? address = session.store.body? address)
    {address : Address} (inside : address < session.store.cells.size) (limit : Nat) (source : Source) (pos : Int) :
    (store.call limit address source pos).Undisturbed := by
  have confined : store.Confined Action.Independent (· < session.store.cells.size)
      (Fault.Waits fun _ => False) :=
    fun other body before stored => sound.closed other body before (kept other before ▸ stored)
  exact (confined.call_keeps (Run.heeds_basic source _) limit inside pos).undisturbed_of_none

/-- A step that builds no grammar is undisturbed. -/
theorem Sound.step_undisturbed (sound : session.Sound Action.Independent) {step : Step}
    (independent : step.Applies Action.Independent)
    (other : ∀ name definitions, step ≠ .buildGrammar name definitions) :
    (session.step step).Undisturbed := by
  have lasting := Run.heeds_lasting fun _ => False
  have stops {α : Type} {cause : Fault} (other : cause.Other) : (Run.stop cause : Run α).Heeds fun _ => False :=
    Run.heeds_stop other
  have find (target : Target) : (session.find target).Heeds fun _ => False := find_keeps lasting stops target
  have parse {target : Target} {address : Address} (found : (session.find target).outcome = .value address)
      (source : Source) : (session.store.matcher (.ref address)).Keeps (Run.Heeds fun _ => False) source := by
    have inside := sound.within target address (Run.ofExcept_outcome.mp found)
    exact fun pos => .undisturbed (sound.undisturbed (fun _ _ => rfl) inside _ source pos)
  refine Run.Heeds.undisturbed_of_none ?_
  cases step with
  | bind name definition =>
    have ruleless : ∀ address, session.scope.grammar.owns address = true → address < session.scope.store.cells.size :=
      nofun
    have early : Tree.Every Expression.children (Expression.EarlyParse (Run.Heeds fun _ => False) session.scope)
        definition := by
      intro part _
      cases part with
      | early name access source pos next => exact Scope.parseEarly_heeds sound.closed ruleless name access source pos
      | _ => trivial
    refine lasting.bind (Expression.resolve_keeps lasting stops early) fun resolved =>
      lasting.bind ?_ fun _ => lasting.pure _
    cases resolved with
    | existing _ | fresh _ _ => exact lasting.pure _
    | foreign kind => exact stops (by simp)
  | buildGrammar name definitions => exact (other name definitions rfl).elim
  | parse target mode source =>
    have reported (pos : Int) : (Run.emit (.logged (.strictParseStopped pos source.size))).Heeds fun _ => False :=
      .undisturbed (Run.undisturbed_emit nofun)
    refine lasting.bind_of_value (find target) fun address found => ?_
    exact lasting.bind (Store.run_keeps lasting (parse found source) reported mode) fun _ => lasting.pure _
  | install target source how =>
    exact lasting.bind (find target) fun _ => lasting.bind (find source) fun _ => lasting.pure _
  | describe target => exact lasting.bind (find target) fun _ => lasting.pure _
  | sameParser first second | sameBehaviour first second =>
    exact lasting.bind (find first) fun _ => lasting.bind (find second) fun _ => lasting.pure _
  | sameResult first second source pos =>
    refine lasting.bind_of_value (find first) fun a foundFirst => ?_
    refine lasting.bind (parse foundFirst source pos) fun _ => ?_
    refine lasting.bind_of_value (find second) fun b foundSecond => ?_
    exact lasting.bind (parse foundSecond source pos) fun _ => lasting.pure _
  | query name query =>
    refine lasting.bind (findGrammar_keeps lasting stops name) fun grammar => ?_
    exact lasting.bind (ask_keeps lasting stops grammar query) fun _ => lasting.pure _

/-- In every session that steps lead to, whatever has become of each step, parsing with anything that is bound
uses no placeholder; nor does it in the stores that a construction of a grammar comes to before it ends or fails.
Of all steps, only such a construction may stop at a rule that is not installed, and only if an early parse
within one of its definitions does, in the scope of that definition. All this is said of placeholders: an action
could bring about the same fault by itself, so the actions are independent of it. -/
theorem unpatched_only_by_early_parses (reachable : session.Reachable (Step.Applies Action.Independent)) :
    (∀ target address, session.bindings.address target = .ok address → ∀ limit source pos,
      (session.store.call limit address source pos).Undisturbed ∧
        ∀ definitions count scope, count ≤ definitions.length →
          (Grammar.underway session.bindings session.store definitions count).outcome = .value scope →
          (scope.store.call limit address source pos).Undisturbed) ∧
      (∀ step, step.Applies Action.Independent → (∀ name definitions, step ≠ .buildGrammar name definitions) →
        (session.step step).Undisturbed) ∧
      ∀ name definitions rule, (session.step (.buildGrammar name definitions)).outcome = .fault (.unpatchedRule rule) →
        ∃ index definition scope, definitions[index]? = some definition ∧
          (Grammar.underway session.bindings session.store definitions index).outcome = .value scope ∧
          ∃ called access source pos next,
            Tree.Part Expression.children (.early called access source pos next) definition.2 ∧
            (scope.parseEarly called access source pos).outcome = .fault (.unpatchedRule rule) := by
  have sound := reachable.sound Action.independent_middle
  refine ⟨fun target address found limit source pos => ?_, fun step => sound.step_undisturbed, ?_⟩
  · have inside := sound.within target address found
    refine ⟨sound.undisturbed (fun _ _ => rfl) inside limit source pos, ?_⟩
    intro definitions count scope le answered
    exact sound.undisturbed (Grammar.underway_spec sound.within le answered).kept inside limit source pos
  · intro name definitions rule stopped
    rcases Run.bind_fault.mp stopped with stopped | ⟨_, _, stopped⟩
    · exact Grammar.early_of_unpatched stopped
    · cases stopped

/-- A grammar that cannot be built, since its only rule is called by the definition of that rule. -/
def calledEarly : List (String × Expression) := [("A", .early "A" .item ⟨#['1']⟩ 0 .integer)]

/-- A parser is bound, then one grammar cannot be built, and another can. -/
def failureBetween : List Step :=
  [.bind "digits" (.map .integer (.log "digits")), .buildGrammar "broken" calledEarly,
    .buildGrammar "lists" Grammar.nestedLists]

/-- After the construction of a grammar has failed, the rules of another grammar parse undisturbed, and where that
construction is tried again, it fails by an early parse again. -/
theorem nestedLists_undisturbed :
    (empty.after failureBetween).Reachable (Step.Applies Action.Independent) ∧
      (empty.after failureBetween).bindings.address (.rule "lists" "Top" .item) = .ok 1 ∧
      (∀ limit source pos, ((empty.after failureBetween).store.call limit 1 source pos).Undisturbed) ∧
      ((empty.after failureBetween).step (.buildGrammar "broken" calledEarly)).outcome =
        .fault (.unpatchedRule "A") ∧
      ∃ (scope : Scope) (called : String) (access : Access) (source : Source) (pos : Int),
        (scope.parseEarly called access source pos).outcome = .fault (.unpatchedRule "A") := by
  have integer : Expression.integer.Applies Action.Independent :=
    Tree.every_of_children trivial (List.forall_mem_nil _)
  have logs : Step.Applies Action.Independent (.bind "digits" (.map .integer (.log "digits"))) :=
    List.forall_mem_singleton.mpr (Tree.every_of_children (Action.independent_log "digits")
      (List.forall_mem_singleton.mpr integer))
  have asks : Step.Applies Action.Independent (.buildGrammar "broken" calledEarly) :=
    List.forall_mem_singleton.mpr (Tree.every_of_children trivial (List.forall_mem_singleton.mpr integer))
  have builds : Step.Applies Action.Independent (.buildGrammar "lists" Grammar.nestedLists) :=
    List.forall_mem_map.mpr fun definition member => (Grammar.nestedLists_plain member).1
  have reachable : (empty.after failureBetween).Reachable (Step.Applies Action.Independent) :=
    Reachable.empty.after (List.forall_mem_cons.mpr ⟨logs, List.forall_mem_cons.mpr ⟨asks,
      List.forall_mem_singleton.mpr builds⟩⟩)
  have found : (empty.after failureBetween).bindings.address (.rule "lists" "Top" .item) = .ok 1 := rfl
  have fails : ((empty.after failureBetween).step (.buildGrammar "broken" calledEarly)).outcome =
      .fault (.unpatchedRule "A") := rfl
  obtain ⟨parses, _, faults⟩ := unpatched_only_by_early_parses reachable
  obtain ⟨_, _, scope, _, _, called, access, source, pos, _, _, stopped⟩ := faults "broken" calledEarly "A" fails
  exact ⟨reachable, found, fun limit source pos => (parses _ _ found limit source pos).1, fails, scope, called, access,
    source, pos, stopped⟩

end Session

end RecursiveDescent
