import RecursiveDescent.Action
import RecursiveDescent.Proofs.Actions
import RecursiveDescent.Proofs.Answers

/-! # Actions have no influence on recognition

The values that actions compute go into results and into nothing else. So two parsers that differ in their actions
only, none of which fails to return, go the same way: one of them comes to an end if and only if the other does, both
match or both miss, at the same offsets and with the same labels, and whatever is observed on the way is observed in
both, apart from what the actions report themselves.
-/

namespace RecursiveDescent

/-! ## What is compared -/

namespace Action

/-- All that an action reports are events of its own kind. -/
def Reports (own : Event → Bool) (action : Action) : Prop :=
  ∀ value span, ∀ event ∈ (action value span).events, own event = true

/-- An action that stops with a chosen fault where it does not return. -/
def orStop (cause : Fault) (action : Action) : Action := fun value span =>
  match (action value span).outcome with
  | .value _ => action value span
  | _ => .stop cause

variable {own : Event → Bool} {cause : Fault} {action : Action} {value : Value} {span : Span}

theorem orStop_of_value {answer : Value} (answered : (action value span).outcome = .value answer) :
    action.orStop cause value span = action value span := by
  simp only [orStop, answered]

/-- What such an action does is what the action does, unless it stops. -/
theorem orStop_cases (cause : Fault) (action : Action) (value : Value) (span : Span) :
    (action.orStop cause value span).outcome = .fault cause ∨ ∃ answer,
      action.orStop cause value span = action value span ∧ (action value span).outcome = .value answer := by
  cases outcome : (action value span).outcome with
  | value answer => exact .inr ⟨answer, orStop_of_value outcome, rfl⟩
  | fault other => left; simp only [orStop, outcome]; rfl
  | unfinished => left; simp only [orStop, outcome]; rfl

theorem Returns.orStop_eq (returns : action.Returns) (cause : Fault) : action.orStop cause = action := by
  funext value span
  obtain ⟨answer, answered⟩ := returns value span
  exact orStop_of_value answered

theorem reports_ofValue (own : Event → Bool) (compute : Value → Value) : (ofValue compute).Reports own :=
  fun _ _ _ => nofun

end Action

def Parser.bare (parser : Parser) : Parser := parser.withActions fun _ => .identity

mutual

/-- An expression without its actions and its early parses. What keeps the second of three parsers is a sequence, with
an action that takes the value. -/
def Expression.plain : Expression → Expression
  | .map child _ => .map child.plain .identity
  | .sequence children => .sequence (Expression.plainAll children)
  | .choice children => .choice (Expression.plainAll children)
  | .many child => .many child.plain
  | .optional child => .optional child.plain
  | .sepBy item separator => .sepBy item.plain separator.plain
  | .takeMid opening child closing => .map (.sequence [opening.plain, child.plain, closing.plain]) .identity
  | .observed name observer child => .observed name observer child.plain
  | .early _ _ _ _ next => next.plain
  | leaf => leaf

def Expression.plainAll : List Expression → List Expression
  | [] => []
  | child :: rest => child.plain :: Expression.plainAll rest

end

theorem Expression.plainAll_eq_map (children : List Expression) : plainAll children = children.map plain := by
  induction children with
  | nil => rfl
  | cons child rest ih => simp only [plainAll, ih, List.map_cons]

/-- Two stores hold the same parsers, apart from actions. -/
def Store.Alike (store other : Store) : Prop :=
  ∀ address, (store.body? address).map Parser.bare = (other.body? address).map Parser.bare

/-- No action that a parse applies fails to return: made to stop with a certain fault where they do not, the actions
do not stop the parse with it. -/
def Store.Unbroken (store : Store) (parser : Parser) (source : Source) (pos : Int) : Prop :=
  ∀ limit, ∃ cause, ((parser.withActions (Action.orStop cause)).matcher limit
    ((store.withActions (Action.orStop cause)).call limit) source pos).outcome ≠ .fault cause

def Result.outline : Result → Result
  | .success found => .success { found with value := .null }
  | .failure missed => .failure missed

/-- What a run shows, apart from values and from the events of a kind. -/
def Run.outline (own : Event → Bool) (run : Run Result) : Run Result :=
  ⟨run.events.filter fun event => !own event, run.outcome.map Result.outline⟩

theorem Run.finished_of_outline_eq {own : Event → Bool} {run other : Run Result}
    (same : run.outline own = other.outline own) : run.Finished ↔ other.Finished := by
  have outcomes : run.outcome.map Result.outline = other.outcome.map Result.outline := congrArg Run.outcome same
  rw [Finished, Finished, not_iff_not, ← Outcome.map_eq_unfinished, outcomes, Outcome.map_eq_unfinished]

/-- Some fault is not the one that a run stopped with. -/
theorem Run.exists_other_fault {α : Type} (run : Run α) : ∃ cause, run.outcome ≠ .fault cause := by
  by_cases stopped : run.outcome = .fault .immutableGrammar
  · exact ⟨.malformedPattern, by rw [stopped]; nofun⟩
  · exact ⟨.immutableGrammar, stopped⟩

/-- Where all actions return, no parse is broken. -/
theorem Parser.Confined.unbroken {known : Address → Prop} {refusals : Fault → Prop} {store : Store} {parser : Parser}
    (confined : parser.Confined Action.Returns known refusals)
    (closed : store.Confined Action.Returns known refusals) (source : Source) (pos : Int) :
    store.Unbroken parser source pos := by
  intro limit
  obtain ⟨cause, differs⟩ := (parser.matcher limit (store.call limit) source pos).exists_other_fault
  have fixes (action : Action) (returns : action.Returns) : action.orStop cause = action := returns.orStop_eq cause
  have agree (address : Address) (member : known address) :
      store.body? address = (store.withActions (Action.orStop cause)).body? address := by
    rw [Store.withActions_body?]
    cases stored : store.body? address with
    | none => rfl
    | some body => rw [Option.map_some, (closed address body member stored).withActions_eq fixes]
  have same : parser.matcher limit (store.call limit) =
      parser.matcher limit ((store.withActions (Action.orStop cause)).call limit) :=
    confined.matcher_congr fun _ => closed.call_congr agree limit
  refine ⟨cause, ?_⟩
  rw [confined.withActions_eq fixes, ← same]
  exact differs

/-! ## Parses in lockstep -/

namespace Lockstep

/-- Two parses at the same offsets of one source, until an action of the first stops with a chosen fault. -/
def sameWay (value : Value → Value → Prop) (own : Event → Bool) (cause : Fault) : Lockstep where
  place := Eq
  value := value
  events := fun events others => (events.filter fun event => !own event) = others.filter fun event => !own event
  excused := (· = cause)

variable {value : Value → Value → Prop} {own : Event → Bool} {cause : Fault} {source : Source}

theorem sameWay_lawful (null : value .null .null)
    (list : ∀ {values others}, List.Forall₂ value values others → value (.list values) (.list others))
    (item : ∀ {one another}, value one another → value (one.item 1) (another.item 1)) :
    (sameWay value own cause).Lawful source source where
  lt_iff := by rintro _ _ _ _ rfl rfl; rfl
  lt_size_iff := by rintro _ _ rfl; rfl
  null := null
  list := list
  item := item
  nil := rfl
  append agree later := by simp only [sameWay, List.filter_append] at agree later ⊢; rw [agree, later]
  visited observer _ _ := by rintro rfl; rfl
  logged entry := rfl

/-- Any run corresponds to itself. -/
theorem sameWay_refl (same : ∀ one, value one one) (run : Run Result) :
    (sameWay value own cause).Runs (sameWay value own cause).Results run run := by
  obtain ⟨events, outcome⟩ := run
  refine .inr ⟨rfl, ?_⟩
  cases outcome with
  | value result =>
    cases result with
    | success found => exact .value (.success rfl ⟨rfl, rfl⟩ (same _))
    | failure missed => exact .value (.failure rfl ⟨rfl, rfl⟩ rfl)
  | fault stopped => exact .fault stopped
  | unfinished => exact .unfinished

theorem sameWay_matches (same : ∀ one, value one one) (matcher : Matcher) :
    (sameWay value own cause).Matches source source matcher matcher := by
  rintro pos _ rfl
  exact sameWay_refl same _

/-- Any node is allowed if its action, made to stop, corresponds to what is put in its place. -/
theorem sameWay_allows (same : ∀ one, value one one) {alternative : Action → Action} {actions : Action → Prop}
    (applied : ∀ {action one another span}, actions action → value one another →
      (sameWay value own cause).Runs value (action.orStop cause one span) (alternative action another span))
    {known : Address → Prop} {refusals : Fault → Prop} {parser : Parser}
    (allowed : parser.Allowed actions known refusals) :
    (sameWay value own cause).Allows source source (Action.orStop cause) alternative known parser := by
  cases parser with
  | literal _ | pattern _ _ | integer | float => exact sameWay_matches same _
  | fixed result =>
    cases result with
    | success found => exact .success rfl ⟨rfl, rfl⟩ (same _)
    | failure missed => exact .failure rfl ⟨rfl, rfl⟩ rfl
  | map child action =>
    rintro one another ⟨_, _⟩ ⟨_, _⟩ values ⟨rfl, rfl⟩
    exact applied allowed values
  | ref address => exact allowed
  | _ => trivial

/-- Two changes of the actions of a parser go the same way. -/
theorem sameWay_runs (same : ∀ one, value one one) (lawful : (sameWay value own cause).Lawful source source)
    (alternative : Action → Action) {actions : Action → Prop}
    (applied : ∀ {action one another span}, actions action → value one another →
      (sameWay value own cause).Runs value (action.orStop cause one span) (alternative action another span))
    {store : Store} {known : Address → Prop} {refusals : Fault → Prop} {parser : Parser}
    (confined : parser.Confined actions known refusals) (closed : store.Confined actions known refusals)
    (limit : Nat) (pos : Int) :
    (sameWay value own cause).Runs (sameWay value own cause).Results
      ((parser.withActions (Action.orStop cause)).matcher limit
        ((store.withActions (Action.orStop cause)).call limit) source pos)
      ((parser.withActions alternative).matcher limit ((store.withActions alternative).call limit) source pos) := by
  have calls (address : Address) (member : known address) :=
    lawful.matches_call (fun address body member stored =>
      (closed address body member stored).imp fun _ => sameWay_allows same applied) limit member
  exact lawful.matches_parser calls (confined.imp fun _ => sameWay_allows same applied) pos pos rfl

theorem eq_of_spans {span other : Span} (spans : (sameWay value own cause).Spans span other) : span = other :=
  Span.ext spans.start spans.stop

theorem outline_eq_of_results {result other : Result} (results : (sameWay value own cause).Results result other) :
    result.outline = other.outline := by
  cases results with
  | success pos span value => exact congrArg Result.success (Success.ext pos (eq_of_spans span) rfl)
  | failure pos span expected => exact congrArg Result.failure (Failure.ext pos (eq_of_spans span) expected)

theorem eq_of_results {result other : Result} (results : (sameWay Eq own cause).Results result other) :
    result = other := by
  cases results with
  | success pos span value => exact congrArg Result.success (Success.ext pos (eq_of_spans span) value)
  | failure pos span expected => exact congrArg Result.failure (Failure.ext pos (eq_of_spans span) expected)

end Lockstep

namespace Store

variable {store : Store} {own : Event → Bool} {known : Address → Prop} {refusals : Fault → Prop} {parser : Parser}
  {source : Source} {pos : Int} {cause : Fault} {limit : Nat}

/-- Actions that are made to stop with a chosen fault change nothing, unless the parse stops with it. -/
theorem marked_eq (differs : ((parser.withActions (Action.orStop cause)).matcher limit
      ((store.withActions (Action.orStop cause)).call limit) source pos).outcome ≠ .fault cause) :
    (parser.withActions (Action.orStop cause)).matcher limit ((store.withActions (Action.orStop cause)).call limit)
      source pos = parser.matcher limit (store.call limit) source pos := by
  let steps : Lockstep := Lockstep.sameWay Eq (fun _ => false) cause
  have lawful : steps.Lawful source source :=
    Lockstep.sameWay_lawful rfl (fun same => congrArg Value.list (List.forall₂_eq_eq_eq ▸ same))
      (by rintro _ _ rfl; rfl)
  have applied {action : Action} {one another : Value} {span : Span} (_ : True) (same : one = another) :
      steps.Runs Eq (action.orStop cause one span) (id action another span) := by
    subst same
    rcases action.orStop_cases cause one span with stopped | ⟨answer, does, answered⟩
    · exact .inl ⟨cause, rfl, stopped⟩
    · rw [does]
      refine .inr ⟨rfl, ?_⟩
      rw [id, answered]
      exact .value rfl
  have runs := Lockstep.sameWay_runs (fun _ => rfl) lawful id applied parser.confined_all store.confined_all limit pos
  rw [Parser.withActions_id, call_withActions_id] at runs
  rcases runs with ⟨_, rfl, stopped⟩ | ⟨agree, outcomes⟩
  · exact (differs stopped).elim
  · simp only [Lockstep.sameWay, Bool.not_false, List.filter_true] at agree
    have same := (outcomes.mono fun _ _ => Lockstep.eq_of_results).eq
    exact congrArg₂ Run.mk agree same

/-- Without its actions, a parse shows the same as with actions that are made to stop with a chosen fault, unless it
stops with that. -/
theorem marked_outline (confined : parser.Confined (Action.Reports own) known refusals)
    (closed : store.Confined (Action.Reports own) known refusals)
    (differs : ((parser.withActions (Action.orStop cause)).matcher limit
      ((store.withActions (Action.orStop cause)).call limit) source pos).outcome ≠ .fault cause) :
    ((parser.withActions (Action.orStop cause)).matcher limit ((store.withActions (Action.orStop cause)).call limit)
        source pos).outline own =
      (parser.bare.matcher limit ((store.mapBodies Parser.bare).call limit) source pos).outline own := by
  let steps : Lockstep := Lockstep.sameWay (fun _ _ => True) own cause
  have lawful : steps.Lawful source source :=
    Lockstep.sameWay_lawful trivial (fun _ => trivial) fun _ => trivial
  have applied {action : Action} {one another : Value} {span : Span} (reports : action.Reports own) (_ : True) :
      steps.Runs (fun _ _ => True) (action.orStop cause one span) (Action.identity another span) := by
    rcases action.orStop_cases cause one span with stopped | ⟨answer, does, answered⟩
    · exact .inl ⟨cause, rfl, stopped⟩
    · rw [does]
      refine .inr ⟨?_, ?_⟩
      · refine List.filter_eq_nil_iff.mpr fun event member => ?_
        rw [reports one span event member]
        nofun
      · rw [answered]
        exact .value trivial
  have runs := Lockstep.sameWay_runs (fun _ => trivial) lawful (fun _ => .identity) applied confined closed limit pos
  rcases runs with ⟨_, rfl, stopped⟩ | ⟨agree, outcomes⟩
  · exact (differs stopped).elim
  · have same := (outcomes.mono fun _ _ => Lockstep.outline_eq_of_results).map_eq
    exact congrArg₂ Run.mk agree same

/-- A run of a parse that is not broken shows what the parse without actions does. -/
theorem Unbroken.outline_eq (unbroken : store.Unbroken parser source pos)
    (confined : parser.Confined (Action.Reports own) known refusals)
    (closed : store.Confined (Action.Reports own) known refusals) (limit : Nat) :
    (parser.matcher limit (store.call limit) source pos).outline own =
      (parser.bare.matcher limit ((store.mapBodies Parser.bare).call limit) source pos).outline own := by
  obtain ⟨cause, differs⟩ := unbroken limit
  rw [← marked_eq differs]
  exact marked_outline confined closed differs

end Store

/-! ## Grammars -/

namespace Expression

variable {scope other : Scope}

/-- Without its actions, an expression stands for the tree without the actions. -/
theorem StandsFor.plain (bindings : other.bindings = scope.bindings) (grammar : other.grammar = scope.grammar)
    {expression : Expression} {tree : Parser} (stands : expression.StandsFor scope tree) :
    expression.plain.StandsFor other tree.bare := by
  have all {children : List Expression} {trees : List Parser} (stand : List.Forall₂ (StandsFor scope) children trees)
      (inner : ∀ child ∈ children, ∀ tree, child.StandsFor scope tree → child.plain.StandsFor other tree.bare) :
      List.Forall₂ (StandsFor other) (plainAll children) (Parser.allWithActions (fun _ => .identity) trees) := by
    rw [plainAll_eq_map, Parser.allWithActions_eq_map, List.forall₂_map_left_iff, List.forall₂_map_right_iff]
    exact ((List.forall₂_and_left _ _).mpr ⟨inner, stand⟩).imp fun _ tree both => both.1 tree both.2
  induction expression generalizing tree with
  | literal _ | nothing | whitespace | integer | float | fixed _ _ =>
    obtain rfl := standsFor_of_pure rfl |>.mp stands
    exact standsFor_of_pure rfl |>.mpr rfl
  | pattern flags text label =>
    obtain ⟨compiled, made, rfl⟩ := standsFor_pattern.mp stands
    exact standsFor_pattern.mpr ⟨compiled, made, rfl⟩
  | map child action ih =>
    obtain ⟨tree, inner, parser, rfl⟩ := standsFor_map.mp stands
    exact standsFor_map.mpr ⟨_, ih inner, Parser.withActions_ne_foreign parser, rfl⟩
  | many child ih =>
    obtain ⟨tree, inner, rfl⟩ := standsFor_many.mp stands
    exact standsFor_many.mpr ⟨_, ih inner, rfl⟩
  | observed name observer child ih =>
    obtain ⟨tree, inner, rfl⟩ := standsFor_observed.mp stands
    exact standsFor_observed.mpr ⟨_, ih inner, rfl⟩
  | optional child ih =>
    obtain ⟨tree, inner, rfl⟩ := standsFor_optional.mp stands
    exact standsFor_optional.mpr ⟨_, ih inner, rfl⟩
  | sequence children ih =>
    obtain ⟨trees, stand, some, rfl⟩ := standsFor_sequence.mp stands
    refine standsFor_sequence.mpr ⟨_, all stand fun child member tree => ih child member, ?_, rfl⟩
    rw [Parser.allWithActions_eq_map]
    exact fun none => some (List.map_eq_nil_iff.mp none)
  | choice children ih =>
    obtain ⟨first, rest, stand, rfl⟩ := standsFor_choice.mp stands
    exact standsFor_choice.mpr ⟨_, _, all stand fun child member tree => ih child member, rfl⟩
  | sepBy item separator ihItem ihSeparator =>
    obtain ⟨first, second, item, separator, rfl⟩ := standsFor_sepBy.mp stands
    exact standsFor_sepBy.mpr ⟨_, _, ihItem item, ihSeparator separator, rfl⟩
  | takeMid opening child closing ihOpening ihChild ihClosing =>
    obtain ⟨first, second, third, opening, child, closing, rfl⟩ := standsFor_takeMid.mp stands
    have three : List.Forall₂ (StandsFor other) _ [first.bare, second.bare, third.bare] :=
      .cons (ihOpening opening) (.cons (ihChild child) (.cons (ihClosing closing) .nil))
    exact standsFor_map.mpr ⟨_, standsFor_sequence.mpr ⟨_, three, List.cons_ne_nil _ _, rfl⟩, nofun, rfl⟩
  | existing target =>
    obtain ⟨address, found, rfl⟩ := standsFor_existing.mp stands
    exact standsFor_existing.mpr ⟨address, bindings ▸ found, rfl⟩
  | rule name access =>
    obtain ⟨member, found, rfl⟩ := standsFor_rule.mp stands
    exact standsFor_rule.mpr ⟨member, grammar ▸ found, by cases member <;> rfl⟩
  | early name access source pos next ih => exact ih (standsFor_early.mp stands).2
  | foreign value =>
    obtain rfl := standsFor_foreign.mp stands
    exact standsFor_foreign.mpr rfl

/-- Expressions that differ in actions and early parses only stand for trees that differ in actions only. -/
theorem StandsFor.bare_eq {expression alternative : Expression} {tree branch : Parser}
    (stands : expression.StandsFor scope tree) (follows : alternative.StandsFor other branch)
    (bindings : other.bindings = scope.bindings) (grammar : other.grammar = scope.grammar)
    (same : alternative.plain = expression.plain) : branch.bare = tree.bare := by
  have here : expression.plain.StandsFor other tree.bare := stands.plain bindings grammar
  have there : alternative.plain.StandsFor other branch.bare := follows.plain rfl rfl
  rw [same] at there
  exact Outcome.value.inj (there.symm.trans here)

end Expression

theorem Parser.bare_eq_ref {parser : Parser} {address : Address} :
    parser.bare = .ref address ↔ parser = .ref address := by
  cases parser <;> simp [bare, withActions]

/-- What is installed for trees that differ in actions only does, if the stores agree so far on what is copied. -/
theorem Scope.installed?_bare {scope other : Scope} (grammar : other.grammar = scope.grammar)
    (copied : ∀ place, scope.grammar.owns place = false → place < scope.store.cells.size →
      (other.store.body? place).map Parser.bare = (scope.store.body? place).map Parser.bare)
    {tree branch made built : Parser} (bare : branch.bare = tree.bare) (installed : scope.installed? tree = some made)
    (follows : other.installed? branch = some built) : built.bare = made.bare := by
  have itself {scope : Scope} {tree made : Parser} (new : ∀ place, tree ≠ .ref place)
      (installed : scope.installed? tree = some made) : made = tree := by
    cases tree with
    | ref place => exact (new place rfl).elim
    | foreign kind => cases installed
    | _ => exact (Option.some.inj installed).symm
  by_cases reference : ∃ place, tree = .ref place
  · obtain ⟨place, rfl⟩ := reference
    obtain rfl := Parser.bare_eq_ref.mp bare
    simp only [installed?, grammar] at installed follows
    split at installed
    · next owned =>
      rw [if_pos owned] at follows
      rw [← Option.some.inj installed, ← Option.some.inj follows]
    · next outside =>
      rw [if_neg outside] at follows
      have same := copied place (Bool.eq_false_iff.mpr outside) (Store.body?_of_lt installed)
      rw [installed, follows] at same
      exact Option.some.inj same
  · have new (place : Address) : tree ≠ .ref place := fun same => reference ⟨place, same⟩
    have newBranch (place : Address) : branch ≠ .ref place := by
      rintro rfl
      exact new place (Parser.bare_eq_ref.mp bare.symm)
    rw [itself new installed, itself newBranch follows, bare]

/-- Stores that differ in actions only are of one size. -/
theorem Store.Alike.size_le {store other : Store} (alike : store.Alike other) :
    store.cells.size ≤ other.cells.size := by
  by_contra less
  obtain ⟨body, stored⟩ := store.body?_isSome (Nat.not_le.mp less)
  have same := alike other.cells.size
  rw [stored, other.body?_of_ge (Nat.le_refl _)] at same
  cases same

theorem Store.Alike.symm {store other : Store} (alike : store.Alike other) : other.Alike store :=
  fun address => (alike address).symm

namespace Grammar

variable {bindings : Bindings} {store other final last : Store} {grammar rules : Grammar}
  {definitions others : List (String × Expression)}

/-- Grammars of definitions that differ in actions and early parses only have the same rules, and the stores that they
are built in differ in actions only, if they did before. -/
theorem alike_of_build (within : bindings.Within store) (alike : store.Alike other)
    (same : others.map (fun rule => (rule.1, rule.2.plain)) = definitions.map fun rule => (rule.1, rule.2.plain))
    (success : (build bindings store definitions).outcome = .value (final, grammar))
    (success' : (build bindings other others).outcome = .value (last, rules)) :
    rules = grammar ∧ final.Alike last := by
  have size_eq : other.cells.size = store.cells.size := Nat.le_antisymm alike.symm.size_le alike.size_le
  have underway := underway_of_build within success
  have follows := underway_of_build (fun target address found => size_eq ▸ within target address found) success'
  have names : others.map (·.1) = definitions.map (·.1) := by
    simpa only [List.map_map, Function.comp_def] using congrArg (List.map Prod.fst) same
  have length : others.length = definitions.length := by simpa only [List.length_map] using congrArg List.length names
  have rules_eq : rules = grammar := by
    have here : grammar.rules = _ := underway.rules_eq
    have there : rules.rules = _ := follows.rules_eq
    rw [names, size_eq, ← here] at there
    exact congrArg Grammar.mk there
  refine ⟨rules_eq, ?_⟩
  have old {address : Address} (before : address < store.cells.size) :
      (final.body? address).map Parser.bare = (last.body? address).map Parser.bare := by
    have here : final.body? address = _ := underway.kept address before
    have there : last.body? address = _ := follows.kept address (size_eq ▸ before)
    rw [here, there]
    exact alike address
  intro address
  rcases Nat.lt_or_ge address store.cells.size with before | after
  · exact old before
  obtain ⟨index, rfl⟩ := Nat.exists_eq_add_of_le after
  rcases Nat.lt_or_ge index definitions.length with inside | beyond
  · have here := List.getElem?_eq_getElem inside
    have there := List.getElem?_eq_getElem (length ▸ inside : index < others.length)
    have plain : others[index].2.plain = definitions[index].2.plain := by
      have pairs := congrArg (·[index]?) same
      simp only [List.getElem?_map, here, there, Option.map_some, Option.some.injEq, Prod.mk.injEq] at pairs
      exact pairs.2
    obtain ⟨tree, made, stands, installed, stored⟩ := underway.installed inside here
    obtain ⟨branch, built, stands', installed', stored'⟩ := follows.installed (length ▸ inside) there
    rw [size_eq] at stored'
    have bare : branch.bare = tree.bare := stands.bare_eq stands' rfl rules_eq plain
    have copied (place : Address) (outside : grammar.owns place = false) (inner : place < final.cells.size) :
        (last.body? place).map Parser.bare = (final.body? place).map Parser.bare := by
      refine (old (Nat.not_le.mp fun added => ?_)).symm
      rw [underway.owns_iff.mpr ⟨added, inner⟩] at outside
      cases outside
    have same := Scope.installed?_bare rules_eq copied bare installed installed'
    exact (congrArg (Option.map Parser.bare) stored).trans
      ((congrArg some same.symm).trans (congrArg (Option.map Parser.bare) stored').symm)
  · have here : final.cells.size = _ := underway.size_eq
    have there : last.cells.size = _ := follows.size_eq
    rw [final.body?_of_ge (by omega), last.body?_of_ge (by omega)]

/-- Two grammars whose definitions differ in actions only have the same rules. With each of these, and with any two
trees that differ in actions only, the two parse in the same way wherever no action fails to return: one parse comes to
an end if and only if the other does, and but for values and what the actions report they show the same. With no
definitions this speaks of trees alone. -/
theorem actions_never_steer {own : Event → Bool} {first second : Session}
    (reachable : first.Reachable (Step.Applies (Action.Reports own)))
    (follows : second.Reachable (Step.Applies (Action.Reports own)))
    (bindings : second.bindings = first.bindings) (alike : first.store.Alike second.store)
    (applies : ∀ rule ∈ definitions, rule.2.Applies (Action.Reports own))
    (applies' : ∀ rule ∈ others, rule.2.Applies (Action.Reports own))
    (same : others.map (fun rule => (rule.1, rule.2.plain)) = definitions.map fun rule => (rule.1, rule.2.plain))
    (success : (build first.bindings first.store definitions).outcome = .value (final, grammar))
    (success' : (build second.bindings second.store others).outcome = .value (last, rules)) :
    rules = grammar ∧ ∀ tree branch : Parser, branch.bare = tree.bare →
      tree.Confined (Action.Reports own) (fun _ => True) (fun _ => True) →
      branch.Confined (Action.Reports own) (fun _ => True) (fun _ => True) →
      ∀ source pos, final.Unbroken tree source pos → last.Unbroken branch source pos →
        ((∃ run, final.Parses tree source pos run) ↔ ∃ run, last.Parses branch source pos run) ∧
          ∀ run follow, final.Parses tree source pos run → last.Parses branch source pos follow →
            run.outline own = follow.outline own := by
  have middle : Action.Reports own Matcher.middle := Action.reports_ofValue own (Value.item 1)
  have sound := reachable.sound middle
  obtain ⟨rules_eq, alike⟩ := alike_of_build sound.within alike same success (bindings ▸ success')
  refine ⟨rules_eq, fun tree branch bare confined confined' source pos unbroken unbroken' => ?_⟩
  have closed {store : Store} (closed : store.Closed (Action.Reports own) fun _ => False) :
      store.Confined (Action.Reports own) (fun _ => True) fun _ => True :=
    fun address body _ stored => (closed address body (Store.body?_of_lt stored) stored).mono (fun _ _ => trivial)
      fun _ _ => trivial
  have here := closed (sound.closed_of_build middle applies success)
  have there := closed ((follows.sound middle).closed_of_build middle applies' success')
  apply Store.parses_correspond Run.finished_of_outline_eq
  intro limit
  have calls : (final.mapBodies Parser.bare).call limit = (last.mapBodies Parser.bare).call limit := by
    apply Store.call_of_body?_eq
    intro address
    rw [Store.mapBodies_body?, Store.mapBodies_body?, alike address]
  rw [unbroken.outline_eq confined here limit, unbroken'.outline_eq confined' there limit, calls, bare]

/-- Words of one letter, with an action for their values. -/
def words (action : Action) : List (String × Expression) :=
  [("Word", .map (.many (.observed none "letter" (.literal "a"))) action)]

theorem words_apply {actions : Action → Prop} {action : Action} (allowed : actions action) :
    ∀ rule ∈ words action, rule.2.Applies actions := by
  have letter : Expression.Applies actions (.observed none "letter" (.literal "a")) :=
    Tree.every_of_children trivial
      (List.forall_mem_singleton.mpr (Tree.every_of_children trivial (List.forall_mem_nil _)))
  have word : Expression.Applies actions (.map (.many (.observed none "letter" (.literal "a"))) action) :=
    Tree.every_of_children allowed
      (List.forall_mem_singleton.mpr (Tree.every_of_children trivial (List.forall_mem_singleton.mpr letter)))
  exact List.forall_mem_singleton.mpr word

/-- Where its action returns, no parse with the rule is broken. -/
theorem words_unbroken {action : Action} (returns : action.Returns) {final : Store} {grammar : Grammar}
    {address : Address} (success : (build .empty .empty (words action)).outcome = .value (final, grammar))
    (found : grammar.find? "Word" = some address) (source : Source) (pos : Int) :
    final.Unbroken (.ref address) source pos := by
  have sound : Session.Sound Action.Returns .empty := Session.sound_empty
  have closed := sound.closed_of_build Action.returns_middle (words_apply returns) success
  have built := built_of_build within_empty success
  have allocated := (built.owns_iff.mp (owns_of_find? found)).2
  have confined : (Parser.ref address).Confined Action.Returns (· < final.cells.size) (Fault.Waits fun _ => False) :=
    Tree.every_of_children allocated (List.forall_mem_nil _)
  exact confined.unbroken closed source pos

/-- The same words are found, letter by letter, whether their letters are counted or the call is reported. -/
theorem words_counted_or_logged : ∃ own final last grammar rules address,
    (build .empty .empty (words .count)).outcome = .value (final, grammar) ∧
      (build .empty .empty (words (.log "word"))).outcome = .value (last, rules) ∧
      grammar.find? "Word" = some address ∧ rules = grammar ∧ ∀ source pos,
        ((∃ run, final.Parses (.ref address) source pos run) ↔ ∃ run, last.Parses (.ref address) source pos run) ∧
          ∀ run follow, final.Parses (.ref address) source pos run → last.Parses (.ref address) source pos follow →
            run.outline own = follow.outline own := by
  let own : Event → Bool := fun
    | .applied _ _ => true
    | _ => false
  have counts : Action.Reports own .count := Action.reports_ofValue own _
  have logs : Action.Reports own (.log "word") := fun value span => List.forall_mem_singleton.mpr rfl
  have ref (address : Address) : (Parser.ref address).Confined (Action.Reports own) (fun _ => True) fun _ => True :=
    Tree.every_of_children trivial (List.forall_mem_nil _)
  obtain ⟨final, last, grammar, rules, address, success, success', found⟩ : ∃ final last grammar rules address,
      (build .empty .empty (words .count)).outcome = .value (final, grammar) ∧
        (build .empty .empty (words (.log "word"))).outcome = .value (last, rules) ∧
        grammar.find? "Word" = some address := ⟨_, _, _, _, _, rfl, rfl, rfl⟩
  obtain ⟨rules_eq, parses⟩ := actions_never_steer .empty .empty rfl (fun _ => rfl) (words_apply counts)
    (words_apply logs) rfl success success'
  refine ⟨own, final, last, grammar, rules, address, success, success', found, rules_eq, fun source pos => ?_⟩
  have unbroken := words_unbroken (fun value span => ⟨_, rfl⟩) success found source pos
  have unbroken' := words_unbroken (fun value span => ⟨_, rfl⟩) success' (rules_eq ▸ found) source pos
  exact parses (.ref address) (.ref address) rfl (ref address) (ref address) source pos unbroken unbroken'

end Grammar

end RecursiveDescent
