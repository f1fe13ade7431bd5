import RecursiveDescent.Proofs.Parts

/-! # Parses in lockstep

Two parses may take the same way although they differ: in the actions that they apply, or in the text that
stands before the one that is parsed. `Lockstep` says which offsets, values and events of the two correspond.
Where those of leaves and actions do, the combinators keep the correspondence, since they compare offsets with
one another and with the end of the source, and look at nothing else.
-/

namespace RecursiveDescent

attribute [ext] Span Success Failure

/-- Two outcomes are of one kind: related answers, the same fault, or no end. -/
inductive Outcome.Related {α β : Type} (related : α → β → Prop) : Outcome α → Outcome β → Prop
  | value {answer : α} {other : β} (relates : related answer other) : Related related (.value answer) (.value other)
  | fault (cause : Fault) : Related related (.fault cause) (.fault cause)
  | unfinished : Related related .unfinished .unfinished

def Outcome.map {α β : Type} (change : α → β) : Outcome α → Outcome β
  | .value answer => .value (change answer)
  | .fault cause => .fault cause
  | .unfinished => .unfinished

namespace Outcome

variable {α β γ : Type} {outcome : Outcome α} {other : Outcome β}

theorem Related.mono {related weaker : α → β → Prop} (le : ∀ answer other, related answer other → weaker answer other)
    (relates : Related related outcome other) : Related weaker outcome other := by
  cases relates with
  | value relates => exact .value (le _ _ relates)
  | fault cause => exact .fault cause
  | unfinished => exact .unfinished

/-- Outcomes of one kind become the same, if related answers do. -/
theorem Related.map_eq {change : α → γ} {alternative : β → γ}
    (relates : Related (fun answer other => change answer = alternative other) outcome other) :
    outcome.map change = other.map alternative := by
  cases relates with
  | value same => exact congrArg Outcome.value same
  | fault cause => rfl
  | unfinished => rfl

@[simp] theorem map_id (outcome : Outcome α) : outcome.map id = outcome := by
  cases outcome <;> rfl

/-- An outcome of the same kind with a changed answer is the outcome, changed. -/
theorem Related.eq_map {change : α → β}
    (relates : Related (fun answer other => change answer = other) outcome other) : outcome.map change = other := by
  have same : outcome.map change = other.map id := relates.map_eq
  rwa [map_id] at same

theorem Related.eq {other : Outcome α} (relates : Related Eq outcome other) : outcome = other := by
  have same : outcome.map id = other := relates.eq_map
  rwa [map_id] at same

@[simp] theorem map_eq_unfinished {change : α → γ} : outcome.map change = .unfinished ↔ outcome = .unfinished := by
  cases outcome <;> simp [map]

end Outcome

/-- What corresponds in two parses that are made side by side. -/
structure Lockstep where
  /-- Offsets of the one parse and of the other. -/
  place : Int → Int → Prop
  value : Value → Value → Prop
  events : List Event → List Event → Prop
  /-- After such a fault of the first parse, the second may go its own way. -/
  excused : Fault → Prop

namespace Lockstep

variable (steps : Lockstep)

structure Spans (span other : Span) : Prop where
  start : steps.place span.start other.start
  stop : steps.place span.stop other.stop

inductive Results : Result → Result → Prop
  | success {found other : Success} (pos : steps.place found.pos other.pos) (span : steps.Spans found.span other.span)
      (value : steps.value found.value other.value) : Results (.success found) (.success other)
  | failure {missed other : Failure} (pos : steps.place missed.pos other.pos)
      (span : steps.Spans missed.span other.span) (expected : missed.expected = other.expected) :
      Results (.failure missed) (.failure other)

/-- Two chains of matches stop at corresponding offsets, with corresponding values. -/
structure Chains (chain other : Chain) : Prop where
  values : List.Forall₂ steps.value chain.values other.values
  stop : steps.place chain.stop other.stop

/-- Two attempts at a chain both fail, or both succeed. -/
inductive Attempts : Except Failure Chain → Except Failure Chain → Prop
  | ok {chain other : Chain} (chains : steps.Chains chain other) : Attempts (.ok chain) (.ok other)
  | error {missed other : Failure} (results : steps.Results (.failure missed) (.failure other)) :
      Attempts (.error missed) (.error other)

/-- Two runs correspond, or the first one stopped in a way that excuses the second. -/
def Runs {α β : Type} (related : α → β → Prop) (run : Run α) (other : Run β) : Prop :=
  (∃ cause, steps.excused cause ∧ run.outcome = .fault cause) ∨
    steps.events run.events other.events ∧ Outcome.Related related run.outcome other.outcome

/-- The runs of two matchers at corresponding offsets correspond. -/
def Matches (source other : Source) (matcher follower : Matcher) : Prop :=
  ∀ pos place, steps.place pos place → steps.Runs steps.Results (matcher source pos) (follower other place)

/-- What the combinators do with offsets, values and events respects the correspondence. -/
structure Lawful (source other : Source) : Prop where
  lt_iff : ∀ {pos place later farther}, steps.place pos place → steps.place later farther →
    (pos < later ↔ place < farther)
  lt_size_iff : ∀ {pos place}, steps.place pos place → (pos < source.size ↔ place < other.size)
  null : steps.value .null .null
  list : ∀ {values others}, List.Forall₂ steps.value values others → steps.value (.list values) (.list others)
  item : ∀ {value other}, steps.value value other → steps.value (value.item 1) (other.item 1)
  nil : steps.events [] []
  append : ∀ {events others later farther}, steps.events events others → steps.events later farther →
    steps.events (events ++ later) (others ++ farther)
  visited : ∀ observer {pos place}, steps.place pos place →
    steps.events [.visited observer pos] [.visited observer place]
  logged : ∀ entry, steps.events [.logged entry] [.logged entry]

namespace Lawful

variable {steps} {source other : Source} (lawful : steps.Lawful source other)
include lawful

/-- Offsets are equal where the corresponding ones are. -/
theorem eq_iff {pos place later farther : Int} (here : steps.place pos place) (there : steps.place later farther) :
    pos = later ↔ place = farther := by
  have before := lawful.lt_iff here there
  have after := lawful.lt_iff there here
  omega

/-! ## Runs -/

variable {α β γ δ : Type} {related : α → β → Prop} {follows : γ → δ → Prop}

theorem pure {answer : α} {answered : β} (relates : related answer answered) :
    steps.Runs related (pure answer) (Pure.pure answered) :=
  .inr ⟨lawful.nil, .value relates⟩

theorem unfinished : steps.Runs related Run.unfinished Run.unfinished :=
  .inr ⟨lawful.nil, .unfinished⟩

/-- Runs that correspond step by step correspond as a whole. -/
theorem bind {run : Run α} {follower : Run β} {next : α → Run γ} {nextFollower : β → Run δ}
    (first : steps.Runs related run follower)
    (second : ∀ answer answered, related answer answered →
      steps.Runs follows (next answer) (nextFollower answered)) :
    steps.Runs follows (run >>= next) (follower >>= nextFollower) := by
  obtain ⟨events, outcome⟩ := run
  obtain ⟨others, ended⟩ := follower
  rcases first with ⟨cause, excused, stopped⟩ | ⟨agree, outcomes⟩
  · cases stopped
    exact .inl ⟨cause, excused, rfl⟩
  · cases outcomes with
    | fault cause => exact .inr ⟨agree, .fault cause⟩
    | unfinished => exact .inr ⟨agree, .unfinished⟩
    | @value answer answered relates =>
      rcases second answer answered relates with ⟨cause, excused, stopped⟩ | ⟨later, outcomes⟩
      · exact .inl ⟨cause, excused, stopped⟩
      · exact .inr ⟨lawful.append agree later, outcomes⟩

/-! ## Matchers -/

variable {child follower item separator first second : Matcher} {children followers rest : List Matcher}
  {itemFollower separatorFollower firstFollower secondFollower : Matcher}

theorem matches_nothing : steps.Matches source other Matcher.nothing Matcher.nothing :=
  fun _ _ here => lawful.pure (.success here ⟨here, here⟩ lawful.null)

theorem matches_map {action change : Action}
    (applied : ∀ {value value' span span'}, steps.value value value' → steps.Spans span span' →
      steps.Runs steps.value (action value span) (change value' span'))
    (agree : steps.Matches source other child follower) :
    steps.Matches source other (Matcher.map child action) (Matcher.map follower change) := by
  intro pos place here
  apply lawful.bind (agree pos place here)
  rintro _ _ (⟨stop, span, value⟩ | ⟨stop, span, expected⟩)
  · exact lawful.bind (applied value span) fun _ _ value => lawful.pure (.success stop span value)
  · exact lawful.pure (.failure stop span expected)

theorem matches_observed (observer : String) (agree : steps.Matches source other child follower) :
    steps.Matches source other (Matcher.observed observer child) (Matcher.observed observer follower) := by
  intro pos place here
  have emits : steps.Runs (fun _ _ => True) (Run.emit (.visited observer pos)) (Run.emit (.visited observer place)) :=
    .inr ⟨lawful.visited observer here, .value trivial⟩
  exact lawful.bind emits fun _ _ _ => agree pos place here

theorem runs_chain (agree : List.Forall₂ (steps.Matches source other) children followers) {pos place : Int}
    (here : steps.place pos place) :
    steps.Runs steps.Attempts (Matcher.chain source children pos) (Matcher.chain other followers place) := by
  induction agree generalizing pos place with
  | nil => exact lawful.pure (.ok ⟨.nil, here⟩)
  | cons child _ ih =>
    apply lawful.bind (child pos place here)
    rintro _ _ (⟨stop, span, value⟩ | ⟨stop, span, expected⟩)
    · apply lawful.bind (ih stop)
      rintro _ _ (⟨chains⟩ | ⟨results⟩)
      · exact lawful.pure (.ok ⟨.cons value chains.values, chains.stop⟩)
      · exact lawful.pure (.error results)
    · exact lawful.pure (.error (.failure stop span expected))

theorem matches_sequence (agree : List.Forall₂ (steps.Matches source other) children followers) :
    steps.Matches source other (Matcher.sequence children) (Matcher.sequence followers) := by
  intro pos place here
  apply lawful.bind (lawful.runs_chain agree here)
  rintro _ _ (⟨chains⟩ | ⟨results⟩)
  · exact lawful.pure (.success chains.stop ⟨here, chains.stop⟩ (lawful.list chains.values))
  · exact lawful.pure results

/-- Of two failures, the further one is chosen on both sides. -/
theorem furthest {missed later missed' later' : Failure} (one : steps.Results (.failure missed) (.failure missed'))
    (two : steps.Results (.failure later) (.failure later')) :
    steps.Results (.failure (Matcher.furthest missed later)) (.failure (Matcher.furthest missed' later')) := by
  obtain ⟨stop⟩ | ⟨stop⟩ := one
  obtain ⟨further⟩ | ⟨further⟩ := two
  simp only [Matcher.furthest, lawful.lt_iff stop further]
  split <;> constructor <;> assumption

theorem matches_orElse (agreeFirst : steps.Matches source other first firstFollower)
    (agreeSecond : steps.Matches source other second secondFollower) :
    steps.Matches source other (Matcher.orElse first second) (Matcher.orElse firstFollower secondFollower) := by
  intro pos place here
  apply lawful.bind (agreeFirst pos place here)
  rintro _ _ (⟨stop, span, value⟩ | ⟨stop, span, expected⟩)
  · exact lawful.pure (.success stop span value)
  · apply lawful.bind (agreeSecond pos place here)
    rintro _ _ (⟨further, range, value⟩ | ⟨further, range, label⟩)
    · exact lawful.pure (.success further range value)
    · exact lawful.pure (lawful.furthest (.failure stop span expected) (.failure further range label))

theorem matches_choice (agreeFirst : steps.Matches source other first firstFollower)
    (agree : List.Forall₂ (steps.Matches source other) rest followers) :
    steps.Matches source other (Matcher.choice first rest) (Matcher.choice firstFollower followers) := by
  induction agree generalizing first firstFollower with
  | nil => exact agreeFirst
  | cons second _ ih => exact ih (lawful.matches_orElse agreeFirst second)

/-- Loops go round equally often: whether one goes on depends on offsets that are compared with each other. -/
theorem runs_rounds (agree : steps.Matches source other child follower) (limit : Nat) {pos place : Int}
    (here : steps.place pos place) :
    steps.Runs steps.Chains (Matcher.rounds child source limit pos) (Matcher.rounds follower other limit place) := by
  induction limit generalizing pos place with
  | zero => exact lawful.unfinished
  | succ limit ih =>
    simp only [Matcher.rounds, lawful.lt_size_iff here]
    split
    · apply lawful.bind (agree pos place here)
      rintro _ _ (⟨stop, span, value⟩ | _)
      · simp only [lawful.eq_iff stop here]
        split
        · exact lawful.pure ⟨.nil, here⟩
        · exact lawful.bind (ih stop) fun _ _ chains => lawful.pure ⟨.cons value chains.values, chains.stop⟩
      · exact lawful.pure ⟨.nil, here⟩
    · exact lawful.pure ⟨.nil, here⟩

theorem matches_many (agree : steps.Matches source other child follower) (limit : Nat) :
    steps.Matches source other (Matcher.many limit child) (Matcher.many limit follower) := by
  intro pos place here
  apply lawful.bind (lawful.runs_rounds agree limit here)
  intro _ _ chains
  exact lawful.pure (.success chains.stop ⟨here, chains.stop⟩ (lawful.list chains.values))

theorem matches_sepBy (agreeItem : steps.Matches source other item itemFollower)
    (agreeSeparator : steps.Matches source other separator separatorFollower) (limit : Nat) :
    steps.Matches source other (Matcher.sepBy limit item separator)
      (Matcher.sepBy limit itemFollower separatorFollower) := by
  intro pos place here
  apply lawful.bind (agreeItem pos place here)
  rintro _ _ (⟨stop, span, head⟩ | _)
  · have pair : steps.Matches source other (Matcher.sequence [separator, item])
        (Matcher.sequence [separatorFollower, itemFollower]) :=
      lawful.matches_sequence (.cons agreeSeparator (.cons agreeItem .nil))
    apply lawful.bind (lawful.runs_rounds pair limit stop)
    intro tail tail' chains
    have items : List.Forall₂ steps.value (tail.values.map (Value.item 1)) (tail'.values.map (Value.item 1)) :=
      List.forall₂_map_left_iff.mpr (List.forall₂_map_right_iff.mpr (chains.values.imp fun _ _ => lawful.item))
    exact lawful.pure (.success chains.stop ⟨here, chains.stop⟩ (lawful.list (.cons head items)))
  · exact lawful.pure (.success here ⟨here, here⟩ (lawful.list .nil))

end Lawful

end Lockstep

/-- If two parses correspond within every limit, one of them comes to an end if and only if the other does, and the
runs in which they end correspond. -/
theorem Store.parses_correspond {store other : Store} {parser follower : Parser} {source text : Source}
    {pos place : Int} {related : Run Result → Run Result → Prop}
    (ends : ∀ {run follow}, related run follow → (run.Finished ↔ follow.Finished))
    (each : ∀ limit, related (parser.matcher limit (store.call limit) source pos)
      (follower.matcher limit (other.call limit) text place)) :
    ((∃ run, store.Parses parser source pos run) ↔ ∃ run, other.Parses follower text place run) ∧
      ∀ run follow, store.Parses parser source pos run → other.Parses follower text place follow →
        related run follow := by
  refine ⟨⟨?_, ?_⟩, ?_⟩
  · rintro ⟨_, finished, limit, rfl⟩
    exact ⟨_, (ends (each limit)).mp finished, limit, rfl⟩
  · rintro ⟨_, finished, limit, rfl⟩
    exact ⟨_, (ends (each limit)).mpr finished, limit, rfl⟩
  · rintro _ _ ⟨finished, limit, rfl⟩ ⟨ended, more, rfl⟩
    rw [← matcher_of_finished finished (Nat.le_max_left limit more),
      ← matcher_of_finished ended (Nat.le_max_right limit more)]
    exact each (max limit more)

end RecursiveDescent
