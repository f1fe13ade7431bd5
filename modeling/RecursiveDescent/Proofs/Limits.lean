import Mathlib.Data.List.Forall2
import RecursiveDescent.Proofs.Trees

/-! # Limits do not change answers

A limit bounds how deep calls nest and how often loops go round. What settles within one limit is the
same within every greater one, so a parse has at most one run that comes to an end, and `Store.Parses`
speaks of that run without naming a limit.

The comparison is between matchers: one extends another if it repeats every run of the other that
settles. A run settles if it answers, or if it stops with a fault of a chosen kind; the choice lets the
same lemmas compare parses before and after the missing rules of a grammar are installed.
-/

namespace RecursiveDescent

namespace Run

variable {α β : Type} {final : Fault → Prop}

def Finished (run : Run α) : Prop := run.outcome ≠ .unfinished

/-- Whether a run answered, or stopped with a fault that counts as `final`. -/
def Settled (final : Fault → Prop) (run : Run α) : Prop :=
  match run.outcome with
  | .value _ => True
  | .fault cause => final cause
  | .unfinished => False

/-- The longer run is the shorter one, if that settled. -/
def Extends (final : Fault → Prop) (longer shorter : Run α) : Prop :=
  shorter.Settled final → longer = shorter

def answer? (run : Run α) : Option α :=
  match run.outcome with
  | .value answer => some answer
  | _ => none

theorem exists_of_answer? {run : Run α} (answered : run.answer?.isSome = true) :
    ∃ answer, run.outcome = .value answer := by
  obtain ⟨events, outcome⟩ := run
  cases outcome with
  | value answer => exact ⟨answer, rfl⟩
  | fault cause => cases answered
  | unfinished => cases answered

theorem exists_accepted_of_answer? {run : Run α} {accepts : α → Bool} (answered : run.answer?.any accepts = true) :
    ∃ answer, run.outcome = .value answer ∧ accepts answer = true := by
  obtain ⟨events, outcome⟩ := run
  cases outcome with
  | value answer => exact ⟨answer, rfl, answered⟩
  | fault cause => cases answered
  | unfinished => cases answered

theorem exists_success_of_answer? {run : Run Result} (answered : run.answer?.any Result.isSuccess = true) :
    ∃ found, run.outcome = .value (.success found) := by
  obtain ⟨result, outcome, success⟩ := exists_accepted_of_answer? answered
  cases result with
  | success found => exact ⟨found, outcome⟩
  | failure missed => cases success

theorem exists_failure_of_answer? {run : Run Result} (answered : run.answer?.any (!·.isSuccess) = true) :
    ∃ missed, run.outcome = .value (.failure missed) := by
  obtain ⟨result, outcome, failure⟩ := exists_accepted_of_answer? answered
  cases result with
  | success found => cases failure
  | failure missed => exact ⟨missed, outcome⟩

theorem settled_of_value {run : Run α} {answer : α} (answered : run.outcome = .value answer) :
    run.Settled final := by
  simp only [Settled, answered]

/-- With every fault final, to settle is to finish. -/
theorem settled_iff_finished {run : Run α} : run.Settled (fun _ => True) ↔ run.Finished := by
  obtain ⟨events, outcome⟩ := run
  cases outcome <;> simp [Settled, Finished]

@[simp] theorem bind_outcome {run : Run α} {next : α → Run β} {answer : β} :
    (run >>= next).outcome = .value answer ↔
      ∃ middle, run.outcome = .value middle ∧ (next middle).outcome = .value answer := by
  obtain ⟨events, outcome⟩ := run
  cases outcome <;> simp [bind, andThen, after]

/-- A run in two parts stops with a fault in the first part, or in the second. -/
theorem bind_fault {run : Run α} {next : α → Run β} {cause : Fault} :
    (run >>= next).outcome = .fault cause ↔
      run.outcome = .fault cause ∨ ∃ middle, run.outcome = .value middle ∧ (next middle).outcome = .fault cause := by
  obtain ⟨events, outcome⟩ := run
  cases outcome <;> simp [bind, andThen, after]

@[simp] theorem map_outcome {run : Run α} {change : α → β} {answer : β} :
    (change <$> run).outcome = .value answer ↔ ∃ middle, run.outcome = .value middle ∧ change middle = answer := by
  rw [← bind_pure_comp]
  simp only [bind_outcome, pure_outcome, Outcome.value.injEq]

@[simp] theorem ofExcept_outcome {found : Except Fault α} {answer : α} :
    (ofExcept found).outcome = .value answer ↔ found = .ok answer := by
  cases found <;> simp [ofExcept, stop]

/-- A run that settles has a beginning that does, and if that answered, so does what comes next. -/
theorem settled_bind {run : Run α} {next : α → Run β} (settled : (run >>= next).Settled final) :
    run.Settled final ∧ ∀ answer, run.outcome = .value answer → (next answer).Settled final := by
  obtain ⟨events, outcome⟩ := run
  cases outcome with
  | value answer =>
    refine ⟨trivial, ?_⟩
    rintro other ⟨⟩
    simpa only [Settled, bind, andThen, after] using settled
  | fault cause => exact ⟨settled, by rintro other ⟨⟩⟩
  | unfinished => exact settled.elim

theorem extends_refl (run : Run α) : run.Extends final run := fun _ => rfl

theorem extends_unfinished (longer : Run α) : longer.Extends final unfinished := fun settled => settled.elim

theorem Extends.trans {longest longer shorter : Run α} (first : longest.Extends final longer)
    (second : longer.Extends final shorter) : longest.Extends final shorter := by
  intro settled
  have same := second settled
  exact (first (same ▸ settled)).trans same

/-- Runs that extend each other step by step extend each other as a whole. -/
theorem extends_bind {longer shorter : Run α} {longerNext next : α → Run β}
    (first : longer.Extends final shorter)
    (second : ∀ answer, shorter.outcome = .value answer → (longerNext answer).Extends final (next answer)) :
    (longer >>= longerNext).Extends final (shorter >>= next) := by
  intro settled
  obtain ⟨began, went⟩ := settled_bind settled
  rw [first began]
  obtain ⟨events, outcome⟩ := shorter
  cases outcome with
  | value answer =>
    have same := second answer rfl (went answer rfl)
    simp only [bind, andThen, same]
  | fault cause => rfl
  | unfinished => rfl

end Run

namespace Matcher

variable {final : Fault → Prop} {longer shorter : Matcher} {longers shorters : List Matcher}

/-- One matcher repeats every run of another that settles. -/
def Extends (final : Fault → Prop) (longer shorter : Matcher) : Prop :=
  ∀ source pos, (longer source pos).Extends final (shorter source pos)

theorem extends_refl (matcher : Matcher) : matcher.Extends final matcher :=
  fun source pos => (matcher source pos).extends_refl

theorem Extends.trans {longest : Matcher} (first : longest.Extends final longer)
    (second : longer.Extends final shorter) : longest.Extends final shorter :=
  fun source pos => (first source pos).trans (second source pos)

theorem extends_map (action : Action) (child : longer.Extends final shorter) :
    (map longer action).Extends final (map shorter action) := by
  intro source pos
  exact Run.extends_bind (child source pos) fun result _ => Run.extends_refl _

theorem extends_observed (observer : String) (child : longer.Extends final shorter) :
    (observed observer longer).Extends final (observed observer shorter) := by
  intro source pos
  exact Run.extends_bind (Run.extends_refl _) fun _ _ => child source pos

theorem extends_chain (source : Source) (children : List.Forall₂ (Extends final) longers shorters) (pos : Int) :
    (chain source longers pos).Extends final (chain source shorters pos) := by
  induction children generalizing pos with
  | nil => exact Run.extends_refl _
  | cons child _ ih =>
    apply Run.extends_bind (child source pos)
    intro result _
    cases result with
    | failure missed => exact Run.extends_refl _
    | success found => exact Run.extends_bind (ih found.pos) fun _ _ => Run.extends_refl _

theorem extends_sequence (children : List.Forall₂ (Extends final) longers shorters) :
    (sequence longers).Extends final (sequence shorters) := by
  intro source pos
  exact Run.extends_bind (extends_chain source children pos) fun _ _ => Run.extends_refl _

theorem extends_orElse {longer' shorter' : Matcher} (first : longer.Extends final shorter)
    (second : longer'.Extends final shorter') :
    (orElse longer longer').Extends final (orElse shorter shorter') := by
  intro source pos
  apply Run.extends_bind (first source pos)
  intro result _
  cases result with
  | success found => exact Run.extends_refl _
  | failure missed => exact Run.extends_bind (second source pos) fun _ _ => Run.extends_refl _

theorem extends_choice (first : longer.Extends final shorter)
    (rest : List.Forall₂ (Extends final) longers shorters) :
    (choice longer longers).Extends final (choice shorter shorters) := by
  induction rest generalizing longer shorter with
  | nil => exact first
  | cons second _ ih => exact ih (extends_orElse first second)

theorem extends_rounds {limit more : Nat} (source : Source) (child : longer.Extends final shorter)
    (le : limit ≤ more) (pos : Int) :
    (rounds longer source more pos).Extends final (rounds shorter source limit pos) := by
  induction limit generalizing more pos with
  | zero => exact Run.extends_unfinished _
  | succ limit ih =>
    obtain ⟨more, rfl⟩ : ∃ least, more = least + 1 := ⟨more - 1, by omega⟩
    simp only [rounds]
    split
    · apply Run.extends_bind (child source pos)
      intro result _
      cases result with
      | failure missed => exact Run.extends_refl _
      | success found =>
        dsimp only
        split
        · exact Run.extends_refl _
        · exact Run.extends_bind (ih (by omega) found.pos) fun _ _ => Run.extends_refl _
    · exact Run.extends_refl _

theorem extends_many {limit more : Nat} (child : longer.Extends final shorter) (le : limit ≤ more) :
    (many more longer).Extends final (many limit shorter) := by
  intro source pos
  exact Run.extends_bind (extends_rounds source child le pos) fun _ _ => Run.extends_refl _

theorem extends_sepBy {limit more : Nat} {longer' shorter' : Matcher} (item : longer.Extends final shorter)
    (separator : longer'.Extends final shorter') (le : limit ≤ more) :
    (sepBy more longer longer').Extends final (sepBy limit shorter shorter') := by
  intro source pos
  apply Run.extends_bind (item source pos)
  intro result _
  cases result with
  | failure missed => exact Run.extends_refl _
  | success head =>
    have pair : (sequence [longer', longer]).Extends final (sequence [shorter', shorter]) :=
      extends_sequence (.cons separator (.cons item .nil))
    exact Run.extends_bind (extends_rounds source pair le head.pos) fun _ _ => Run.extends_refl _

end Matcher

namespace Parser

/-- A tree denotes a matcher that extends another, if the calls that it makes do, and a placeholder is
either the same or of no account. -/
theorem matcher_extends {final : Fault → Prop} {limit more : Nat} {longer shorter : Address → Matcher}
    (calls : ∀ address, (longer address).Extends final (shorter address)) (le : limit ≤ more)
    (parser : Parser) : (parser.matcher more longer).Extends final (parser.matcher limit shorter) := by
  induction parser with
  | literal _ | pattern _ _ | nothing | integer | float | fixed _ | unpatched _ | foreign _ =>
    exact Matcher.extends_refl _
  | map child action ih => exact Matcher.extends_map action ih
  | sequence children ih =>
    simp only [matcher, matchers_eq_map]
    apply Matcher.extends_sequence
    simpa only [List.forall₂_map_left_iff, List.forall₂_map_right_iff, List.forall₂_same] using ih
  | choice first rest ihFirst ihRest =>
    simp only [matcher, matchers_eq_map]
    apply Matcher.extends_choice ihFirst
    simpa only [List.forall₂_map_left_iff, List.forall₂_map_right_iff, List.forall₂_same] using ihRest
  | many child ih => exact Matcher.extends_many ih le
  | sepBy item separator ihItem ihSeparator => exact Matcher.extends_sepBy ihItem ihSeparator le
  | observed observer child ih => exact Matcher.extends_observed observer ih
  | ref address => exact calls address

end Parser

namespace Store

variable {final : Fault → Prop} {fuller store : Store}

def body? (store : Store) (address : Address) : Option Parser :=
  store.cells[address]?.map (·.behaviour.body)

theorem call_of_body {address : Address} {body : Parser} (stored : store.body? address = some body)
    (limit : Nat) : store.call (limit + 1) address = body.matcher limit (store.call limit) := by
  obtain ⟨cell, present, rfl⟩ := Option.map_eq_some_iff.mp stored
  simp only [call, present]

theorem call_of_none {address : Address} (missing : store.body? address = none) (limit : Nat) :
    store.call limit address = fun _ _ => .unfinished := by
  cases limit with
  | zero => rfl
  | succ limit => simp only [call, Option.map_eq_none_iff.mp missing]

/-- A call that comes to an end found a body, and had a limit to spend. -/
theorem body_of_finished {address : Address} {limit : Nat} {source : Source} {pos : Int}
    (finished : (store.call limit address source pos).Finished) :
    ∃ body least, store.body? address = some body ∧ limit = least + 1 := by
  cases limit with
  | zero => exact (finished rfl).elim
  | succ least =>
    cases stored : store.body? address with
    | none => exact (finished (by rw [call_of_none stored]; rfl)).elim
    | some body => exact ⟨body, least, rfl, rfl⟩

/-- Every parser of a store is found in another at the same address, unless it is a placeholder whose
use is no `final` fault. -/
def Completes (final : Fault → Prop) (fuller store : Store) : Prop :=
  ∀ address body, store.body? address = some body →
    (∃ rule, body = .unpatched rule ∧ ¬final (.unpatchedRule rule)) ∨ fuller.body? address = some body

theorem completes_refl (store : Store) : store.Completes final store :=
  fun _ _ stored => .inr stored

/-- A call that settles is the same with a greater limit, and with placeholders replaced. -/
theorem call_extends (completes : fuller.Completes final store) {limit more : Nat} (le : limit ≤ more)
    (address : Address) : (fuller.call more address).Extends final (store.call limit address) := by
  induction limit generalizing more address with
  | zero => exact fun source pos => Run.extends_unfinished _
  | succ limit ih =>
    obtain ⟨more, rfl⟩ : ∃ least, more = least + 1 := ⟨more - 1, by omega⟩
    have shorter : limit ≤ more := by omega
    cases stored : store.body? address with
    | none =>
      rw [call_of_none stored]
      exact fun source pos => Run.extends_unfinished _
    | some body =>
      rw [call_of_body stored]
      rcases completes address body stored with ⟨rule, rfl, notFinal⟩ | same
      · intro source pos settled
        exact (notFinal settled).elim
      · rw [call_of_body same]
        exact Parser.matcher_extends (ih shorter) shorter body

/-- The run of a parser on a source at an offset, as any limit gives it within which it ends. -/
def Parses (store : Store) (parser : Parser) (source : Source) (pos : Int) (run : Run Result) : Prop :=
  run.Finished ∧ ∃ limit, parser.matcher limit (store.call limit) source pos = run

variable {parser : Parser} {source : Source} {pos : Int} {run other : Run Result}

/-- Whatever greater limit is chosen, a finished parse stays what it is. -/
theorem matcher_of_finished {limit more : Nat}
    (finished : (parser.matcher limit (store.call limit) source pos).Finished) (le : limit ≤ more) :
    parser.matcher more (store.call more) source pos = parser.matcher limit (store.call limit) source pos :=
  Parser.matcher_extends (call_extends store.completes_refl le) le parser source pos
    (Run.settled_iff_finished.mpr finished)

/-- A parse has one run at most. -/
theorem Parses.unique (first : store.Parses parser source pos run) (second : store.Parses parser source pos other) :
    run = other := by
  obtain ⟨finished, limit, rfl⟩ := first
  obtain ⟨ended, more, rfl⟩ := second
  rcases Nat.le_total limit more with le | le
  · exact (matcher_of_finished finished le).symm
  · exact matcher_of_finished ended le

/-- The parse that is carried out, if it comes to an end, is the parse. -/
theorem parses_of_finished (finished : (store.matcher parser source pos).Finished) :
    store.Parses parser source pos (store.matcher parser source pos) :=
  ⟨finished, store.limit source pos, rfl⟩

end Store

end RecursiveDescent
