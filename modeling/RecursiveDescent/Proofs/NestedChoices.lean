import RecursiveDescent.Proofs.Alternatives

/-! # Choices within choices

A choice may be an alternative of another choice. To try one alternative after another is associative, since of
three failures the first one that got furthest is the same however they are compared: so the inner choice may be
replaced by its alternatives, and nothing changes in what is tried, in which order and where, nor in the outcome.

An alternative that stands a second time in a choice changes no outcome. When its second turn comes, it has failed
already, and its failure does not get further than the one that is kept: what it adds is one more attempt.
-/

namespace RecursiveDescent

/-! ## One run after another -/

/-- Of three failures the same one leads however they are compared. -/
theorem Matcher.furthest_assoc (first second third : Failure) :
    furthest (furthest first second) third = furthest first (furthest second third) := by
  simp only [furthest]
  grind

theorem Matcher.le_furthest_left (first second : Failure) : first.pos ≤ (furthest first second).pos := by
  simp only [furthest]
  split <;> omega

theorem Matcher.le_furthest_right (first second : Failure) : second.pos ≤ (furthest first second).pos := by
  simp only [furthest]
  split <;> omega

namespace Run

variable {α β : Type} {run again : Run Result}

/-- Go on with a second run where the first one fails; of two failures the furthest is kept. -/
def orElse (first second : Run Result) : Run Result := do
  match ← first with
  | .success found => return .success found
  | .failure missed =>
      match ← second with
      | .success found => return .success found
      | .failure later => return .failure (Matcher.furthest missed later)

theorem orElse_assoc (first second third : Run Result) :
    (first.orElse second).orElse third = first.orElse (second.orElse third) := by
  simp only [orElse, bind_assoc]
  refine bind_congr fun result => ?_
  cases result with
  | success found => simp only [pure_bind]
  | failure missed =>
    dsimp only
    simp only [bind_assoc]
    refine bind_congr fun result => ?_
    cases result with
    | success found => simp only [pure_bind]
    | failure later =>
      dsimp only
      simp only [pure_bind, bind_assoc]
      refine bind_congr fun result => ?_
      cases result with
      | success found => simp only [pure_bind]
      | failure last => simp only [pure_bind, Matcher.furthest_assoc]

/-- The second run is reached only where the first one fails. -/
theorem orElse_events (first second : Run Result) :
    (first.orElse second).events =
      first.events ++ match first.outcome with
        | .value (.failure _) => second.events
        | _ => [] := by
  obtain ⟨events, outcome⟩ := first
  cases outcome with
  | fault cause => exact (List.append_nil _).symm
  | unfinished => exact (List.append_nil _).symm
  | value result =>
    cases result with
    | success found => rfl
    | failure missed =>
      refine congrArg (events ++ ·) ?_
      obtain ⟨others, outcome⟩ := second
      cases outcome with
      | value result => cases result <;> exact List.append_nil _
      | fault cause => rfl
      | unfinished => rfl

/-- A run comes to the same end as another, and what is observed in it is observed in the other, in the same order. -/
structure Abridges (shorter longer : Run α) : Prop where
  outcome : shorter.outcome = longer.outcome
  events : shorter.events.Sublist longer.events

theorem abridges_refl (run : Run α) : run.Abridges run := ⟨rfl, List.Sublist.refl _⟩

theorem Abridges.bind {shorter longer : Run α} {next follow : α → Run β} (first : shorter.Abridges longer)
    (second : ∀ answer, (next answer).Abridges (follow answer)) : (shorter >>= next).Abridges (longer >>= follow) := by
  obtain ⟨events, outcome⟩ := shorter
  obtain ⟨others, _⟩ := longer
  obtain ⟨rfl, fewer⟩ := first
  cases outcome with
  | value answer => exact ⟨(second answer).outcome, fewer.append (second answer).events⟩
  | fault cause => exact ⟨rfl, fewer⟩
  | unfinished => exact ⟨rfl, fewer⟩

theorem Abridges.orElse {shorter longer less more : Run Result} (first : shorter.Abridges longer)
    (second : less.Abridges more) : (shorter.orElse less).Abridges (longer.orElse more) := by
  apply first.bind
  intro result
  cases result with
  | success found => exact abridges_refl _
  | failure missed => exact second.bind fun _ => abridges_refl _

/-- A second run may be left out if it gets no further, wherever the first one fails. -/
theorem abridges_orElse (behind : ∀ missed, run.outcome = .value (.failure missed) →
      ∃ other : Failure, again.outcome = .value (.failure other) ∧ other.pos ≤ missed.pos) :
    run.Abridges (run.orElse again) := by
  obtain ⟨events, outcome⟩ := run
  cases outcome with
  | fault cause => exact abridges_refl _
  | unfinished => exact abridges_refl _
  | value result =>
    cases result with
    | success found => exact ⟨rfl, List.sublist_append_left _ _⟩
    | failure missed =>
      obtain ⟨other, fails, le⟩ := behind missed rfl
      have kept : Matcher.furthest missed other = missed := if_neg (Int.not_lt.mpr le)
      have both : (Run.orElse ⟨events, .value (.failure missed)⟩ again).outcome = .value (.failure missed) :=
        bind_outcome.mpr ⟨_, rfl, bind_outcome.mpr ⟨_, fails, congrArg (Outcome.value ∘ Result.failure) kept⟩⟩
      exact ⟨both.symm, List.sublist_append_left _ _⟩

end Run

namespace Matcher

variable {source : Source} {pos : Int} {matcher first second : Matcher} {earlier rest : List Matcher} {missed : Failure}

theorem orElse_assoc (first second third : Matcher) :
    orElse (orElse first second) third = orElse first (orElse second third) :=
  funext fun source => funext fun pos => Run.orElse_assoc (first source pos) (second source pos) (third source pos)

/-- Two alternatives are run at one place, one after another. -/
theorem orElse_eq (first second : Matcher) (source : Source) (pos : Int) :
    orElse first second source pos = (first source pos).orElse (second source pos) := rfl

instance : Std.Associative orElse := ⟨orElse_assoc⟩

/-- After its first alternative, a choice goes on as the choice between the others. -/
theorem choice_cons (first second : Matcher) (rest : List Matcher) :
    choice first (second :: rest) = orElse first (choice second rest) :=
  List.foldl_assoc

theorem choice_append (first : Matcher) (earlier later : List Matcher) :
    choice first (earlier ++ later) = choice (choice first earlier) later :=
  List.foldl_append

/-- A choice between alternatives that come after others may be replaced by these alternatives. -/
theorem choice_nested (head first : Matcher) (before rest after : List Matcher) :
    choice head (before ++ choice first rest :: after) = choice head (before ++ first :: rest ++ after) := by
  calc choice head (before ++ choice first rest :: after)
      = choice (orElse (choice head before) (choice first rest)) after := choice_append ..
    _ = choice (choice (choice head before) (first :: rest)) after := by rw [choice_cons]
    _ = choice head (before ++ first :: rest ++ after) := by rw [choice_append, choice_append]

/-- The alternatives that are tried: each of them until one does not fail. -/
def tried (source : Source) (pos : Int) : List Matcher → List Matcher
  | [] => []
  | first :: rest =>
      first :: match (first source pos).outcome with
        | .value (.failure _) => tried source pos rest
        | _ => []

/-- What is observed in a choice is what is observed when the alternatives that are tried are run one after another. -/
theorem choice_events (first : Matcher) (rest : List Matcher) (source : Source) (pos : Int) :
    (choice first rest source pos).events = trials (tried source pos (first :: rest)) source pos := by
  induction rest generalizing first with
  | nil =>
    simp only [tried, trials, List.flatMap_cons]
    split <;> exact (List.append_nil _).symm
  | cons second rest ih =>
    rw [choice_cons, orElse_eq, Run.orElse_events, ih, tried, trials, List.flatMap_cons]
    congr 1
    split <;> rfl

theorem orElse_fails_iff : (orElse first second).Fails source pos missed ↔
    ∃ early late, first.Fails source pos early ∧ second.Fails source pos late ∧ missed = furthest early late := by
  constructor
  · intro fails
    obtain ⟨result, tried, fails⟩ := Run.bind_outcome.mp fails
    cases result with
    | success found => cases fails
    | failure early =>
      obtain ⟨result, triedLater, fails⟩ := Run.bind_outcome.mp fails
      cases result with
      | success found => cases fails
      | failure late => cases fails; exact ⟨early, late, tried, triedLater, rfl⟩
  · rintro ⟨early, late, fails, failsLater, rfl⟩
    exact congrArg Run.outcome (orElse_of_fails fails failsLater)

/-- Where a choice fails, all of its alternatives have failed, and none got further. -/
theorem fails_of_choice (fails : (choice first rest).Fails source pos missed) :
    ∀ matcher ∈ first :: rest, ∃ other, matcher.Fails source pos other ∧ other.pos ≤ missed.pos := by
  induction rest generalizing first missed with
  | nil => exact List.forall_mem_singleton.mpr ⟨missed, fails, Int.le_refl _⟩
  | cons second rest ih =>
    rw [choice_cons] at fails
    obtain ⟨early, late, failsFirst, failsLater, rfl⟩ := orElse_fails_iff.mp fails
    refine List.forall_mem_cons.mpr ⟨⟨early, failsFirst, le_furthest_left early late⟩, fun matcher member => ?_⟩
    obtain ⟨other, failsOther, le⟩ := ih failsLater matcher member
    exact ⟨other, failsOther, Int.le_trans le (le_furthest_right early late)⟩

theorem abridges_choice (abridges : (first source pos).Abridges (second source pos)) (rest : List Matcher) :
    (choice first rest source pos).Abridges (choice second rest source pos) := by
  cases rest with
  | nil => exact abridges
  | cons other rest =>
    rw [choice_cons, choice_cons]
    exact abridges.orElse (Run.abridges_refl _)

/-- An alternative may be left out if it stands among those before it. -/
theorem choice_abridges_of_mem (member : matcher ∈ first :: earlier) (later : List Matcher) (source : Source)
    (pos : Int) :
    (choice first (earlier ++ later) source pos).Abridges (choice first (earlier ++ matcher :: later) source pos) := by
  rw [choice_append, choice_append]
  -- What comes later goes on from the choice among the earlier ones, with or without one more attempt after it.
  apply abridges_choice
  exact Run.abridges_orElse fun missed fails => fails_of_choice fails matcher member

/-- A choice among other alternatives may be replaced by its own alternatives: that makes the same matcher. So what
is tried is found in one list of alternatives, from its beginning to the first that does not fail, and all of it at
the offset of the outer choice. An alternative that stands among those before it may be left out: the outcome stays
what it is, and nothing is observed that was not observed with it. -/
theorem choices_flatten (head first repeated : Matcher) (before rest after : List Matcher) :
    (choice (choice first rest) after = choice first (rest ++ after) ∧
      ∀ source pos, (choice (choice first rest) after source pos).events =
        trials (tried source pos (first :: (rest ++ after))) source pos) ∧
    (choice head (before ++ choice first rest :: after) = choice head (before ++ first :: rest ++ after) ∧
      ∀ source pos, (choice head (before ++ choice first rest :: after) source pos).events =
        trials (tried source pos (head :: (before ++ first :: rest ++ after))) source pos) ∧
    (repeated ∈ head :: before → ∀ source pos,
      (choice head (before ++ repeated :: after) source pos).outcome =
        (choice head (before ++ after) source pos).outcome ∧
      (choice head (before ++ after) source pos).events.Sublist
        (choice head (before ++ repeated :: after) source pos).events) := by
  have joined : choice (choice first rest) after = choice first (rest ++ after) := (choice_append ..).symm
  have nested := choice_nested head first before rest after
  refine ⟨⟨joined, fun source pos => ?_⟩, ⟨nested, fun source pos => ?_⟩, fun member source pos => ?_⟩
  · rw [joined]
    exact choice_events ..
  · rw [nested]
    exact choice_events ..
  · have abridges := choice_abridges_of_mem member after source pos
    exact ⟨abridges.outcome.symm, abridges.events⟩

def near : Matcher := reporting "near" (.failure ⟨1, ⟨0, 1⟩, "near"⟩)

/-- The failure that leads is met a second time, and does not take the lead from itself. -/
theorem far_repeated :
    far ∈ [far, near] ∧
      (choice far [near, far] ⟨#[]⟩ 7).events = [.visited "far" 7, .visited "near" 7, .visited "far" 7] ∧
      (choice far [near] ⟨#[]⟩ 7).outcome = .value (.failure ⟨9, ⟨0, 9⟩, "far"⟩) ∧
      (choice far [near, far] ⟨#[]⟩ 7).outcome = .value (.failure ⟨9, ⟨0, 9⟩, "far"⟩) := by
  have member : far ∈ [far, near] := .head _
  obtain ⟨_, _, kept⟩ := choices_flatten far near far [near] [] []
  exact ⟨member, rfl, rfl, (kept member ⟨#[]⟩ 7).1⟩

end Matcher

end RecursiveDescent
