import RecursiveDescent.Proofs.NestedChoices
import RecursiveDescent.Proofs.NestedSequences

/-! # What distributes over a choice

What is done with the match of a choice may as well be done with the match of each alternative, since only the
alternative that wins has one: an action is applied once, or never. And what all alternatives begin with may be
matched before the choice. That comes to the same result, and to the same failure: the shared beginning fails in the
same way for each alternative, and of equal failures the first is kept. But it is then matched only once.
-/

namespace RecursiveDescent

namespace Run

variable {α : Type}

/-- What is done with a match, if it never comes to a failure, may be done with the matches of two runs. -/
theorem onSuccess_orElse (first second : Run Result) {next : Success → Run Result}
    (succeeds : ∀ found, ∃ ended : Run Success, next found = .success <$> ended) :
    Matcher.onSuccess (first.orElse second) next =
      (Matcher.onSuccess first next).orElse (Matcher.onSuccess second next) := by
  simp only [Matcher.onSuccess, orElse, bind_assoc]
  refine bind_congr fun result => ?_
  cases result with
  | success found =>
    obtain ⟨ended, same⟩ := succeeds found
    simp only [pure_bind, same, map_eq_pure_bind, bind_assoc]
  | failure missed =>
    simp only [pure_bind, bind_assoc]
    refine bind_congr fun result => ?_
    cases result with
    | success found =>
      obtain ⟨ended, same⟩ := succeeds found
      simp only [pure_bind, same, map_eq_pure_bind, bind_assoc]
    | failure later => simp only [pure_bind]

theorem Abridges.trans {shortest shorter longer : Run α} (first : shortest.Abridges shorter)
    (second : shorter.Abridges longer) : shortest.Abridges longer :=
  ⟨first.outcome.trans second.outcome, first.events.trans second.events⟩

/-- What is observed before the first of two runs need not be observed again before the second. -/
theorem orElse_after (events : List Event) (first second : Run Result) :
    ((first.orElse second).after events).Abridges ((first.after events).orElse (second.after events)) := by
  have once : second.Abridges (second.after events) := ⟨rfl, List.sublist_append_right _ _⟩
  have both := (abridges_refl first).orElse once
  have twice : (first.after events).orElse (second.after events) = (first.orElse (second.after events)).after events :=
    after_bind ..
  rw [twice]
  exact ⟨both.outcome, (List.Sublist.refl events).append both.events⟩

end Run

namespace Matcher

variable {source : Source} {pos start : Int} {first second : Matcher} {shared rest : List Matcher} {found : Success}
  {founds : List Success}

/-! ## Actions -/

theorem map_map (child : Matcher) (action next : Action) :
    map (map child action) next = map child (fun value span => do next (← action value span) span) := by
  funext source pos
  simp only [map, onSuccess, bind_assoc]
  refine bind_congr fun result => ?_
  cases result with
  | success found => simp only [bind_assoc, pure_bind]
  | failure missed => simp only [pure_bind]

theorem map_orElse (first second : Matcher) (action : Action) :
    map (orElse first second) action = orElse (map first action) (map second action) := by
  funext source pos
  refine Run.onSuccess_orElse _ _ fun found => ⟨(⟨found.pos, found.span, ·⟩) <$> action found.value found.span, ?_⟩
  simp only [map_eq_pure_bind, bind_assoc, pure_bind]

theorem map_choice (first : Matcher) (rest : List Matcher) (action : Action) :
    map (choice first rest) action = choice (map first action) (rest.map (map · action)) := by
  induction rest generalizing first with
  | nil => rfl
  | cons second rest ih => rw [choice_cons, map_orElse, ih, List.map_cons, choice_cons]

theorem succeeds_of_orElse (succeeds : (orElse first second).Succeeds source pos found) :
    first.Succeeds source pos found ∨
      ∃ missed, first.Fails source pos missed ∧ second.Succeeds source pos found := by
  obtain ⟨result, ran, succeeds⟩ := Run.bind_outcome.mp succeeds
  cases result with
  | success other => cases succeeds; exact .inl ran
  | failure missed =>
    obtain ⟨result, ranLater, succeeds⟩ := Run.bind_outcome.mp succeeds
    cases result with
    | success other => cases succeeds; exact .inr ⟨missed, ran, ranLater⟩
    | failure later => cases succeeds

/-- A choice that succeeds has the match of an alternative, which is tried last, after others that failed. -/
theorem winner_of_choice (succeeds : (choice first rest).Succeeds source pos found) :
    ∃ earlier winner later, first :: rest = earlier ++ winner :: later ∧
      (∀ other ∈ earlier, ∃ missed, other.Fails source pos missed) ∧ winner.Succeeds source pos found ∧
      tried source pos (first :: rest) = earlier ++ [winner] := by
  have wins {first : Matcher} (rest : List Matcher) (succeeds : first.Succeeds source pos found) :
      tried source pos (first :: rest) = [first] := by
    rw [Succeeds] at succeeds
    simp only [tried, succeeds]
  induction rest generalizing first with
  | nil => exact ⟨[], first, [], rfl, List.forall_mem_nil _, succeeds, wins [] succeeds⟩
  | cons second rest ih =>
    rw [choice_cons] at succeeds
    rcases succeeds_of_orElse succeeds with succeeds | ⟨missed, fails, succeeds⟩
    · exact ⟨[], first, second :: rest, rfl, List.forall_mem_nil _, succeeds, wins _ succeeds⟩
    · obtain ⟨earlier, winner, later, split, others, won, inOrder⟩ := ih succeeds
      refine ⟨first :: earlier, winner, later, congrArg _ split, List.forall_mem_cons.mpr ⟨⟨missed, fails⟩, others⟩,
        won, ?_⟩
      rw [Fails] at fails
      rw [tried, fails]
      exact congrArg _ inOrder

/-- Two actions, one after the other, are one action; and an action may be applied to the match of a choice, or to
those of its alternatives: that makes the same matcher. It is applied once, after all that is observed in the
alternatives that are tried, and to the value and the span of the one that wins; or, if none wins, never, and the
run is that of the choice without it. -/
theorem actions_fuse_and_distribute (child first : Matcher) (rest : List Matcher) (action next : Action) :
    map (map child action) next = map child (fun value span => do next (← action value span) span) ∧
    map (choice first rest) action = choice (map first action) (rest.map (map · action)) ∧
    ∀ source pos,
      (∃ earlier winner later found, first :: rest = earlier ++ winner :: later ∧
        (∀ other ∈ earlier, ∃ missed, other.Fails source pos missed) ∧ winner.Succeeds source pos found ∧
        map (choice first rest) action source pos =
          (do let value ← action found.value found.span
              return .success ⟨found.pos, found.span, value⟩ : Run Result).after
            (trials (earlier ++ [winner]) source pos)) ∨
      (∀ found, ¬(choice first rest).Succeeds source pos found) ∧
        map (choice first rest) action source pos = choice first rest source pos := by
  refine ⟨map_map child action next, map_choice first rest action, fun source pos => ?_⟩
  by_cases succeeds : ∃ found, (choice first rest).Succeeds source pos found
  · obtain ⟨found, succeeds⟩ := succeeds
    obtain ⟨earlier, winner, later, split, fails, won, inOrder⟩ := winner_of_choice succeeds
    refine .inl ⟨earlier, winner, later, found, split, fails, won, ?_⟩
    rw [map, onSuccess, Run.bind_of_value succeeds, choice_events, inOrder]
  · have ends := not_exists.mp succeeds
    exact .inr ⟨ends, onSuccess_of_not_succeeds ends _⟩

/-! ## A shared beginning -/

/-- A sequence of a relay and a last child is that child, with its match added to the others. -/
theorem Relay.concat (relay : Relay source shared pos founds start) (last : Matcher) :
    Matcher.sequence (shared ++ [last]) source pos =
      (onSuccess (last source start) fun found =>
        return .success (whole pos (founds ++ [found]) found.pos)).after (turns source shared pos founds) := by
  rw [relay.sequence_goes_on]
  simp [Matcher.chain, whole]

theorem sequence_orElse (shared : List Matcher) (first second : Matcher) (source : Source) (pos : Int) :
    (sequence (shared ++ [orElse first second]) source pos).Abridges
      (orElse (sequence (shared ++ [first])) (sequence (shared ++ [second])) source pos) := by
  rw [orElse_eq]
  -- Either all sequences go on from where the shared beginning stopped, or it ends all of them alike.
  rcases relay_or_ends shared source pos with
    ⟨founds, start, relay⟩ | ⟨earlier, child, later, founds, stop, rfl, relay, ends⟩
  · simp only [relay.concat]
    rw [orElse_eq, Run.onSuccess_orElse _ _ fun found => ⟨pure _, (map_pure ..).symm⟩]
    exact Run.orElse_after ..
  · have run (last : Matcher) := relay.sequence_ends ends (later ++ [last])
    simp only [List.append_assoc, List.cons_append, run]
    exact Run.abridges_orElse fun missed fails => ⟨missed, fails, Int.le_refl _⟩

theorem sequence_choice (shared : List Matcher) (first : Matcher) (rest : List Matcher) (source : Source) (pos : Int) :
    (sequence (shared ++ [choice first rest]) source pos).Abridges
      (choice (sequence (shared ++ [first])) (rest.map fun last => sequence (shared ++ [last])) source pos) := by
  induction rest generalizing first with
  | nil => exact Run.abridges_refl _
  | cons second rest ih =>
    rw [choice_cons, List.map_cons, choice_cons]
    exact (sequence_orElse ..).trans ((Run.abridges_refl _).orElse (ih second))

/-- What all alternatives begin with may be matched before the choice. The result stays what it is, value, span and
all, and so do the failure that is reported, a fault, and a run without an end; and nothing is observed that was not
observed before, in the same order. -/
theorem shared_beginning_factors (shared : List Matcher) (first : Matcher) (rest : List Matcher) (source : Source)
    (pos : Int) :
    (choice (sequence (shared ++ [first])) (rest.map fun last => sequence (shared ++ [last])) source pos).outcome =
        (sequence (shared ++ [choice first rest]) source pos).outcome ∧
      (sequence (shared ++ [choice first rest]) source pos).events.Sublist
        (choice (sequence (shared ++ [first])) (rest.map fun last => sequence (shared ++ [last])) source pos).events :=
  have abridges := sequence_choice shared first rest source pos
  ⟨abridges.outcome.symm, abridges.events⟩

/-- Before the choice, the shared beginning is matched once for both alternatives. -/
example (missed : Failure) :
    let shared := observed "shared" nothing
    let first := observed "first" (fixed (.failure missed))
    let second := observed "second" nothing
    (choice (sequence [shared, first]) [sequence [shared, second]] ⟨#[]⟩ 0).events =
        [.visited "shared" 0, .visited "first" 0, .visited "shared" 0, .visited "second" 0] ∧
      (sequence [shared, choice first [second]] ⟨#[]⟩ 0).events =
        [.visited "shared" 0, .visited "first" 0, .visited "second" 0] :=
  ⟨rfl, rfl⟩

end Matcher

end RecursiveDescent
