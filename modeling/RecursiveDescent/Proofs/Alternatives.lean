import RecursiveDescent.Proofs.Limits

/-! # Which alternative a choice takes

A choice tries its alternatives in order, all at the same offset. It answers with the first success, and tries
nothing after that. If all of them fail, it answers with the failure that got furthest, the first of these on a
tie. Whatever the alternatives are, their results are handed on as they are.

The events of a run are those of the calls that it consists of, and so they say which alternatives are tried,
in which order, how often, and where.
-/

namespace RecursiveDescent

/-! ## The leading failure -/

/-- Among failures, one got further than all those before it, and as far as all those after it. -/
def Failure.Leads (chosen : Failure) (failures : List Failure) : Prop :=
  ∃ before after, failures = before ++ chosen :: after ∧
    (∀ other ∈ before, other.pos < chosen.pos) ∧ ∀ other ∈ after, other.pos ≤ chosen.pos

namespace Failure

variable {chosen : Failure} {failures : List Failure}

theorem leads_alone (missed : Failure) : missed.Leads [missed] :=
  ⟨[], [], rfl, List.forall_mem_nil _, List.forall_mem_nil _⟩

/-- One more failure takes the lead only if it got further than the one that leads. -/
theorem Leads.furthest (leads : chosen.Leads failures) (later : Failure) :
    (Matcher.furthest chosen later).Leads (failures ++ [later]) := by
  obtain ⟨before, after, rfl, less, atMost⟩ := leads
  simp only [Matcher.furthest]
  split
  · next further =>
    have all : ∀ other ∈ before ++ chosen :: after, other.pos < later.pos := by
      refine List.forall_mem_append.mpr ⟨?_, List.forall_mem_cons.mpr ⟨further, ?_⟩⟩
      · exact fun other member => Int.lt_trans (less other member) further
      · exact fun other member => Int.lt_of_le_of_lt (atMost other member) further
    exact ⟨before ++ chosen :: after, [], rfl, all, List.forall_mem_nil _⟩
  · next behind =>
    refine ⟨before, after ++ [later], by simp, less, ?_⟩
    exact List.forall_mem_append.mpr ⟨atMost, List.forall_mem_singleton.mpr (Int.not_lt.mp behind)⟩

/-- So the failure that is kept while others come in leads all of them. -/
theorem Leads.foldl (leads : chosen.Leads failures) (others : List Failure) :
    (others.foldl Matcher.furthest chosen).Leads (failures ++ others) := by
  induction others generalizing chosen failures with
  | nil => rwa [List.append_nil]
  | cons later others ih =>
    have next := ih (leads.furthest later)
    rwa [List.append_assoc] at next

end Failure

/-! ## Trials -/

/-- Nothing is left to be done after a run that answers. -/
theorem Run.after_pure {α : Type} {run : Run α} {answer : α} (answered : run.outcome = .value answer) :
    (pure answer : Run α).after run.events = run := by
  obtain ⟨events, outcome⟩ := run
  cases answered
  simp [after]

namespace Matcher

variable {source : Source} {pos : Int} {matcher first second winner : Matcher}
  {matchers earlier rest later : List Matcher} {found : Success} {missed other : Failure} {failures : List Failure}

def Succeeds (matcher : Matcher) (source : Source) (pos : Int) (found : Success) : Prop :=
  (matcher source pos).outcome = .value (.success found)

def Fails (matcher : Matcher) (source : Source) (pos : Int) (missed : Failure) : Prop :=
  (matcher source pos).outcome = .value (.failure missed)

/-- What is observed when matchers are run at one offset, one after another. -/
def trials (matchers : List Matcher) (source : Source) (pos : Int) : List Event :=
  matchers.flatMap fun matcher => (matcher source pos).events

/-- A matcher that answers has a run of which nothing else is to be said. -/
theorem eq_of_answer {result : Result} (answered : (matcher source pos).outcome = .value result) :
    matcher source pos = ⟨trials [matcher] source pos, .value result⟩ := by
  rw [trials, List.flatMap_singleton, ← answered]

/-- Two matchers may be tried as one that does what the two do. -/
theorem trials_cons_of_events (both : (matcher source pos).events = trials [first, second] source pos) :
    trials (matcher :: rest) source pos = trials (first :: second :: rest) source pos := by
  simp only [trials, List.flatMap_cons, List.flatMap_nil, List.append_nil, both, List.append_assoc]

/-- After a success, the second matcher is not tried. -/
theorem orElse_of_succeeds (succeeds : first.Succeeds source pos found) :
    orElse first second source pos = first source pos := by
  rw [orElse, Run.bind_of_value succeeds]
  exact Run.after_pure succeeds

/-- After a failure, a success of the second matcher is the result. -/
theorem orElse_of_fails_succeeds (fails : first.Fails source pos missed)
    (succeeds : second.Succeeds source pos found) :
    orElse first second source pos = ⟨trials [first, second] source pos, .value (.success found)⟩ := by
  rw [orElse, Run.bind_of_value fails]
  dsimp only
  rw [Run.bind_of_value succeeds]
  simp [Run.after, trials]

/-- Of two failures, the further one is the result. -/
theorem orElse_of_fails (fails : first.Fails source pos missed) (failsLater : second.Fails source pos other) :
    orElse first second source pos =
      ⟨trials [first, second] source pos, .value (.failure (furthest missed other))⟩ := by
  rw [orElse, Run.bind_of_value fails]
  dsimp only
  rw [Run.bind_of_value failsLater]
  simp [Run.after, trials]

/-- If the first alternative succeeds, the others are not tried. -/
theorem choice_of_succeeds (succeeds : first.Succeeds source pos found) :
    choice first rest source pos = first source pos := by
  induction rest generalizing first with
  | nil => rfl
  | cons second rest ih =>
    have same : orElse first second source pos = first source pos := orElse_of_succeeds succeeds
    have again : (orElse first second).Succeeds source pos found := (congrArg Run.outcome same).trans succeeds
    exact (ih again).trans same

/-- If all alternatives fail, all are tried, and the failure that is kept is compared with one after another. -/
theorem choice_of_fails (fails : first.Fails source pos missed)
    (others : List.Forall₂ (fun matcher other => matcher.Fails source pos other) rest failures) :
    choice first rest source pos =
      ⟨trials (first :: rest) source pos, .value (.failure (failures.foldl furthest missed))⟩ := by
  induction others generalizing first missed with
  | nil => exact eq_of_answer fails
  | cons failsSecond _ ih =>
    have both := orElse_of_fails fails failsSecond
    rw [← trials_cons_of_events (congrArg Run.events both)]
    exact ih (congrArg Run.outcome both)

/-- An alternative that succeeds after others failed is the last one that is tried. -/
theorem choice_of_fails_succeeds (fails : first.Fails source pos missed)
    (others : ∀ other ∈ earlier, ∃ missed, other.Fails source pos missed)
    (succeeds : winner.Succeeds source pos found) :
    choice first (earlier ++ winner :: later) source pos =
      ⟨trials (first :: earlier ++ [winner]) source pos, .value (.success found)⟩ := by
  induction earlier generalizing first missed with
  | nil =>
    have both := orElse_of_fails_succeeds fails succeeds
    have chosen : choice (orElse first winner) later source pos = orElse first winner source pos :=
      choice_of_succeeds (congrArg Run.outcome both)
    exact chosen.trans both
  | cons second earlier ih =>
    obtain ⟨⟨other, failsSecond⟩, others⟩ := List.forall_mem_cons.mp others
    have both := orElse_of_fails fails failsSecond
    have observed : trials (orElse first second :: earlier ++ [winner]) source pos =
        trials (first :: second :: earlier ++ [winner]) source pos :=
      trials_cons_of_events (congrArg Run.events both)
    exact (ih (congrArg Run.outcome both) others).trans (congrArg (Run.mk · _) observed)

/-- If each of a list of matchers answers where those before it fail, one of them is the first that succeeds, unless
none does. -/
theorem exists_first_success
    (answers : ∀ earlier tried later, matchers = earlier ++ tried :: later →
      (∀ other ∈ earlier, ∃ missed, other.Fails source pos missed) →
      ∃ result, (tried source pos).outcome = .value result)
    (some : ∃ matcher ∈ matchers, ∃ found, matcher.Succeeds source pos found) :
    ∃ earlier winner later found, matchers = earlier ++ winner :: later ∧
      (∀ other ∈ earlier, ∃ missed, other.Fails source pos missed) ∧ winner.Succeeds source pos found := by
  induction matchers with
  | nil => simp at some
  | cons head tail ih =>
    obtain ⟨result, answered⟩ := answers [] head tail rfl (List.forall_mem_nil _)
    cases result with
    | success found => exact ⟨[], head, tail, found, rfl, List.forall_mem_nil _, answered⟩
    | failure missed =>
      have others : ∃ matcher ∈ tail, ∃ found, matcher.Succeeds source pos found := by
        obtain ⟨matcher, member, found, succeeds⟩ := some
        rcases List.mem_cons.mp member with rfl | member
        · cases answered.symm.trans succeeds
        · exact ⟨matcher, member, found, succeeds⟩
      have withHead {earlier : List Matcher} (fails : ∀ other ∈ earlier, ∃ missed, other.Fails source pos missed) :
          ∀ other ∈ head :: earlier, ∃ missed, other.Fails source pos missed :=
        List.forall_mem_cons.mpr ⟨⟨missed, answered⟩, fails⟩
      obtain ⟨earlier, winner, later, found, rfl, fails, succeeds⟩ := ih
        (fun earlier tried later split fails =>
          answers (head :: earlier) tried later (congrArg _ split) (withHead fails)) others
      exact ⟨head :: earlier, winner, later, found, rfl, withHead fails, succeeds⟩

/-- Where every alternative that is tried answers, a choice answers with the result of the first one that succeeds
and tries all up to that one; if all fail, it tries all and answers with the first of the failures that got furthest.
Each alternative is tried once, in order, and all at the offset of the choice. -/
theorem choice_first_or_furthest (first : Matcher) (rest : List Matcher) (source : Source) (pos : Int)
    (answers : ∀ earlier tried later, first :: rest = earlier ++ tried :: later →
      (∀ other ∈ earlier, ∃ missed, other.Fails source pos missed) →
      ∃ result, (tried source pos).outcome = .value result) :
    ((∃ matcher ∈ first :: rest, ∃ found, matcher.Succeeds source pos found) →
      ∃ earlier winner later found, first :: rest = earlier ++ winner :: later ∧
        (∀ other ∈ earlier, ∃ missed, other.Fails source pos missed) ∧ winner.Succeeds source pos found ∧
        choice first rest source pos = ⟨trials (earlier ++ [winner]) source pos, .value (.success found)⟩) ∧
    ∀ failures, List.Forall₂ (fun matcher missed => matcher.Fails source pos missed) (first :: rest) failures →
      ∃ chosen : Failure, chosen.Leads failures ∧
        choice first rest source pos = ⟨trials (first :: rest) source pos, .value (.failure chosen)⟩ := by
  refine ⟨fun some => ?success, fun failures fails => ?failure⟩
  case success =>
    obtain ⟨earlier, winner, later, found, split, fails, succeeds⟩ := exists_first_success answers some
    refine ⟨earlier, winner, later, found, split, fails, succeeds, ?_⟩
    cases earlier with
    | nil =>
      obtain ⟨rfl, rfl⟩ := List.cons.inj split
      exact (choice_of_succeeds succeeds).trans (eq_of_answer succeeds)
    | cons head earlier =>
      obtain ⟨rfl, rfl⟩ := List.cons.inj split
      obtain ⟨⟨missed, failsFirst⟩, others⟩ := List.forall_mem_cons.mp fails
      exact choice_of_fails_succeeds failsFirst others succeeds
  case failure =>
    obtain _ | ⟨failsFirst, others⟩ := fails
    exact ⟨_, (Failure.leads_alone _).foldl _, choice_of_fails failsFirst others⟩

/-- A matcher that reports its calls and gives a result made by hand. -/
def reporting (observer : String) (result : Result) : Matcher := observed observer (fixed result)

def far : Matcher := reporting "far" (.failure ⟨9, ⟨0, 9⟩, "far"⟩)

/-- A success that moves back, with a span that has nothing to do with it. -/
def back : Matcher := reporting "back" (.success ⟨-4, ⟨2, 0⟩, .null⟩)

def broken : Matcher := fun _ _ => .stop (.custom "broken")

/-- A success ends the choice before a matcher that would stop it, and of two failures that got equally far the first
one leads. -/
theorem oddResults_first_or_furthest :
    choice far [back, broken] ⟨#[]⟩ 7 =
      ⟨[.visited "far" 7, .visited "back" 7], .value (.success ⟨-4, ⟨2, 0⟩, .null⟩)⟩ ∧
    ∃ chosen : Failure, chosen.Leads [⟨1, ⟨0, 1⟩, "low"⟩, ⟨3, ⟨2, 0⟩, "high"⟩, ⟨3, ⟨0, 3⟩, "tie"⟩] ∧
      choice (reporting "low" (.failure ⟨1, ⟨0, 1⟩, "low"⟩))
          [reporting "high" (.failure ⟨3, ⟨2, 0⟩, "high"⟩), reporting "tie" (.failure ⟨3, ⟨0, 3⟩, "tie"⟩)]
          ⟨#[]⟩ 7 =
      ⟨[.visited "low" 7, .visited "high" 7, .visited "tie" 7], .value (.failure chosen)⟩ := by
  have tried {earlier later : List Matcher} {next : Matcher}
      (split : [far, back, broken] = earlier ++ next :: later)
      (fails : ∀ other ∈ earlier, ∃ missed, other.Fails ⟨#[]⟩ 7 missed) :
      earlier = [] ∧ next = far ∨ earlier = [far] ∧ next = back := by
    match earlier, split with
    | [], split => exact .inl ⟨rfl, (List.cons.inj split).1.symm⟩
    | [_], split => cases split; exact .inr ⟨rfl, rfl⟩
    | _ :: second :: _, split =>
      obtain rfl : back = second := (List.cons.inj (List.cons.inj split).2).1
      obtain ⟨missed, fails⟩ := fails back (.tail _ (.head _))
      cases fails
  constructor
  · have answers (earlier : List Matcher) (next : Matcher) (later : List Matcher)
        (split : [far, back, broken] = earlier ++ next :: later)
        (fails : ∀ other ∈ earlier, ∃ missed, other.Fails ⟨#[]⟩ 7 missed) :
        ∃ result, (next ⟨#[]⟩ 7).outcome = .value result := by
      rcases tried split fails with ⟨_, rfl⟩ | ⟨_, rfl⟩ <;> exact ⟨_, rfl⟩
    obtain ⟨earlier, winner, later, found, split, fails, won, run⟩ :=
      (choice_first_or_furthest far [back, broken] ⟨#[]⟩ 7 answers).1 ⟨back, .tail _ (.head _), _, rfl⟩
    rcases tried split fails with ⟨rfl, rfl⟩ | ⟨rfl, rfl⟩
    · cases won
    · cases won
      exact run
  · refine (choice_first_or_furthest _ _ _ _ fun earlier next later split _ => ?_).2 _
      (.cons rfl (.cons rfl (.cons rfl .nil)))
    have member := split ▸ List.mem_append_right earlier (List.mem_cons_self (a := next) (l := later))
    simp only [List.mem_cons, List.not_mem_nil, or_false] at member
    rcases member with rfl | rfl | rfl <;> exact ⟨_, rfl⟩

end Matcher

end RecursiveDescent
