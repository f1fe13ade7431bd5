import RecursiveDescent.Proofs.Alternatives

/-! # Sequences within sequences

A sequence is a relay: each of its children begins where the one before it stopped, up to one that does not succeed,
whose run ends the sequence as it is. Where a sequence is a child of another one, the inner relay is a part of the
outer one. So the inner sequence may be replaced by its children; only their values, which were a list among the
values of the others, then stand among these themselves.
-/

namespace RecursiveDescent

namespace Matcher

variable {source : Source} {pos start stop middle : Int} {child : Matcher} {children inner others : List Matcher}
  {found : Success} {founds firsts group more : List Success}

/-- What is to be done with a match is not done without one. -/
theorem onSuccess_of_not_succeeds (ends : ∀ found, ¬child.Succeeds source pos found) (next : Success → Run Result) :
    onSuccess (child source pos) next = child source pos := by
  rw [onSuccess]
  generalize same : child source pos = run
  obtain ⟨events, outcome⟩ := run
  cases outcome with
  | fault cause => rfl
  | unfinished => rfl
  | value result =>
    cases result with
    | success found => exact absurd (congrArg Run.outcome same) (ends found)
    | failure missed => exact Run.after_pure rfl

/-- Matchers succeed one after another, each where the one before it stopped. -/
inductive Relay (source : Source) : List Matcher → Int → List Success → Int → Prop
  | nil (pos : Int) : Relay source [] pos [] pos
  | cons {first : Matcher} {rest : List Matcher} {pos stop : Int} {found : Success} {founds : List Success}
      (succeeds : first.Succeeds source pos found) (others : Relay source rest found.pos founds stop) :
      Relay source (first :: rest) pos (found :: founds) stop

/-- What is observed in a relay: the first matcher is run at an offset, each other where the match before it stopped. -/
def turns (source : Source) (children : List Matcher) (pos : Int) (founds : List Success) : List Event :=
  (children.zip (pos :: founds.map (·.pos))).flatMap fun turn => (turn.1 source turn.2).events

/-- The matches of a relay as one match, which has the list of their values. -/
def whole (pos : Int) (founds : List Success) (stop : Int) : Success :=
  ⟨stop, ⟨pos, stop⟩, .list (founds.map (·.value))⟩

theorem turns_cons (first : Matcher) (rest : List Matcher) (pos : Int) (found : Success) (founds : List Success) :
    turns source (first :: rest) pos (found :: founds) =
      (first source pos).events ++ turns source rest found.pos founds := rfl

namespace Relay

theorem append (relay : Relay source children pos founds middle) (next : Relay source others middle more stop) :
    Relay source (children ++ others) pos (founds ++ more) stop := by
  induction relay with
  | nil pos => exact next
  | cons succeeds _ ih => exact .cons succeeds (ih next)

theorem turns_append (relay : Relay source children pos founds middle) (others : List Matcher) (more : List Success) :
    turns source (children ++ others) pos (founds ++ more) =
      turns source children pos founds ++ turns source others middle more := by
  induction relay with
  | nil pos => rfl
  | cons _ _ ih => rw [List.cons_append, List.cons_append, turns_cons, turns_cons, ih, List.append_assoc]

/-- After a relay, a chain goes on where it stopped. -/
theorem chain (relay : Relay source children pos founds stop) (others : List Matcher) :
    Matcher.chain source (children ++ others) pos =
      (do match ← Matcher.chain source others stop with
          | .error missed => return .error missed
          | .ok tail => return .ok ⟨founds.map (·.value) ++ tail.values, tail.stop⟩ : Run (Except Failure Chain)).after
        (turns source children pos founds) := by
  induction relay with
  | nil pos =>
    refine (bind_pure _).symm.trans (bind_congr fun ended => ?_)
    cases ended <;> rfl
  | @cons first rest pos stop found founds succeeds _ ih =>
    rw [List.cons_append, Matcher.chain, Run.bind_of_value succeeds]
    dsimp only
    rw [ih, Run.after_bind, turns_cons, Run.after_append, bind_assoc]
    congr 2
    refine bind_congr fun ended => ?_
    cases ended <;> rfl

/-- Where all children succeed, a sequence succeeds with their values. -/
theorem sequence (relay : Relay source children pos founds stop) :
    Matcher.sequence children source pos =
      ⟨turns source children pos founds, .value (.success (whole pos founds stop))⟩ := by
  have all := relay.chain []
  rw [List.append_nil, Matcher.chain, pure_bind] at all
  rw [Matcher.sequence, all, Run.after_bind, pure_bind]
  simp [Run.after, whole]

/-- After a relay, a sequence goes on with the next child, and if that succeeds, with the others. -/
theorem sequence_goes_on (relay : Relay source children pos founds stop) (child : Matcher) (others : List Matcher) :
    Matcher.sequence (children ++ child :: others) source pos =
      (onSuccess (child source stop) fun found => do
        match ← Matcher.chain source others found.pos with
        | .error missed => return .failure missed
        | .ok tail =>
            return .success
              ⟨tail.stop, ⟨pos, tail.stop⟩, .list (founds.map (·.value) ++ found.value :: tail.values)⟩).after
        (turns source children pos founds) := by
  rw [Matcher.sequence, relay.chain, Run.after_bind, Matcher.chain]
  congr 1
  simp only [onSuccess, bind_assoc]
  refine bind_congr fun result => ?_
  cases result with
  | failure missed => simp only [pure_bind]
  | success found =>
    simp only [bind_assoc]
    refine bind_congr fun ended => ?_
    cases ended <;> simp only [pure_bind]

/-- A child that does not succeed ends a sequence, as its own run ended. -/
theorem sequence_ends (relay : Relay source children pos founds stop)
    (ends : ∀ found, ¬child.Succeeds source stop found) (others : List Matcher) :
    Matcher.sequence (children ++ child :: others) source pos =
      ⟨turns source children pos founds ++ (child source stop).events, (child source stop).outcome⟩ := by
  rw [relay.sequence_goes_on, onSuccess_of_not_succeeds ends]
  rfl

/-- A relay within a relay may be run as a sequence, which makes one match of its matches. -/
theorem nest (opening : Relay source children pos firsts start) (within : Relay source inner start group middle)
    (closing : Relay source others middle more stop) :
    Relay source (children ++ Matcher.sequence inner :: others) pos (firsts ++ whole start group middle :: more) stop ∧
      turns source (children ++ Matcher.sequence inner :: others) pos (firsts ++ whole start group middle :: more) =
        turns source (children ++ inner ++ others) pos (firsts ++ group ++ more) := by
  have run := within.sequence
  have succeeds : (Matcher.sequence inner).Succeeds source start (whole start group middle) := congrArg Run.outcome run
  refine ⟨opening.append (.cons succeeds closing), ?_⟩
  rw [opening.turns_append, turns_cons, run, (opening.append within).turns_append, opening.turns_append,
    List.append_assoc]
  rfl

/-- A child of an inner sequence that does not succeed ends the outer sequence, as its own run ended. -/
theorem nest_ends (opening : Relay source children pos firsts start) (within : Relay source inner start group stop)
    (ends : ∀ found, ¬child.Succeeds source stop found) (later others : List Matcher) :
    Matcher.sequence (children ++ Matcher.sequence (inner ++ child :: later) :: others) source pos =
      ⟨turns source (children ++ inner) pos (firsts ++ group) ++ (child source stop).events,
        (child source stop).outcome⟩ := by
  have run := within.sequence_ends ends later
  have endsWithin : ∀ found, ¬(Matcher.sequence (inner ++ child :: later)).Succeeds source start found := by
    intro found succeeds
    rw [Succeeds, run] at succeeds
    exact ends found succeeds
  rw [opening.sequence_ends endsWithin, run, opening.turns_append, List.append_assoc]

end Relay

/-- Matchers form a relay, or some of them do, up to one that does not succeed. -/
theorem relay_or_ends (children : List Matcher) (source : Source) (pos : Int) :
    (∃ founds stop, Relay source children pos founds stop) ∨
    ∃ earlier child later founds stop, children = earlier ++ child :: later ∧
      Relay source earlier pos founds stop ∧ ∀ found, ¬child.Succeeds source stop found := by
  induction children generalizing pos with
  | nil => exact .inl ⟨[], pos, .nil pos⟩
  | cons first rest ih =>
    by_cases succeeds : ∃ found, first.Succeeds source pos found
    · obtain ⟨found, succeeds⟩ := succeeds
      rcases ih found.pos with ⟨founds, stop, relay⟩ | ⟨earlier, child, later, founds, stop, rfl, relay, ends⟩
      · exact .inl ⟨found :: founds, stop, .cons succeeds relay⟩
      · exact .inr ⟨first :: earlier, child, later, found :: founds, stop, rfl, .cons succeeds relay, ends⟩
    · exact .inr ⟨[], first, rest, [], pos, rfl, .nil pos, not_exists.mp succeeds⟩

/-- A sequence within a sequence may be replaced by its children. Either all children of both succeed, each where the
one before it stopped; then the two ways to write it differ in nothing but the values, of which those of the inner
sequence are a list among the others. Or a child does not succeed, and its run ends both: they have its failure or
fault, or no end if it has none, and no child after it is run. In either case the same children are run in the same
order at the same offsets. -/
theorem sequences_flatten (before inner after : List Matcher) (source : Source) (pos : Int) :
    (∃ firsts group lasts start middle stop, Relay source before pos firsts start ∧
      Relay source inner start group middle ∧ Relay source after middle lasts stop ∧
      sequence (before ++ inner ++ after) source pos =
        ⟨turns source (before ++ inner ++ after) pos (firsts ++ group ++ lasts),
          .value (.success (whole pos (firsts ++ group ++ lasts) stop))⟩ ∧
      sequence (before ++ sequence inner :: after) source pos =
        ⟨turns source (before ++ inner ++ after) pos (firsts ++ group ++ lasts),
          .value (.success (whole pos (firsts ++ whole start group middle :: lasts) stop))⟩) ∨
    ∃ earlier child later founds stop, before ++ inner ++ after = earlier ++ child :: later ∧
      Relay source earlier pos founds stop ∧ (∀ found, ¬child.Succeeds source stop found) ∧
      sequence (before ++ inner ++ after) source pos =
        ⟨turns source earlier pos founds ++ (child source stop).events, (child source stop).outcome⟩ ∧
      sequence (before ++ sequence inner :: after) source pos =
        ⟨turns source earlier pos founds ++ (child source stop).events, (child source stop).outcome⟩ := by
  -- A child that ends both stands before the inner sequence, in it, or after it.
  rcases relay_or_ends before source pos with
    ⟨firsts, start, opening⟩ | ⟨earlier, child, later, founds, stop, rfl, relay, ends⟩
  · rcases relay_or_ends inner source start with
      ⟨group, middle, within⟩ | ⟨earlier, child, later, founds, stop, rfl, relay, ends⟩
    · rcases relay_or_ends after source middle with
        ⟨lasts, stop, closing⟩ | ⟨earlier, child, later, founds, stop, rfl, relay, ends⟩
      · obtain ⟨nested, same⟩ := opening.nest within closing
        have flat := (opening.append within).append closing
        exact .inl ⟨firsts, group, lasts, start, middle, stop, opening, within, closing, flat.sequence,
          nested.sequence.trans (congrArg (Run.mk · _) same)⟩
      · obtain ⟨nested, same⟩ := opening.nest within relay
        have flat := (opening.append within).append relay
        have split : before ++ inner ++ (earlier ++ child :: later) = before ++ inner ++ earlier ++ child :: later := by
          simp
        refine .inr ⟨_, child, later, _, stop, split, flat, ends, ?_, ?_⟩
        · rw [split]
          exact flat.sequence_ends ends later
        · rw [← same, ← nested.sequence_ends ends later, List.append_assoc, List.cons_append]
    · have flat := opening.append relay
      have split : before ++ (earlier ++ child :: later) ++ after = before ++ earlier ++ child :: (later ++ after) := by
        simp
      refine .inr ⟨_, child, _, _, stop, split, flat, ends, ?_, opening.nest_ends relay ends later after⟩
      rw [split]
      exact flat.sequence_ends ends _
  · have split (others : List Matcher) :
        earlier ++ child :: later ++ others = earlier ++ child :: (later ++ others) := by
      simp
    refine .inr ⟨_, child, _, _, stop, (List.append_assoc ..).trans (split _), relay, ends, ?_, ?_⟩
    · rw [List.append_assoc, split]
      exact relay.sequence_ends ends _
    · rw [split]
      exact relay.sequence_ends ends _

/-- The values of the inner sequence are one value of the outer one. -/
example : (sequence [literal "a", sequence [literal "b", literal "c"]] (.ofString "abc") 0).outcome =
    .value (.success ⟨3, ⟨0, 3⟩, .list [.text "a", .list [.text "b", .text "c"]]⟩) := rfl

end Matcher

end RecursiveDescent
