import RecursiveDescent.Proofs.Termination

/-! # The test for the end of the source

A loop does not try its child at the end of the source. Without that test it would stop there all the same, since a
standard parser that succeeds at the end of a source does not move: so the test saves one attempt and changes no
result. What it needs is that the attempt answers, and that no result lies beyond the end, which results that were
made by hand may do.
-/

namespace RecursiveDescent

/-- Runs that end in the same way, and go on to runs that do, end in the same way as a whole. -/
theorem Run.bind_outcome_congr {α β : Type} {run other : Run α} {next follow : α → Run β}
    (first : run.outcome = other.outcome)
    (second : ∀ answer, run.outcome = .value answer → (next answer).outcome = (follow answer).outcome) :
    (run >>= next).outcome = (other >>= follow).outcome := by
  obtain ⟨events, outcome⟩ := run
  obtain ⟨others, _⟩ := other
  obtain rfl := first
  cases outcome with
  | value answer => exact second answer rfl
  | fault cause => rfl
  | unfinished => rfl

namespace Matcher

/-- Match a child again and again, for as long as it moves, also where no text is left. -/
def plainRounds (child : Matcher) (source : Source) : Nat → Int → Run Chain
  | 0, _ => .unfinished
  | limit + 1, pos => do
      match ← child source pos with
      | .failure _ => return ⟨[], pos⟩
      | .success found =>
          if found.pos = pos then return ⟨[], pos⟩
          else
            let tail ← plainRounds child source limit found.pos
            return ⟨found.value :: tail.values, tail.stop⟩

def plainMany (limit : Nat) (child : Matcher) : Matcher := fun source pos => do
  let all ← plainRounds child source limit pos
  return .success ⟨all.stop, ⟨pos, all.stop⟩, .list all.values⟩

variable {child : Matcher} {source : Source} {pos : Int}

/-- If the child answers at the end of the source and covers what it reads, the plain rounds come to the same end,
within any limit. -/
theorem plainRounds_outcome (covers : child.Covers) {last : Result}
    (answers : (child source source.size).outcome = .value last) (inside : pos ≤ source.size) (limit : Nat) :
    (plainRounds child source limit pos).outcome = (rounds child source limit pos).outcome := by
  induction limit generalizing pos with
  | zero => rfl
  | succ limit ih =>
    rw [plainRounds, rounds]
    split
    · next before =>
      apply Run.bind_outcome_congr rfl
      intro result answered
      cases result with
      | failure missed => rfl
      | success found =>
        obtain ⟨_, _, within⟩ := covers source pos _ inside answered
        dsimp only
        split
        · rfl
        · exact Run.bind_outcome_congr (ih within) fun _ _ => rfl
    · next beyond =>
      obtain rfl : pos = source.size := by omega
      rw [Run.bind_of_value answers]
      cases last with
      | failure missed => rfl
      | success found =>
        obtain ⟨_, moved, within⟩ := covers source source.size _ (le_refl _) answers
        have still : found.pos = source.size := by omega
        dsimp only
        rw [if_pos still]
        rfl

theorem plainMany_outcome (covers : child.Covers) {last : Result}
    (answers : (child source source.size).outcome = .value last) (inside : pos ≤ source.size) (limit : Nat) :
    (plainMany limit child source pos).outcome = (many limit child source pos).outcome :=
  Run.bind_outcome_congr (plainRounds_outcome covers answers inside limit) fun _ _ => rfl

/-- A result that was made by hand may lie beyond the end, where only the test keeps a loop from going on. -/
example (found : Success) (beyond : found.pos = 1) :
    (plainMany 2 (fixed (.success found)) ⟨#[]⟩ 0).outcome = .value (.success ⟨1, ⟨0, 1⟩, .list [found.value]⟩) ∧
      (many 2 (fixed (.success found)) ⟨#[]⟩ 0).outcome = .value (.success ⟨0, ⟨0, 0⟩, .list []⟩) := by
  obtain ⟨_, span, value⟩ := found
  obtain rfl := beyond
  exact ⟨rfl, rfl⟩

end Matcher

namespace Store

/-- If a standard parser answers at the end of a source, the plain loop over it ends within some limit wherever the
loop with the test does, and with the same result or fault, whatever greater limit is chosen. Over parsers that rank
above their heads, with actions that come to an end, the loop does end; with no known parsers this speaks of trees
alone. -/
theorem end_test_is_shortcut {store : Store} {actions : Action → Prop} {known : Address → Prop}
    (before : store.Standard actions known) {tree : Parser} (standard : tree.Standard actions known) {source : Source}
    {pos : Int} (inside : pos ≤ source.size) {last : Run Result} (parses : store.Parses tree source source.size last)
    {result : Result} (answers : last.outcome = .value result) :
    (∀ run, store.Parses (.many tree) source pos run → ∃ least, ∀ limit, least ≤ limit →
      (Matcher.plainMany limit (tree.matcher limit (store.call limit)) source pos).outcome = run.outcome) ∧
    ∀ sure rank, store.Ranked known sure rank → tree.Standard Action.Finishes known →
      store.Parses (.many tree) source pos (store.matcher (.many tree) source pos) := by
  refine ⟨?same, fun sure rank ranked finishes => parses_of_finished (ranked.finished (.many finishes) inside)⟩
  case same =>
    rintro _ ⟨finished, limit, rfl⟩
    obtain ⟨ended, enough, rfl⟩ := parses
    refine ⟨max limit enough, fun more le => ?_⟩
    have covers : (tree.matcher more (store.call more)).Covers :=
      standard.covers fun _ member => before.call_covers more member
    have there : (tree.matcher more (store.call more) source source.size).outcome = .value result := by
      rw [matcher_of_finished ended (by omega), answers]
    rw [← matcher_of_finished finished (by omega : limit ≤ more)]
    exact Matcher.plainMany_outcome covers there inside more

/-- At the end of the source an optional literal succeeds without moving, and both loops have come to the same
result. -/
theorem optional_end_is_shortcut :
    Store.empty.Parses (.many (.optional (.literal "ab"))) (.ofString "abab") 0
        (Store.empty.matcher (.many (.optional (.literal "ab"))) (.ofString "abab") 0) ∧
      ∃ least, ∀ limit, least ≤ limit →
        (Matcher.plainMany limit ((Parser.optional (.literal "ab")).matcher limit (Store.empty.call limit))
            (.ofString "abab") 0).outcome =
          (Store.empty.matcher (.many (.optional (.literal "ab"))) (.ofString "abab") 0).outcome := by
  have standard (actions : Action → Prop) : (Parser.optional (.literal "ab")).Standard actions fun _ => False :=
    .optional (.literal "ab")
  have answered : (Store.empty.matcher (.optional (.literal "ab")) (.ofString "abab") 4).answer?.isSome = true := by
    decide +kernel
  obtain ⟨result, answers⟩ := Run.exists_of_answer? answered
  have ended : (Store.empty.matcher (.optional (.literal "ab")) (.ofString "abab") 4).Finished := by
    rw [Run.Finished, answers]
    rintro ⟨⟩
  have inside : (0 : Int) ≤ (Source.ofString "abab").size := by decide
  obtain ⟨same, ends⟩ := end_test_is_shortcut (fun _ _ => False.elim) (standard fun _ => True) inside
    (parses_of_finished ended) answers
  have parses := ends _ _ Store.empty.ranked_none (standard _)
  exact ⟨parses, same _ parses⟩

end Store

end RecursiveDescent
