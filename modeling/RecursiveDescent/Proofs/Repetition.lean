import RecursiveDescent.Proofs.Alternatives

/-! # How often a loop goes round

A loop collects matches that follow one another: each begins before the end of the source, where the one before it
stopped, and moves forward. It stops where no further match is gained, since there is no text left, or the child
fails, or it succeeds without moving. As long as the child answers and does not move back, such a chain of matches
is no longer than the text that is left, and the loop collects it in full.
-/

namespace RecursiveDescent

/-- Matches that follow one another, each of them a step from where the one before it stopped. -/
inductive Links (step : Int → Success → Prop) : Int → List Success → Int → Prop
  | nil (pos : Int) : Links step pos [] pos
  | cons {pos stop : Int} {found : Success} {links : List Success} (first : step pos found)
      (others : Links step found.pos links stop) : Links step pos (found :: links) stop

namespace Matcher

variable {child : Matcher} {source : Source} {pos stop : Int} {links : List Success}

/-- At an offset, a matcher answers, and if it succeeds, it does not move back. -/
def Proceeds (matcher : Matcher) (source : Source) (pos : Int) : Prop :=
  (∃ missed, matcher.Fails source pos missed) ∨ ∃ found, matcher.Succeeds source pos found ∧ pos ≤ found.pos

/-- Before the end of the source, a match moves forward. -/
def Gains (matcher : Matcher) (source : Source) (pos : Int) (found : Success) : Prop :=
  pos < source.size ∧ matcher.Succeeds source pos found ∧ pos < found.pos

/-- No match is gained at an offset: no text is left, or the matcher fails, or it succeeds without moving. -/
def Rests (matcher : Matcher) (source : Source) (pos : Int) : Prop :=
  source.size ≤ pos ∨ (∃ missed, matcher.Fails source pos missed) ∨
    ∃ found, matcher.Succeeds source pos found ∧ found.pos = pos

/-- The offsets at which a loop tries its child: where it begins and where each match stopped, up to the end. -/
def attempts (source : Source) (pos : Int) (links : List Success) : List Int :=
  (pos :: links.map (·.pos)).filter fun offset => offset < source.size

/-- Where the child proceeds, matches can be added to a chain until none is gained any more. The text that is left
becomes shorter with each of them. -/
theorem exists_longest_chain
    (proceeds : ∀ links later, Links (child.Gains source) pos links later → later < source.size →
      child.Proceeds source later) :
    ∃ links stop, Links (child.Gains source) pos links stop ∧ child.Rests source stop := by
  induction left : (source.size - pos).toNat using Nat.strongRecOn generalizing pos with
  | ind left ih =>
    by_cases before : pos < source.size
    · rcases proceeds [] pos (.nil pos) before with ⟨missed, fails⟩ | ⟨found, succeeds, le⟩
      · exact ⟨[], pos, .nil pos, .inr (.inl ⟨missed, fails⟩)⟩
      · by_cases still : found.pos = pos
        · exact ⟨[], pos, .nil pos, .inr (.inr ⟨found, succeeds, still⟩)⟩
        · have gains : child.Gains source pos found := ⟨before, succeeds, by omega⟩
          obtain ⟨links, stop, follow, rests⟩ := ih (source.size - found.pos).toNat (by omega)
            (fun links later follow => proceeds (found :: links) later (.cons gains follow)) rfl
          exact ⟨found :: links, stop, .cons gains follow, rests⟩
    · exact ⟨[], pos, .nil pos, .inl (by omega)⟩

end Matcher

namespace Links

variable {child : Matcher} {source : Source} {pos stop : Int} {links : List Success} {limit : Nat}

/-- A chain of matches has no more of them than there are characters left. -/
theorem length_le (follow : Links (child.Gains source) pos links stop) :
    links.length ≤ (source.size - pos).toNat := by
  induction follow with
  | nil pos => exact Nat.zero_le _
  | cons first _ ih =>
    obtain ⟨before, _, moved⟩ := first
    simp only [List.length_cons]
    omega

/-- A loop collects the longest chain, and tries its child where the chain begins and where its matches stop. -/
theorem rounds (follow : Links (child.Gains source) pos links stop) (rests : child.Rests source stop)
    (enough : links.length < limit) :
    Matcher.rounds child source limit pos =
      ⟨(Matcher.attempts source pos links).flatMap fun offset => (child source offset).events,
        .value ⟨links.map (·.value), stop⟩⟩ := by
  induction follow generalizing limit with
  | nil pos =>
    obtain ⟨limit, rfl⟩ : ∃ more, limit = more + 1 := ⟨limit - 1, by omega⟩
    rw [Matcher.rounds]
    split
    · next before =>
      have tried : Matcher.attempts source pos [] = [pos] := by simp [Matcher.attempts, before]
      rcases rests with beyond | ⟨missed, fails⟩ | ⟨found, succeeds, still⟩
      · omega
      · rw [Run.bind_of_value fails]
        simp [tried, Run.after]
      · rw [Run.bind_of_value succeeds]
        simp [tried, still, Run.after]
    · next beyond =>
      have tried : Matcher.attempts source pos [] = [] := by simp [Matcher.attempts, beyond]
      rw [tried]
      rfl
  | @cons pos stop found links first _ ih =>
    obtain ⟨limit, rfl⟩ : ∃ more, limit = more + 1 := ⟨limit - 1, by omega⟩
    obtain ⟨before, succeeds, moved⟩ := first
    have tried : Matcher.attempts source pos (found :: links) = pos :: Matcher.attempts source found.pos links := by
      simp [Matcher.attempts, before]
    have fewer : links.length < limit := by simpa using enough
    have others := ih rests fewer
    rw [Matcher.rounds, if_pos before, Run.bind_of_value succeeds]
    dsimp only
    rw [if_neg (by omega), others, Run.bind_of_value rfl, tried]
    simp [Run.after]

end Links

namespace Matcher

/-- A child may be repeated if it answers wherever it is tried and does not move back. Then the loop over it comes to
an end within as many rounds as there are characters left, and one more, and it succeeds with the values of a chain of
matches that move forward, at the end of which no match is gained. It tries the child once where the chain begins and
once where each match stopped, in order, but never at the end of the source. -/
theorem many_collects_longest_chain (child : Matcher) (source : Source) (pos : Int)
    (proceeds : ∀ links later, Links (child.Gains source) pos links later → later < source.size →
      child.Proceeds source later) :
    ∃ links stop, Links (child.Gains source) pos links stop ∧ child.Rests source stop ∧
      ∀ limit, (source.size - pos).toNat < limit →
        many limit child source pos =
          ⟨(attempts source pos links).flatMap fun offset => (child source offset).events,
            .value (.success ⟨stop, ⟨pos, stop⟩, .list (links.map (·.value))⟩)⟩ := by
  obtain ⟨links, stop, follow, rests⟩ := exists_longest_chain proceeds
  refine ⟨links, stop, follow, rests, fun limit enough => ?_⟩
  have fits := follow.length_le
  rw [many, follow.rounds rests (by omega), Run.bind_of_value rfl]
  simp [Run.after]

end Matcher

/-- A parser that stops at the third character, wherever it begins. -/
def Parser.landing : Parser := .observed "landing" (.fixed (.success ⟨3, ⟨0, 3⟩, .null⟩))

/-- It lands once and stays there. Further on it would move back, but there it is never tried. -/
theorem Store.landing_collected :
    Store.empty.matcher (.many .landing) ⟨#['a', 'b', 'c', 'd', 'e']⟩ 0 =
      ⟨[.visited "landing" 0, .visited "landing" 3], .value (.success ⟨3, ⟨0, 3⟩, .list [.null]⟩)⟩ := by
  let source : Source := ⟨#['a', 'b', 'c', 'd', 'e']⟩
  let child := Parser.landing.matcher (Store.empty.limit source 0) (Store.empty.call (Store.empty.limit source 0))
  have lands {offset : Int} {found : Success} (succeeds : child.Succeeds source offset found) :
      found = ⟨3, ⟨0, 3⟩, .null⟩ := by
    cases succeeds
    rfl
  have chains {links : List Success} {later : Int} (follow : Links (child.Gains source) 0 links later) :
      links = [] ∧ later = 0 ∨ links = [⟨3, ⟨0, 3⟩, .null⟩] ∧ later = 3 := by
    cases follow with
    | nil => exact .inl ⟨rfl, rfl⟩
    | cons first others =>
      obtain rfl := lands first.2.1
      cases others with
      | nil => exact .inr ⟨rfl, rfl⟩
      | cons second _ =>
        obtain ⟨_, succeeds, moved⟩ := second
        obtain rfl := lands succeeds
        exact absurd moved (by decide)
  obtain ⟨links, stop, follow, rests, collected⟩ := Matcher.many_collects_longest_chain child source 0 (by
    intro links later follow _
    refine .inr ⟨_, rfl, ?_⟩
    rcases chains follow with ⟨_, rfl⟩ | ⟨_, rfl⟩ <;> decide)
  rcases chains follow with ⟨rfl, rfl⟩ | ⟨rfl, rfl⟩
  · rcases rests with beyond | ⟨missed, fails⟩ | ⟨found, succeeds, still⟩
    · exact absurd beyond (by decide)
    · cases fails
    · obtain rfl := lands succeeds
      exact absurd still (by decide)
  · exact collected (Store.empty.limit source 0) (by decide)

end RecursiveDescent
