import RecursiveDescent.Proofs.Repetition

/-! # Items with separators between them

A list of items goes on for as long as a separator and another item follow and end elsewhere. It ends where the last
of its items ended: a separator with no item after it is not part of the list. The loop that reads such a list has
pairs of a separator and an item as its matches, and what is said of its matches is said of the items in them.
-/

namespace RecursiveDescent

/-- If what is a step here makes a step there, which stops at the same offset, then chains here make chains there. -/
theorem Links.transfer {step follow : Int → Success → Prop} {value : Success → Value} {pos stop : Int}
    {links : List Success} (chain : Links step pos links stop)
    (each : ∀ pos found, step pos found →
      ∃ other, follow pos other ∧ other.pos = found.pos ∧ other.value = value found) :
    ∃ others, Links follow pos others stop ∧ others.map (·.value) = links.map value := by
  induction chain with
  | nil pos => exact ⟨[], .nil pos, rfl⟩
  | @cons pos stop found links first _ ih =>
    obtain ⟨other, step, there, same⟩ := each pos found first
    obtain ⟨others, chain, values⟩ := ih
    refine ⟨other :: others, .cons step (there ▸ chain), ?_⟩
    rw [List.map_cons, List.map_cons, same, values]

namespace Matcher

variable {matcher first second item separator : Matcher} {source : Source} {pos : Int}
  {found other gap last : Success} {missed : Failure}

theorem Succeeds.unique (succeeds : matcher.Succeeds source pos found) (again : matcher.Succeeds source pos other) :
    found = other := by
  cases succeeds.symm.trans again
  rfl

theorem Succeeds.not_fails (succeeds : matcher.Succeeds source pos found) : ¬matcher.Fails source pos missed := by
  intro fails
  cases succeeds.symm.trans fails

/-! ## Two matchers in sequence -/

/-- A chain of matches is made of a first match and a chain of the others from where that one stopped. -/
theorem chain_cons_ok_iff {children : List Matcher} {all : Chain} :
    (chain source (first :: children) pos).outcome = .value (.ok all) ↔
      ∃ found tail, first.Succeeds source pos found ∧
        (chain source children found.pos).outcome = .value (.ok tail) ∧ all = ⟨found.value :: tail.values, tail.stop⟩ := by
  constructor
  · intro chained
    obtain ⟨result, matched, chained⟩ := Run.bind_outcome.mp chained
    cases result with
    | failure missed => cases chained
    | success found =>
      obtain ⟨others, followed, chained⟩ := Run.bind_outcome.mp chained
      cases others with
      | error missed => cases chained
      | ok tail => cases chained; exact ⟨found, tail, matched, followed, rfl⟩
  · rintro ⟨found, tail, succeeds, followed, rfl⟩
    exact Run.bind_outcome.mpr ⟨_, succeeds, Run.bind_outcome.mpr ⟨_, followed, rfl⟩⟩

theorem sequence_succeeds_iff {children : List Matcher} :
    (sequence children).Succeeds source pos found ↔
      ∃ all, (chain source children pos).outcome = .value (.ok all) ∧
        found = ⟨all.stop, ⟨pos, all.stop⟩, .list all.values⟩ := by
  constructor
  · intro succeeds
    obtain ⟨ended, chained, answered⟩ := Run.bind_outcome.mp succeeds
    cases ended with
    | error missed => cases answered
    | ok all => cases answered; exact ⟨all, chained, rfl⟩
  · rintro ⟨all, chained, rfl⟩
    exact Run.bind_outcome.mpr ⟨_, chained, rfl⟩

def joined (pos : Int) (gap last : Success) : Success :=
  ⟨last.pos, ⟨pos, last.pos⟩, .list [gap.value, last.value]⟩

theorem pair_succeeds_iff :
    (sequence [first, second]).Succeeds source pos found ↔
      ∃ gap last, first.Succeeds source pos gap ∧ second.Succeeds source gap.pos last ∧
        found = joined pos gap last := by
  constructor
  · intro succeeds
    obtain ⟨all, both, rfl⟩ := sequence_succeeds_iff.mp succeeds
    obtain ⟨gap, tail, divides, one, rfl⟩ := chain_cons_ok_iff.mp both
    obtain ⟨last, ended, follows, none, rfl⟩ := chain_cons_ok_iff.mp one
    cases none
    exact ⟨gap, last, divides, follows, rfl⟩
  · rintro ⟨gap, last, divides, follows, rfl⟩
    have none : (chain source [] last.pos).outcome = .value (.ok ⟨[], last.pos⟩) := rfl
    have one := chain_cons_ok_iff.mpr ⟨last, _, follows, none, rfl⟩
    have both := chain_cons_ok_iff.mpr ⟨gap, _, divides, one, rfl⟩
    exact sequence_succeeds_iff.mpr ⟨_, both, rfl⟩

/-- If the second matcher fails where the first one stopped, two in sequence fail as it does. -/
theorem pair_fails_of_succeeds (divides : first.Succeeds source pos gap) (fails : second.Fails source gap.pos missed) :
    (sequence [first, second]).Fails source pos missed := by
  have one : (chain source [second] gap.pos).outcome = .value (.error missed) :=
    Run.bind_outcome.mpr ⟨_, fails, rfl⟩
  have both : (chain source [first, second] pos).outcome = .value (.error missed) :=
    Run.bind_outcome.mpr ⟨_, divides, Run.bind_outcome.mpr ⟨_, one, rfl⟩⟩
  exact Run.bind_outcome.mpr ⟨_, both, rfl⟩

theorem pair_fails_of_fails (fails : first.Fails source pos missed) :
    (sequence [first, second]).Fails source pos missed := by
  have both : (chain source [first, second] pos).outcome = .value (.error missed) :=
    Run.bind_outcome.mpr ⟨_, fails, rfl⟩
  exact Run.bind_outcome.mpr ⟨_, both, rfl⟩

/-- Two matchers in sequence proceed where the first one does, if the second one does where the first one stops. -/
theorem pair_proceeds (proceeds : first.Proceeds source pos)
    (next : ∀ gap, first.Succeeds source pos gap → second.Proceeds source gap.pos) :
    (sequence [first, second]).Proceeds source pos := by
  rcases proceeds with ⟨missed, fails⟩ | ⟨gap, divides, le⟩
  · exact .inl ⟨missed, pair_fails_of_fails fails⟩
  · rcases next gap divides with ⟨missed, fails⟩ | ⟨last, follows, further⟩
    · exact .inl ⟨missed, pair_fails_of_succeeds divides fails⟩
    · have both := pair_succeeds_iff.mpr ⟨gap, last, divides, follows, rfl⟩
      exact .inr ⟨joined pos gap last, both, Int.le_trans le further⟩

/-! ## Lists -/

/-- Where one item ended and text is left, a separator and another item follow, and that item ends elsewhere. -/
def Continues (item separator : Matcher) (source : Source) (pos : Int) (found : Success) : Prop :=
  pos < source.size ∧ ∃ gap, separator.Succeeds source pos gap ∧ item.Succeeds source gap.pos found ∧ found.pos ≠ pos

/-- A pair that moves forward has an item that continues the list, and the value of that item as its second. -/
theorem Gains.continues (gains : (sequence [separator, item]).Gains source pos found) :
    ∃ last, Continues item separator source pos last ∧ last.pos = found.pos ∧ last.value = found.value.item 1 := by
  obtain ⟨before, succeeds, moved⟩ := gains
  obtain ⟨gap, last, divides, follows, rfl⟩ := pair_succeeds_iff.mp succeeds
  exact ⟨last, ⟨before, gap, divides, follows, Int.ne_of_gt moved⟩, rfl, rfl⟩

/-- Where no pair is gained, no item continues the list. -/
theorem Rests.not_continues (rests : (sequence [separator, item]).Rests source pos) :
    ¬Continues item separator source pos last := by
  rintro ⟨before, gap, divides, follows, moved⟩
  have succeeds := pair_succeeds_iff.mpr ⟨gap, last, divides, follows, rfl⟩
  rcases rests with beyond | ⟨missed, fails⟩ | ⟨found, again, still⟩
  · omega
  · exact succeeds.not_fails fails
  · obtain rfl := succeeds.unique again
    exact moved still

/-- Where an item succeeds and the matchers proceed after it, a list has that item and the longest chain of items that
continue it. -/
theorem sepBy_of_succeeds {head : Success} (succeeds : item.Succeeds source pos head)
    (proceeds : ∀ items stop, Links (Continues item separator source) head.pos items stop → stop < source.size →
      separator.Proceeds source stop ∧ ∀ gap, separator.Succeeds source stop gap → item.Proceeds source gap.pos) :
    ∃ items stop, Links (Continues item separator source) head.pos items stop ∧
      (∀ next, ¬Continues item separator source stop next) ∧
      ∀ limit, (source.size - head.pos).toNat < limit →
        (sepBy limit item separator source pos).outcome =
          .value (.success ⟨stop, ⟨pos, stop⟩, .list (head.value :: items.map (·.value))⟩) := by
  have proceedsPair (links : List Success) (stop : Int)
      (follow : Links ((sequence [separator, item]).Gains source) head.pos links stop) (before : stop < source.size) :
      (sequence [separator, item]).Proceeds source stop := by
    obtain ⟨items, chain, _⟩ := follow.transfer fun _ _ gains => gains.continues
    obtain ⟨divides, follows⟩ := proceeds items stop chain before
    exact pair_proceeds divides follows
  obtain ⟨links, stop, follow, rests⟩ := exists_longest_chain proceedsPair
  obtain ⟨items, chain, values⟩ := follow.transfer fun _ _ gains => gains.continues
  refine ⟨items, stop, chain, fun next => rests.not_continues, fun limit enough => ?_⟩
  have fits := follow.length_le
  have collected := congrArg Run.outcome (follow.rounds rests (by omega : links.length < limit))
  have picked : (links.map (·.value)).map (Value.item 1) = items.map (·.value) := by
    rw [values, List.map_map]
    rfl
  rw [← picked]
  exact Run.bind_outcome.mpr ⟨_, succeeds, Run.bind_outcome.mpr ⟨_, collected, rfl⟩⟩

/-- Where items and separators answer and do not move back, wherever they are tried, a list never fails. If there is
no first item it is empty, and nothing is read; else it has the values of the first item and of all items that
continue it, in order, and it ends where the last of these items ended, from where no further item continues it. -/
theorem sepBy_collects_longest_list (item separator : Matcher) (source : Source) (pos : Int)
    (proceeds : item.Proceeds source pos)
    (further : ∀ head items stop, item.Succeeds source pos head →
      Links (Continues item separator source) head.pos items stop → stop < source.size →
      separator.Proceeds source stop ∧ ∀ gap, separator.Succeeds source stop gap → item.Proceeds source gap.pos) :
    ∃ found : Success,
      (∀ limit, (source.size - pos).toNat < limit →
        (sepBy limit item separator source pos).outcome = .value (.success found)) ∧
      (∀ missed, item.Fails source pos missed → found = ⟨pos, ⟨pos, pos⟩, .list []⟩) ∧
      ∀ head, item.Succeeds source pos head →
        ∃ items stop, Links (Continues item separator source) head.pos items stop ∧
          (∀ next, ¬Continues item separator source stop next) ∧
          found = ⟨stop, ⟨pos, stop⟩, .list (head.value :: items.map (·.value))⟩ := by
  rcases proceeds with ⟨missed, fails⟩ | ⟨head, succeeds, le⟩
  · have empty (limit : Nat) :
        (sepBy limit item separator source pos).outcome = .value (.success ⟨pos, ⟨pos, pos⟩, .list []⟩) :=
      Run.bind_outcome.mpr ⟨_, fails, rfl⟩
    exact ⟨_, fun limit _ => empty limit, fun _ _ => rfl, fun head succeeds => (succeeds.not_fails fails).elim⟩
  · obtain ⟨items, stop, chain, ends, collected⟩ :=
      sepBy_of_succeeds succeeds fun items stop => further head items stop succeeds
    refine ⟨_, fun limit enough => collected limit (by omega), fun missed fails => (succeeds.not_fails fails).elim, ?_⟩
    intro other again
    obtain rfl := succeeds.unique again
    exact ⟨items, stop, chain, ends, rfl⟩

theorem proceeds_literal (expected : String) (source : Source) (pos : Int) :
    (literal expected).Proceeds source pos := by
  simp only [Proceeds, Fails, Succeeds, literal]
  split
  · exact .inr ⟨_, rfl, by dsimp only; omega⟩
  · exact .inl ⟨_, rfl⟩

/-- A comma that no item follows is left over. -/
theorem letters_leave_comma :
    (Store.empty.matcher (.sepBy (.literal "a") (.literal ",")) (.ofString "a,a,") 0).outcome =
      .value (.success ⟨3, ⟨0, 3⟩, .list [.text "a", .text "a"]⟩) ∧
    ∃ items, Links (Continues (literal "a") (literal ",") (.ofString "a,a,")) 1 items 3 ∧
      (∀ next, ¬Continues (literal "a") (literal ",") (.ofString "a,a,") 3 next) ∧
      items.map (·.value) = [.text "a"] := by
  have answered : (Store.empty.matcher (.sepBy (.literal "a") (.literal ",")) (.ofString "a,a,") 0).outcome =
      .value (.success ⟨3, ⟨0, 3⟩, .list [.text "a", .text "a"]⟩) := rfl
  have proceeds (expected : String) (pos : Int) := proceeds_literal expected (.ofString "a,a,") pos
  obtain ⟨found, collected, _, some⟩ := sepBy_collects_longest_list (literal "a") (literal ",") (.ofString "a,a,") 0
    (proceeds "a" 0) fun _ _ stop _ _ _ => ⟨proceeds "," stop, fun gap _ => proceeds "a" gap.pos⟩
  obtain ⟨items, stop, chain, ends, same⟩ := some ⟨1, ⟨0, 1⟩, .text "a"⟩ rfl
  have executed := collected (Store.empty.limit (.ofString "a,a,") 0) (by decide)
  obtain rfl : found = ⟨3, ⟨0, 3⟩, .list [.text "a", .text "a"]⟩ := by
    cases executed.symm.trans answered
    rfl
  obtain ⟨rfl, _, values⟩ := Success.mk.inj same
  refine ⟨answered, items, chain, ends, ?_⟩
  cases items with
  | nil => cases values
  | cons item others =>
    obtain ⟨_, values⟩ := List.cons.inj (Value.list.inj values)
    exact values.symm

end Matcher

end RecursiveDescent
