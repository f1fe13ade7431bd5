import Mathlib.Tactic.Choose
import RecursiveDescent.Proofs.PatternBounds

/-! # The ways to match a pattern

`Pattern.Yields` lists all ways in which a pattern matches from a place, in the order in which the pattern prefers them.
It says nothing about how a match is searched for: there is no continuation in it, no bound on the number of copies, and
none of the hints by which a search is cut short. A list of ways is derived in finitely many steps; that every pattern
yields one from every place (`exists_yields`) means that the search for all of them comes to an end.
-/

namespace RecursiveDescent

namespace Pattern

/-- Where a repetition stops, among the places that further copies lead to: as late as possible if it is greedy. -/
def arrange (greedy : Bool) (further : List Progress) (here : Progress) : List Progress :=
  if greedy then further ++ [here] else here :: further

/-- Where a test leads if what it looks at matches in these ways. One that is passed keeps the captures of the first. -/
def looked (complement : Bool) (ways : List Progress) (state : Progress) : List Progress :=
  match complement, ways with
  | false, way :: _ => [way.move state.pos]
  | true, [] => [state]
  | _, _ => []

/-- The ways to match a pattern from a place, the preferred one first. -/
inductive Yields (source : Source) : Pattern → Progress → List Progress → Prop
  | empty (state : Progress) : Yields source .empty state [state]
  | char (set : CharSet) (state : Progress) :
      Yields source (.char set) state
        (if (source.char? state.pos).any set.accepts then [state.move (state.pos + 1)] else [])
  /-- Each way to match the first pattern is gone on with in all ways to match the second one. -/
  | seq {first second : Pattern} {state : Progress} {middles : List Progress} {ends : Progress → List Progress}
      (before : Yields source first state middles)
      (later : ∀ middle ∈ middles, Yields source second middle (ends middle)) :
      Yields source (.seq first second) state (middles.flatMap ends)
  | alt {first second : Pattern} {state : Progress} {ways others : List Progress}
      (preferred : Yields source first state ways) (other : Yields source second state others) :
      Yields source (.alt first second) state (ways ++ others)
  | group (index : Nat) {body : Pattern} {state : Progress} {ways : List Progress}
      (matched : Yields source body state ways) :
      Yields source (.group index body) state (ways.map (·.capture index state.pos))
  | backref {index : Nat} {foldCase : Bool} {state : Progress} {found : Capture}
      (captured : state.capture? index = some found)
      (same : repeats source foldCase (found.stop - found.start) found.start state.pos = true) :
      Yields source (.backref index foldCase) state [state.move (state.pos + (found.stop - found.start))]
  | mismatch {index : Nat} {foldCase : Bool} {state : Progress}
      (differs : ∀ found, state.capture? index = some found →
        repeats source foldCase (found.stop - found.start) found.start state.pos = false) :
      Yields source (.backref index foldCase) state []
  | required {least : Nat} {most : Option Nat} {greedy : Bool} {body : Pattern} {state : Progress}
      {ways : List Progress}
      (unrolled : Yields source (.seq body (.repeat least (most.map (· - 1)) greedy body)) state ways) :
      Yields source (.repeat (least + 1) most greedy body) state ways
  | enough (greedy : Bool) (body : Pattern) (state : Progress) :
      Yields source (.repeat 0 (some 0) greedy body) state [state]
  /-- An optional copy that does not move is the last one; after any other there may be more. -/
  | optional {most : Option Nat} (greedy : Bool) {body : Pattern} {state : Progress} {copies : List Progress}
      {further : Progress → List Progress} (more : most ≠ some 0) (copied : Yields source body state copies)
      (still : ∀ copy ∈ copies, copy.pos = state.pos → further copy = [copy])
      (moved : ∀ copy ∈ copies, copy.pos ≠ state.pos →
        Yields source (.repeat 0 (most.map (· - 1)) greedy body) copy (further copy)) :
      Yields source (.repeat 0 most greedy body) state (arrange greedy (copies.flatMap further) state)
  | span {least : Nat} {most : Option Nat} {greedy : Bool} {set : CharSet} (follow : Option CharSet) {state : Progress}
      {ways : List Progress} (repeated : Yields source (.repeat least most greedy (.char set)) state ways) :
      Yields source (.span least most greedy set follow) state ways
  | look {back : Nat} (complement : Bool) {body : Pattern} {state : Progress} {ways : List Progress}
      (room : back ≤ state.pos) (tried : Yields source body (state.move (state.pos - back)) ways) :
      Yields source (.look back complement body) state (looked complement ways state)
  /-- Nothing can be looked at before the beginning of the text. -/
  | outside {back : Nat} (complement : Bool) (body : Pattern) {state : Progress} (short : state.pos < back) :
      Yields source (.look back complement body) state (looked complement [] state)
  | anchor (condition : Anchor) (state : Progress) :
      Yields source (.anchor condition) state (if condition.holds source state.pos then [state] else [])
  | atLeast (room : Nat) {body : Pattern} {state : Progress} {ways : List Progress}
      (matched : Yields source body state ways) : Yields source (.atLeast room body) state ways

/-- Every group takes at least as many characters as are said of it. -/
def Wide (groups : Nat → Width) : Pattern → Prop
  | .seq first second | .alt first second => first.Wide groups ∧ second.Wide groups
  | .group index body => (groups index).least ≤ (body.width groups).least ∧ body.Wide groups
  | .repeat _ _ _ body | .look _ _ body | .atLeast _ body => body.Wide groups
  | _ => True

/-- If nothing is said of the groups, that is no more than they take. -/
theorem wide_exactly (pattern : Pattern) : pattern.Wide fun _ => .exactly 0 := by
  induction pattern with
  | seq first second ihFirst ihSecond => exact ⟨ihFirst, ihSecond⟩
  | alt first second ihFirst ihSecond => exact ⟨ihFirst, ihSecond⟩
  | group index body ih => exact ⟨Nat.zero_le _, ih⟩
  | «repeat» least most greedy body ih => exact ih
  | look back complement body ih => exact ih
  | atLeast room body ih => exact ih
  | _ => trivial

end Pattern

namespace Progress

/-- Every capture is at least as long as is said of its group. -/
def Wide (groups : Nat → Width) (state : Progress) : Prop :=
  ∀ capture ∈ state.captures, (groups capture.index).least ≤ capture.stop - capture.start

/-- A way leads so many characters further on at least, and not beyond the text. -/
structure Leads (source : Source) (groups : Nat → Width) (least : Nat) (state way : Progress) : Prop where
  further : state.pos + least ≤ way.pos
  inside : way.pos ≤ source.size
  wide : way.Wide groups

variable {source : Source} {groups : Nat → Width} {m n : Nat} {state middle way : Progress}

theorem mem_of_capture? {index : Nat} {found : Capture} (captured : state.capture? index = some found) :
    found ∈ state.captures ∧ found.index = index := by
  rw [capture?] at captured
  have same := List.find?_some captured
  exact ⟨List.mem_of_find?_eq_some captured, beq_iff_eq.mp same⟩

theorem Leads.refl (inside : state.pos ≤ source.size) (wide : state.Wide groups) : Leads source groups 0 state state :=
  ⟨Nat.le_refl _, inside, wide⟩

theorem Leads.of_le (leads : Leads source groups m state way) (le : n ≤ m) : Leads source groups n state way := by
  have further := leads.further
  exact ⟨by omega, leads.inside, leads.wide⟩

theorem Leads.trans (first : Leads source groups m state middle) (second : Leads source groups n middle way) :
    Leads source groups (m + n) state way := by
  have before := first.further
  have after := second.further
  exact ⟨by omega, second.inside, second.wide⟩

end Progress

namespace Pattern

variable {source : Source} {groups : Nat → Width} {pattern body : Pattern} {state here : Progress}
  {ways further : List Progress} {holds : Progress → Prop}

theorem forall_mem_arrange {greedy : Bool} :
    (∀ way ∈ arrange greedy further here, holds way) ↔ (∀ way ∈ further, holds way) ∧ holds here := by
  cases greedy with
  | true => rw [arrange, if_pos rfl, List.forall_mem_append, List.forall_mem_singleton]
  | false => rw [arrange, if_neg Bool.false_ne_true, List.forall_mem_cons, and_comm]

theorem forall_mem_looked {complement : Bool} (stays : holds state)
    (moved : ∀ way ∈ ways, holds (way.move state.pos)) : ∀ way ∈ looked complement ways state, holds way := by
  match complement, ways with
  | false, [] => exact List.forall_mem_nil _
  | false, way :: _ => exact List.forall_mem_singleton.mpr (moved way (List.mem_cons_self ..))
  | true, [] => exact List.forall_mem_singleton.mpr stays
  | true, _ :: _ => exact List.forall_mem_nil _

/-! ## Where ways lead -/

/-- Every way takes at least the width of the pattern, where groups are as wide as is said of them. -/
theorem Yields.leads (yields : pattern.Yields source state ways) (wide : pattern.Wide groups)
    (inside : state.pos ≤ source.size) (captures : state.Wide groups) :
    ∀ way ∈ ways, Progress.Leads source groups (pattern.width groups).least state way := by
  induction yields with
  | empty state => exact List.forall_mem_singleton.mpr (.refl inside captures)
  | char set state =>
    split
    · next accepted => exact List.forall_mem_singleton.mpr ⟨Nat.le_refl _, lt_of_accepts accepted, captures⟩
    · exact List.forall_mem_nil _
  | seq before later ihBefore ihLater =>
    intro way member
    obtain ⟨middle, among, member⟩ := List.mem_flatMap.mp member
    have first := ihBefore wide.1 inside captures middle among
    exact first.trans (ihLater middle among wide.2 first.inside first.wide way member)
  | alt preferred other ihPreferred ihOther =>
    refine List.forall_mem_append.mpr ⟨fun way member => ?_, fun way member => ?_⟩
    · exact (ihPreferred wide.1 inside captures way member).of_le (Nat.min_le_left _ _)
    · exact (ihOther wide.2 inside captures way member).of_le (Nat.min_le_right _ _)
  | @group index body state ways matched ih =>
    refine List.forall_mem_map.mpr fun way member => ?_
    have leads := ih wide.2 inside captures way member
    have taken := leads.further
    have enough := wide.1
    refine ⟨taken, leads.inside, List.forall_mem_cons.mpr ⟨?_, leads.wide⟩⟩
    dsimp only
    omega
  | @backref index foldCase state found captured same =>
    obtain ⟨member, rfl⟩ := Progress.mem_of_capture? captured
    have long := captures found member
    exact List.forall_mem_singleton.mpr ⟨Nat.add_le_add_left long _, repeats_le inside same, captures⟩
  | mismatch => exact List.forall_mem_nil _
  | @required least most greedy body state ways unrolled ih =>
    have width : (least + 1) * (body.width groups).least =
        (body.width groups).least + least * (body.width groups).least := by rw [Nat.succ_mul, Nat.add_comm]
    intro way member
    exact (ih ⟨wide, wide⟩ inside captures way member).of_le (Nat.le_of_eq width)
  | enough greedy body state =>
    exact List.forall_mem_singleton.mpr ((Progress.Leads.refl inside captures).of_le (Nat.le_of_eq (Nat.zero_mul _)))
  | @optional most greedy body state copies further more copied still moved ihCopied ihMoved =>
    -- No copy is required, so that the repetition has no width of its own.
    suffices all : ∀ way ∈ arrange greedy (copies.flatMap further) state, Progress.Leads source groups 0 state way from
      fun way member => (all way member).of_le (Nat.le_of_eq (Nat.zero_mul _))
    refine forall_mem_arrange.mpr ⟨fun way member => ?_, .refl inside captures⟩
    obtain ⟨copy, among, member⟩ := List.mem_flatMap.mp member
    have first := ihCopied wide inside captures copy among
    by_cases same : copy.pos = state.pos
    · rw [still copy among same, List.mem_singleton] at member
      exact member ▸ first.of_le (Nat.zero_le _)
    · exact (first.trans (ihMoved copy among same wide first.inside first.wide way member)).of_le (Nat.zero_le _)
  | span follow repeated ih => exact ih trivial inside captures
  | @look back complement body state ways room tried ih =>
    have start : (state.move (state.pos - back)).pos ≤ source.size := Nat.le_trans (Nat.sub_le _ _) inside
    refine forall_mem_looked (.refl inside captures) fun way member => ?_
    exact ⟨Nat.le_refl _, inside, (ih wide start captures way member).wide⟩
  | outside => exact forall_mem_looked (.refl inside captures) (List.forall_mem_nil _)
  | anchor =>
    split
    · exact List.forall_mem_singleton.mpr (.refl inside captures)
    · exact List.forall_mem_nil _
  | atLeast room matched ih => exact ih wide inside captures

/-- No way leads back, and none beyond the text. -/
theorem Yields.bounds (yields : pattern.Yields source state ways) (inside : state.pos ≤ source.size) :
    ∀ way ∈ ways, state.pos ≤ way.pos ∧ way.pos ≤ source.size := by
  intro way member
  have leads := yields.leads pattern.wide_exactly inside (fun _ _ => Nat.zero_le _) way member
  exact ⟨Nat.le_trans (Nat.le_add_right _ _) leads.further, leads.inside⟩

/-! ## The search ends -/

/-- A pattern yields its ways from all places within a text. -/
def Ends (source : Source) (pattern : Pattern) : Prop :=
  ∀ {state : Progress}, state.pos ≤ source.size → ∃ ways, pattern.Yields source state ways

theorem ends_seq {first second : Pattern} (endsFirst : Ends source first) (endsSecond : Ends source second) :
    Ends source (.seq first second) := by
  intro state inside
  obtain ⟨middles, before⟩ := endsFirst inside
  have each : ∀ middle ∈ middles, ∃ ways, second.Yields source middle ways := fun middle member =>
    endsSecond (before.bounds inside middle member).2
  choose! ends later using each
  exact ⟨_, .seq before later⟩

/-- Optional copies come to an end, since all but the last take some of the text that is left. -/
theorem ends_optional (ends : Ends source body) (most : Option Nat) (greedy : Bool) :
    Ends source (.repeat 0 most greedy body) := by
  intro state inside
  induction room : source.size - state.pos using Nat.strongRecOn generalizing state most with
  | ind room ih =>
    by_cases more : most = some 0
    · subst more
      exact ⟨_, .enough greedy body state⟩
    · obtain ⟨copies, copied⟩ := ends inside
      have each : ∀ copy ∈ copies, ∃ ways, (copy.pos = state.pos → ways = [copy]) ∧
          (copy.pos ≠ state.pos → Yields source (.repeat 0 (most.map (· - 1)) greedy body) copy ways) := by
        intro copy member
        obtain ⟨after, within⟩ := copied.bounds inside copy member
        by_cases same : copy.pos = state.pos
        · exact ⟨[copy], fun _ => rfl, fun moved => (moved same).elim⟩
        · obtain ⟨ways, yields⟩ := ih (source.size - copy.pos) (by omega) (most.map (· - 1)) within rfl
          exact ⟨ways, fun still => (same still).elim, fun _ => yields⟩
      choose! further spec using each
      exact ⟨_, .optional greedy more copied (fun copy member => (spec copy member).1)
        (fun copy member => (spec copy member).2)⟩

theorem ends_repeat (ends : Ends source body) (least : Nat) (most : Option Nat) (greedy : Bool) :
    Ends source (.repeat least most greedy body) := by
  induction least generalizing most with
  | zero => exact ends_optional ends most greedy
  | succ least ih =>
    intro state inside
    obtain ⟨ways, unrolled⟩ := ends_seq ends (ih (most.map (· - 1))) inside
    exact ⟨ways, .required unrolled⟩

/-- The search for all ways to match a pattern comes to an end. -/
theorem exists_yields (pattern : Pattern) : Ends source pattern := by
  have ends_char (set : CharSet) : Ends source (.char set) := fun {state} _ => ⟨_, .char set state⟩
  induction pattern with
  | empty => exact fun {state} _ => ⟨_, .empty state⟩
  | char set => exact ends_char set
  | seq first second ihFirst ihSecond => exact ends_seq ihFirst ihSecond
  | alt first second ihFirst ihSecond =>
    intro state inside
    obtain ⟨ways, preferred⟩ := ihFirst inside
    obtain ⟨others, other⟩ := ihSecond inside
    exact ⟨_, .alt preferred other⟩
  | group index body ih =>
    intro state inside
    obtain ⟨ways, matched⟩ := ih inside
    exact ⟨_, .group index matched⟩
  | backref index foldCase =>
    intro state _
    by_cases same : ∃ found, state.capture? index = some found ∧
        repeats source foldCase (found.stop - found.start) found.start state.pos = true
    · obtain ⟨found, captured, same⟩ := same
      exact ⟨_, .backref captured same⟩
    · exact ⟨_, .mismatch fun found captured => Bool.eq_false_iff.mpr fun repeated => same ⟨found, captured, repeated⟩⟩
  | «repeat» least most greedy body ih => exact ends_repeat ih least most greedy
  | span least most greedy set follow =>
    intro state inside
    obtain ⟨ways, repeated⟩ := ends_repeat (ends_char set) least most greedy inside
    exact ⟨ways, .span follow repeated⟩
  | look back complement body ih =>
    intro state inside
    by_cases room : back ≤ state.pos
    · have start : (state.move (state.pos - back)).pos ≤ source.size := Nat.le_trans (Nat.sub_le _ _) inside
      obtain ⟨ways, tried⟩ := ih start
      exact ⟨_, .look complement room tried⟩
    · exact ⟨_, .outside complement body (Nat.not_le.mp room)⟩
  | anchor condition => exact fun {state} _ => ⟨_, .anchor condition state⟩
  | atLeast room body ih =>
    intro state inside
    obtain ⟨ways, matched⟩ := ih inside
    exact ⟨ways, .atLeast room matched⟩

end Pattern

end RecursiveDescent
