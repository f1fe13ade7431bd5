import RecursiveDescent.Proofs.Ways

/-! # Backtracking tries the ways in their order

A pattern is attempted with a continuation, and the answer is that of the first way of the pattern that the
continuation accepts. A search is cut short in two places: a repetition makes no more optional copies than the text that
is left could hold, and a span does not stop where the character that is expected after it does not stand. Neither
changes the answer, provided that what is expected does open what follows.
-/

namespace RecursiveDescent

/-! ## Places in a row -/

/-- The progress at a position and at so many after it. -/
def Progress.places (state : Progress) (count : Nat) : List Progress :=
  (List.range' state.pos (count + 1)).map state.move

namespace Progress

theorem places_zero (state : Progress) : state.places 0 = [state] := rfl

theorem places_succ (state : Progress) (count : Nat) :
    state.places (count + 1) = state :: (state.move (state.pos + 1)).places count := rfl

theorem places_concat (state : Progress) (count : Nat) :
    state.places (count + 1) = state.places count ++ [state.move (state.pos + (count + 1))] := by
  rw [places, List.range'_1_concat, List.map_append]
  rfl

end Progress

namespace Pattern

/-- Places in the order in which a repetition prefers them. -/
def ordered (greedy : Bool) (places : List Progress) : List Progress := if greedy then places.reverse else places

theorem ordered_cons (greedy : Bool) (here : Progress) (further : List Progress) :
    ordered greedy (here :: further) = arrange greedy (ordered greedy further) here := by
  cases greedy with
  | true => exact List.reverse_cons
  | false => rfl

theorem ordered_zero (greedy : Bool) (state : Progress) : ordered greedy (state.places 0) = [state] := by
  cases greedy <;> rfl

/-! ## Runs of characters -/

variable {source : Source} {pattern body : Pattern} {set : CharSet} {follow : Option CharSet} {greedy : Bool}
  {least limit count pos : Nat} {most : Option Nat} {state : Progress} {ways : List Progress} {next : Continuation}

theorem runEnd_ge (source : Source) (set : CharSet) (limit pos : Nat) : pos ≤ runEnd source set limit pos := by
  induction limit generalizing pos with
  | zero => exact Nat.le_refl pos
  | succ limit ih =>
    rw [runEnd]
    split
    · exact Nat.le_trans (Nat.le_succ pos) (ih (pos + 1))
    · exact Nat.le_refl pos

theorem runEnd_le_size (source : Source) (set : CharSet) (limit : Nat) (inside : pos ≤ source.size) :
    runEnd source set limit pos ≤ source.size := by
  induction limit generalizing pos with
  | zero => exact inside
  | succ limit ih =>
    rw [runEnd]
    split
    · next accepted => exact ih (lt_of_accepts accepted)
    · exact inside

/-- A run goes on from where the run of a lower limit was stopped by that limit. -/
theorem runEnd_add (source : Source) (set : CharSet) (least rest pos : Nat) :
    runEnd source set (least + rest) pos =
      if runEnd source set least pos = pos + least then runEnd source set rest (pos + least)
      else runEnd source set least pos := by
  induction least generalizing pos with
  | zero => rw [Nat.zero_add, runEnd, Nat.add_zero, if_pos rfl]
  | succ least ih =>
    rw [Nat.succ_add, runEnd, runEnd]
    split
    · rw [ih, Nat.add_assoc, Nat.add_comm 1 least]
    · rw [if_neg (by omega)]

/-- A run of too few characters is one with any limit. -/
theorem runEnd_short (short : runEnd source set least pos < pos + least) (limit : Nat) :
    runEnd source set limit pos - pos < least := by
  have after := runEnd_ge source set least pos
  by_cases enough : least ≤ limit
  · rw [← Nat.add_sub_cancel' enough, runEnd_add, if_neg (by omega)]
    omega
  · have bound := runEnd_le source set limit pos
    omega

/-- One more character of a run is one more place. -/
theorem places_runEnd (source : Source) (set : CharSet) (limit : Nat) (state : Progress) :
    state.places (runEnd source set limit (state.pos + 1) - state.pos) =
      state :: (state.move (state.pos + 1)).places (runEnd source set limit (state.pos + 1) - (state.pos + 1)) := by
  have after := runEnd_ge source set limit (state.pos + 1)
  have more : runEnd source set limit (state.pos + 1) - state.pos =
    runEnd source set limit (state.pos + 1) - (state.pos + 1) + 1 := by omega
  rw [more, Progress.places_succ]

/-- Optional copies of one character stop at the places of a run. -/
theorem Yields.optional_run (yields : Yields source (.repeat 0 most greedy (.char set)) state ways)
    (enough : source.size - state.pos ≤ limit ∨ most = some limit) (few : ∀ bound ∈ most, limit ≤ bound) :
    ways = ordered greedy (state.places (runEnd source set limit state.pos - state.pos)) := by
  induction limit generalizing state most ways with
  | zero =>
    rw [runEnd, Nat.sub_self, ordered_zero]
    cases yields with
    | enough => rfl
    | optional _ more copied =>
      cases copied with
      | char =>
        rw [if_neg]
        · cases greedy <;> rfl
        · intro accepted
          have before := lt_of_accepts accepted
          exact enough.elim (by omega) more
  | succ limit ih =>
    cases yields with
    | enough => exact absurd (few 0 rfl) (Nat.not_succ_le_zero limit)
    | optional _ more copied still moved =>
      rw [runEnd]
      cases copied with
      | char =>
        by_cases accepted : (source.char? state.pos).any set.accepts = true
        · rw [if_pos accepted] at moved ⊢
          have copied := moved _ (List.mem_singleton_self _) (Nat.succ_ne_self state.pos)
          have room : source.size - (state.pos + 1) ≤ limit ∨ most.map (· - 1) = some limit :=
            enough.imp (by omega) (congrArg (Option.map (· - 1)))
          have fewer : ∀ bound ∈ most.map (· - 1), limit ≤ bound := by
            intro bound member
            obtain ⟨before, among, rfl⟩ := Option.map_eq_some_iff.mp member
            have le := few before among
            omega
          rw [if_pos accepted, places_runEnd, ordered_cons, List.flatMap_singleton, ih copied room fewer]
          rfl
        · rw [if_neg accepted, if_neg accepted, Nat.sub_self, ordered_zero]
          cases greedy <;> rfl

/-- The required copies of one character are the beginning of a run. -/
theorem Yields.required_run (yields : Yields source (.repeat least most greedy (.char set)) state ways) :
    (runEnd source set least state.pos = state.pos + least ∧
        Yields source (.repeat 0 (most.map (· - least)) greedy (.char set)) (state.move (state.pos + least)) ways) ∨
      (runEnd source set least state.pos < state.pos + least ∧ ways = []) := by
  induction least generalizing state most ways with
  | zero =>
    have same : most.map (· - 0) = most := by cases most <;> rfl
    rw [same]
    exact .inl ⟨rfl, yields⟩
  | succ least ih =>
    cases yields with
    | required unrolled =>
      cases unrolled with
      | seq before later =>
        rw [runEnd]
        cases before with
        | char =>
          by_cases accepted : (source.char? state.pos).any set.accepts = true
          · rw [if_pos accepted] at later ⊢
            have others := ih (later (state.move (state.pos + 1)) (List.mem_singleton_self _))
            have fewer : (most.map (· - 1)).map (· - least) = most.map (· - (least + 1)) := by
              cases most with
              | none => rfl
              | some bound => exact congrArg some ((Nat.sub_sub bound 1 least).trans (by rw [Nat.add_comm]))
            have further : state.pos + 1 + least = state.pos + (least + 1) := by omega
            simp only [Progress.move, further, fewer] at others
            rw [if_pos accepted, List.flatMap_singleton]
            exact others
          · rw [if_neg accepted, if_neg accepted]
            exact .inr ⟨by omega, rfl⟩

/-- The ways of a span: the places of a run from where enough characters have been read, if they can be read. -/
theorem Yields.span_run (yields : Yields source (.span least most greedy set follow) state ways)
    (bounds : ∀ bound ∈ most, least ≤ bound) (inside : state.pos ≤ source.size) :
    (runEnd source set least state.pos = state.pos + least ∧
        ∃ rest, min (source.size - state.pos) (most.getD (source.size - state.pos)) = least + rest ∧
          ways = ordered greedy ((state.move (state.pos + least)).places
            (runEnd source set rest (state.pos + least) - (state.pos + least)))) ∨
      (runEnd source set least state.pos < state.pos + least ∧ ways = []) := by
  cases yields with
  | span _ repeated =>
    refine repeated.required_run.imp_left fun ⟨reached, others⟩ => ?_
    have room := runEnd_le_size source set least inside
    cases most with
    | none =>
      refine ⟨reached, source.size - state.pos - least, ?_, others.optional_run (.inl ?_) nofun⟩
      · rw [Option.getD_none]
        omega
      · simp only [Progress.move]
        omega
    | some bound =>
      have order := bounds bound rfl
      refine ⟨reached, min (source.size - state.pos) bound - least, ?_, others.optional_run ?_ ?_⟩
      · rw [Option.getD_some]
        omega
      · simp only [Progress.move, Option.map_some, Option.some.injEq]
        omega
      · rintro _ ⟨⟩
        exact Nat.sub_le_sub_right (Nat.min_le_right _ _) least

/-! ## What is expected to follow -/

/-- What a span expects to follow it. -/
def hint? : Pattern → Option CharSet
  | .span _ _ true _ follow => follow
  | _ => none

/-- The bounds of spans are in order, and where a span expects a character to follow, the next pattern opens with it. -/
def Sound : Pattern → Prop
  | .span least most _ _ _ => ∀ bound ∈ most, least ≤ bound
  | .seq first second =>
      (first.hint? = none ∨ first.hint? = second.opening?) ∧ second.hint? = none ∧ first.Sound ∧ second.Sound
  | .alt first second => (first.hint? = none ∧ first.Sound) ∧ second.hint? = none ∧ second.Sound
  | .group _ body | .repeat _ _ _ body | .look _ _ body => body.hint? = none ∧ body.Sound
  | .atLeast _ _ => False
  | _ => True

/-- A continuation accepts no place where what is expected to follow does not stand. -/
def Awaits (source : Source) (hint : Option CharSet) (next : Continuation) : Prop :=
  ∀ state, mayFollow source hint state.pos = false → next state = none

theorem awaits_of_none {hint : Option CharSet} (unhinted : hint = none) : Awaits source hint next := by
  subst unhinted
  exact nofun

theorem attempt_of_opening (opens : pattern.opening? = some set)
    (rejected : (source.char? state.pos).any set.accepts = false) : attempt source pattern next state = none := by
  induction pattern generalizing next with
  | char other =>
    cases opens
    simp only [attempt, rejected, Bool.false_eq_true, if_false]
  | seq first second ihFirst _ => exact ihFirst opens
  | _ => cases opens

/-- What opens a pattern is awaited by it. -/
theorem awaits_opening (pattern : Pattern) (next : Continuation) :
    Awaits source pattern.opening? (attempt source pattern next) := by
  intro state rejected
  cases opens : pattern.opening? with
  | none =>
    rw [opens] at rejected
    cases rejected
  | some set =>
    rw [opens] at rejected
    exact attempt_of_opening opens rejected

/-! ## Spans -/

theorem farthestFirst_eq (awaits : Awaits source follow next) (state : Progress) (pos count : Nat) :
    farthestFirst source follow next state pos count = ((state.move pos).places count).reverse.findSome? next := by
  induction count with
  | zero => exact (List.findSome?_singleton ..).symm
  | succ count ih =>
    have last : (state.move pos).move ((state.move pos).pos + (count + 1)) = state.move (pos + (count + 1)) := rfl
    rw [farthestFirst, Progress.places_concat, List.reverse_append, List.reverse_singleton, List.singleton_append,
      List.findSome?_cons, last, ih]
    split
    · cases next (state.move (pos + (count + 1))) <;> rfl
    · next stopped => rw [awaits (state.move _) (Bool.eq_false_iff.mpr stopped)]

theorem nearestFirst_eq (next : Continuation) (state : Progress) (count pos : Nat) :
    nearestFirst source set next state count pos =
      ((state.move pos).places (runEnd source set count pos - pos)).findSome? next := by
  induction count generalizing pos with
  | zero =>
    rw [runEnd, Nat.sub_self]
    exact (List.findSome?_singleton ..).symm
  | succ count ih =>
    rw [nearestFirst, runEnd]
    by_cases accepted : (source.char? pos).any set.accepts = true
    · have row := places_runEnd source set count (state.move pos)
      simp only [Progress.move] at row
      rw [if_pos accepted, if_pos accepted, ih, Progress.move, row, List.findSome?_cons]
      cases next ⟨pos, state.captures⟩ <;> rfl
    · rw [if_neg accepted, if_neg accepted, Nat.sub_self, Progress.places_zero, List.findSome?_singleton]
      cases next (state.move pos) <;> rfl

/-- A span tries its ways in their order, if what is expected to follow is awaited. -/
theorem attempt_span_yields (yields : Yields source (.span least most greedy set follow) state ways)
    (bounds : ∀ bound ∈ most, least ≤ bound) (inside : state.pos ≤ source.size)
    (awaits : Awaits source (hint? (.span least most greedy set follow)) next) :
    attempt source (.span least most greedy set follow) next state = ways.findSome? next := by
  rcases yields.span_run bounds inside with ⟨reached, rest, limit, rfl⟩ | ⟨short, rfl⟩
  · have after := runEnd_ge source set rest (state.pos + least)
    have room := runEnd_le_size source set least inside
    have run : runEnd source set (least + rest) state.pos = runEnd source set rest (state.pos + least) := by
      rw [runEnd_add, if_pos reached]
    cases greedy with
    | true =>
      have enough : ¬runEnd source set rest (state.pos + least) - state.pos < least := by omega
      simp only [attempt, limit, run, if_neg enough, Nat.sub_sub]
      exact farthestFirst_eq awaits state _ _
    | false =>
      have enough : (source.size - state.pos < least || runEnd source set least state.pos < state.pos + least) =
          false := by
        rw [Bool.or_eq_false_iff, decide_eq_false_iff_not, decide_eq_false_iff_not]
        omega
      simp only [attempt, enough, limit, Nat.add_sub_cancel_left, Bool.false_eq_true, if_false]
      exact nearestFirst_eq next state _ _
  · cases greedy with
    | true =>
      have few := runEnd_short short (min (source.size - state.pos) (most.getD (source.size - state.pos)))
      simp only [attempt, if_pos few]
      rfl
    | false =>
      simp only [attempt, short, decide_true, Bool.or_true, if_true]
      rfl

/-! ## Repetition -/

/-- What each of several places leads to is what the ways from there lead to. -/
theorem findSome?_flatMap {middles : List Progress} {ends : Progress → List Progress} {first next : Continuation}
    (each : ∀ middle ∈ middles, first middle = (ends middle).findSome? next) :
    middles.findSome? first = (middles.flatMap ends).findSome? next := by
  induction middles with
  | nil => rfl
  | cons middle middles ih =>
    obtain ⟨here, others⟩ := List.forall_mem_cons.mp each
    rw [List.findSome?_cons, List.flatMap_cons, List.findSome?_append, here, ih others]
    cases (ends middle).findSome? next <;> rfl

theorem findSome?_arrange (next : Continuation) (greedy : Bool) (further : List Progress) (here : Progress) :
    (arrange greedy further here).findSome? next =
      if greedy then (further.findSome? next).or (next here) else (next here).or (further.findSome? next) := by
  cases greedy with
  | true => rw [arrange, if_pos rfl, if_pos rfl, List.findSome?_append, List.findSome?_singleton]
  | false =>
    rw [arrange, if_neg Bool.false_ne_true, if_neg Bool.false_ne_true, List.findSome?_cons]
    cases next here <;> rfl

/-- A part of a pattern tries its ways in their order, whatever follows. -/
def Tries (source : Source) (body : Pattern) : Prop :=
  ∀ {state ways} (next : Continuation), body.Yields source state ways → state.pos ≤ source.size →
    attempt source body next state = ways.findSome? next

/-- Optional copies are tried in their order, if as many are allowed as the text could hold and one more, or as the
pattern allows. -/
theorem attempt_optional (tries : Tries source body) {began : Option Nat}
    (yields : Yields source (.repeat 0 most greedy body) state ways) (inside : state.pos ≤ source.size)
    (fresh : began ≠ some state.pos) (enough : source.size - state.pos < count ∨ most = some count)
    (few : ∀ bound ∈ most, count ≤ bound) :
    optionalCopies (attempt source body) greedy next count began state = ways.findSome? next := by
  induction count generalizing state most began ways with
  | zero =>
    cases yields with
    | enough => exact (List.findSome?_singleton ..).symm
    | optional _ more => exact (enough.elim (Nat.not_lt_zero _) more).elim
  | succ count ih =>
    cases yields with
    | enough => exact absurd (few 0 rfl) (Nat.not_succ_le_zero count)
    | @optional _ _ _ _ copies further more copied still moved =>
      have each : ∀ copy ∈ copies, optionalCopies (attempt source body) greedy next count (some state.pos) copy =
          (further copy).findSome? next := by
        intro copy member
        obtain ⟨after, within⟩ := copied.bounds inside copy member
        by_cases same : copy.pos = state.pos
        · rw [still copy member same, List.findSome?_singleton]
          cases count with
          | zero => rfl
          | succ count => simp only [optionalCopies, same, if_true]
        · have room : source.size - copy.pos < count ∨ most.map (· - 1) = some count :=
            enough.imp (by omega) (congrArg (Option.map (· - 1)))
          refine ih (moved copy member same) within (fun began => same (Option.some.inj began).symm) room ?_
          intro bound member
          obtain ⟨before, among, rfl⟩ := Option.map_eq_some_iff.mp member
          have le := few before among
          omega
      have all : attempt source body (optionalCopies (attempt source body) greedy next count (some state.pos)) state =
          (copies.flatMap further).findSome? next := by
        rw [tries _ copied inside, findSome?_flatMap each]
      rw [findSome?_arrange]
      simp only [optionalCopies, if_neg fresh, all]
      split
      · cases (copies.flatMap further).findSome? next <;> rfl
      · cases next state <;> rfl

theorem allowance_succ (least : Nat) (most : Option Nat) (room : Nat) :
    allowance (least + 1) most room = allowance least (most.map (· - 1)) room := by
  cases most with
  | none => rfl
  | some bound => rw [Option.map_some, allowance, allowance, Nat.sub_sub, Nat.add_comm 1]

theorem attempt_repeat (tries : Tries source body) (yields : Yields source (.repeat least most greedy body) state ways)
    (inside : state.pos ≤ source.size) :
    attempt source (.repeat least most greedy body) next state = ways.findSome? next := by
  induction least generalizing state most ways with
  | zero =>
    refine attempt_optional tries yields inside nofun ?_ ?_
    · cases most with
      | none => exact .inl (Nat.lt_succ_self _)
      | some bound =>
        rw [allowance, Option.some.injEq]
        omega
    · rintro bound ⟨⟩
      exact Nat.le_trans (Nat.min_le_left _ _) (Nat.sub_le _ _)
  | succ least ih =>
    cases yields with
    | required unrolled =>
      cases unrolled with
      | seq before later =>
        have rest : attempt source (.repeat (least + 1) most greedy body) next state =
            attempt source body (attempt source (.repeat least (most.map (· - 1)) greedy body) next) state := by
          simp only [attempt, requiredCopies, allowance_succ]
        rw [rest, tries _ before inside]
        exact findSome?_flatMap fun middle member => ih (later middle member) (before.bounds inside middle member).2

/-! ## Patterns -/

/-- A test is passed in one way or in none. -/
theorem findSome?_test (next : Continuation) (way : Progress) (passed : Prop) [Decidable passed] :
    (if passed then [way] else []).findSome? next = if passed then next way else none := by
  split
  · exact List.findSome?_singleton
  · rfl

theorem findSome?_looked (next : Continuation) (complement : Bool) (ways : List Progress) (state : Progress) :
    (looked complement ways state).findSome? next =
      match ways.findSome? some with
      | some inner => if complement then none else next (inner.move state.pos)
      | none => if complement then next state else none := by
  match complement, ways with
  | false, [] => rfl
  | false, _ :: _ => exact List.findSome?_singleton
  | true, [] => exact List.findSome?_singleton
  | true, _ :: _ => rfl

/-- An attempt answers what the first way leads to of those that lead anywhere. -/
theorem attempt_yields (sound : pattern.Sound) (yields : pattern.Yields source state ways)
    (inside : state.pos ≤ source.size) (awaits : Awaits source pattern.hint? next) :
    attempt source pattern next state = ways.findSome? next := by
  induction pattern generalizing state ways next with
  | empty =>
    cases yields with
    | empty => exact (List.findSome?_singleton ..).symm
  | char set =>
    cases yields with
    | char => exact (findSome?_test ..).symm
  | seq first second ihFirst ihSecond =>
    obtain ⟨expected, unhinted, soundFirst, soundSecond⟩ := sound
    cases yields with
    | seq before later =>
      have awaited : Awaits source first.hint? (attempt source second next) := by
        rcases expected with nothing | opening
        · exact awaits_of_none nothing
        · exact opening ▸ awaits_opening second next
      rw [attempt, ihFirst soundFirst before inside awaited]
      refine findSome?_flatMap fun middle member => ?_
      exact ihSecond soundSecond (later middle member) (before.bounds inside middle member).2 (awaits_of_none unhinted)
  | alt first second ihFirst ihSecond =>
    obtain ⟨⟨unhintedFirst, soundFirst⟩, unhintedSecond, soundSecond⟩ := sound
    cases yields with
    | @alt _ _ _ ways others preferred other =>
      have here : attempt source first next state = ways.findSome? next :=
        ihFirst soundFirst preferred inside (awaits_of_none unhintedFirst)
      have there : attempt source second next state = others.findSome? next :=
        ihSecond soundSecond other inside (awaits_of_none unhintedSecond)
      simp only [attempt, here, there, List.findSome?_append]
      cases ways.findSome? next <;> rfl
  | group index body ih =>
    cases yields with
    | group _ matched =>
      rw [List.findSome?_map]
      exact ih sound.2 matched inside (awaits_of_none sound.1)
  | backref index foldCase =>
    cases yields with
    | backref captured same =>
      simp only [attempt, captured, same, if_true]
      exact (List.findSome?_singleton ..).symm
    | mismatch differs =>
      simp only [attempt]
      split
      · rfl
      · next found captured =>
        rw [differs found captured]
        rfl
  | «repeat» least most greedy body ih =>
    have tries : Tries source body := fun next yields inside => ih sound.2 yields inside (awaits_of_none sound.1)
    exact attempt_repeat tries yields inside
  | span least most greedy set follow => exact attempt_span_yields yields sound inside awaits
  | look back complement body ih =>
    cases yields with
    | @look _ _ _ _ ways room tried =>
      have start : (state.move (state.pos - back)).pos ≤ source.size := Nat.le_trans (Nat.sub_le _ _) inside
      have found : attempt source body some (state.move (state.pos - back)) = ways.findSome? some :=
        ih sound.2 tried start (awaits_of_none sound.1)
      simp only [attempt, found, if_neg (Nat.not_lt.mpr room)]
      exact (findSome?_looked next complement ways state).symm
    | outside _ _ short =>
      simp only [attempt, if_pos short]
      exact (findSome?_looked next complement [] state).symm
  | anchor condition =>
    cases yields with
    | anchor => exact (findSome?_test ..).symm
  | atLeast room body ih => exact sound.elim

end Pattern

end RecursiveDescent
