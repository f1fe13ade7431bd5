import RecursiveDescent.Pattern.Assembly
import RecursiveDescent.Pattern.Matching

/-! # Where pattern matches end

No part of a pattern moves backwards or past the end of the text: lookaround, captures and repetition
included. A match is thus read as a chain of positions, in which each part hands its continuation a
position within the text that lies at least as far on as the part is wide.
-/

namespace RecursiveDescent.Pattern

variable {source : Source}

/-- Whatever a part of a pattern leads to, its continuation led to it from a position that is at least
so much further on. -/
def Advances (source : Source) (least : Nat) (part : Continuation → Continuation) : Prop :=
  ∀ next state done, state.pos ≤ source.size → part next state = some done →
    ∃ entered : Progress, state.pos + least ≤ entered.pos ∧ entered.pos ≤ source.size ∧ next entered = some done

/-- The least number of characters that a pattern matches, if its references match none. -/
def least (pattern : Pattern) : Nat := (pattern.width fun _ => .exactly 0).least

/-- Only before the end does a character stand that a set could accept. -/
theorem lt_of_accepts {set : CharSet} {pos : Nat} (accepted : (source.char? pos).any set.accepts = true) :
    pos < source.size := by
  cases found : source.char? pos with
  | none => simp only [found, Option.any_none, Bool.false_eq_true] at accepted
  | some c => exact (Array.getElem?_eq_some_iff.mp found).1

theorem runEnd_le (source : Source) (set : CharSet) (limit pos : Nat) : runEnd source set limit pos ≤ pos + limit := by
  induction limit generalizing pos with
  | zero => exact Nat.le_refl pos
  | succ limit ih =>
    rw [runEnd]
    split
    · have further := ih (pos + 1)
      omega
    · exact Nat.le_add_right pos (limit + 1)

/-- A repeated text lies within the source. -/
theorem repeats_le {foldCase : Bool} {count first second : Nat} (inside : second ≤ source.size)
    (same : repeats source foldCase count first second = true) : second + count ≤ source.size := by
  induction count generalizing first second with
  | zero => exact inside
  | succ count ih =>
    rw [repeats] at same
    split at same
    · next a b _ found =>
      have before : second < source.size := (Array.getElem?_eq_some_iff.mp found).1
      have rest := ih before (Bool.and_eq_true_iff.mp same).2
      omega
    · cases same

theorem farthestFirst_eq_some {follow : Option CharSet} {next : Continuation} {state done : Progress}
    {pos count : Nat} (reached : farthestFirst source follow next state pos count = some done) :
    ∃ moved ≤ count, next (state.move (pos + moved)) = some done := by
  induction count with
  | zero => exact ⟨0, Nat.le_refl 0, reached⟩
  | succ count ih =>
    have nearer (found : farthestFirst source follow next state pos count = some done) :
        ∃ moved ≤ count + 1, next (state.move (pos + moved)) = some done := by
      obtain ⟨moved, le, led⟩ := ih found
      exact ⟨moved, Nat.le_succ_of_le le, led⟩
    rw [farthestFirst] at reached
    split at reached
    · split at reached
      · next led => exact ⟨count + 1, Nat.le_refl _, led.trans reached⟩
      · exact nearer reached
    · exact nearer reached

theorem nearestFirst_eq_some {set : CharSet} {next : Continuation} {state done : Progress} {pos count : Nat}
    (reached : nearestFirst source set next state count pos = some done) :
    ∃ moved ≤ count, next (state.move (pos + moved)) = some done := by
  induction count generalizing pos with
  | zero => exact ⟨0, Nat.le_refl 0, reached⟩
  | succ count ih =>
    rw [nearestFirst] at reached
    split at reached
    · next led => exact ⟨0, Nat.zero_le _, led.trans reached⟩
    · split at reached
      · obtain ⟨moved, le, led⟩ := ih reached
        exact ⟨moved + 1, Nat.succ_le_succ le, by rwa [Nat.add_assoc, Nat.add_comm 1] at led⟩
      · cases reached

theorem advances_id : Advances source 0 id :=
  fun _ state _ inside reached => ⟨state, Nat.le_refl _, inside, reached⟩

theorem Advances.of_le {more less : Nat} {part : Continuation → Continuation} (advances : Advances source more part)
    (le : less ≤ more) : Advances source less part := by
  intro next state done inside reached
  obtain ⟨entered, after, within, led⟩ := advances next state done inside reached
  exact ⟨entered, by omega, within, led⟩

theorem advances_comp {m n : Nat} {first second : Continuation → Continuation}
    (firstAdvances : Advances source m first) (secondAdvances : Advances source n second) :
    Advances source (m + n) fun next => first (second next) := by
  intro next state done inside reached
  obtain ⟨middle, before, within, led⟩ := firstAdvances _ state done inside reached
  obtain ⟨entered, after, last, ended⟩ := secondAdvances next middle done within led
  exact ⟨entered, by omega, last, ended⟩

theorem advances_requiredCopies {n : Nat} {body : Continuation → Continuation}
    (bodyAdvances : Advances source n body) (count : Nat) :
    Advances source (count * n) fun next => requiredCopies body next count := by
  induction count with
  | zero => rw [Nat.zero_mul]; exact advances_id
  | succ count ih => rw [Nat.succ_mul, Nat.add_comm]; exact advances_comp bodyAdvances ih

theorem advances_optionalCopies {n : Nat} {body : Continuation → Continuation}
    (bodyAdvances : Advances source n body) (greedy : Bool) (count : Nat) (began : Option Nat) :
    Advances source 0 fun next => optionalCopies body greedy next count began := by
  induction count generalizing began with
  | zero => exact advances_id
  | succ count ih =>
    intro next state done inside reached
    have stop (ended : next state = some done) :
        ∃ entered : Progress, state.pos + 0 ≤ entered.pos ∧ entered.pos ≤ source.size ∧ next entered = some done :=
      ⟨state, Nat.le_refl _, inside, ended⟩
    have further := (advances_comp bodyAdvances (ih (some state.pos))).of_le (Nat.zero_le _) next state done inside
    simp only [optionalCopies] at reached
    split at reached
    · exact stop reached
    · split at reached
      · split at reached
        · next led => exact further (led.trans reached)
        · exact stop reached
      · split at reached
        · next ended => exact stop (ended.trans reached)
        · exact further reached

theorem advances_span (minimum : Nat) (most : Option Nat) (greedy : Bool) (set : CharSet) (follow : Option CharSet) :
    Advances source minimum (attempt source (.span minimum most greedy set follow)) := by
  intro next state done inside reached
  cases greedy with
  | true =>
    simp only [attempt] at reached
    split at reached
    · cases reached
    · obtain ⟨moved, le, led⟩ := farthestFirst_eq_some reached
      have bound : _ ≤ state.pos + min (source.size - state.pos) (most.getD (source.size - state.pos)) :=
        runEnd_le source set _ state.pos
      refine ⟨_, ?_, ?_, led⟩ <;> simp only [Progress.move] <;> omega
  | false =>
    simp only [attempt] at reached
    split at reached
    · cases reached
    · next enough =>
      obtain ⟨moved, le, led⟩ := nearestFirst_eq_some reached
      simp only [Bool.or_eq_true, decide_eq_true_eq, not_or] at enough
      refine ⟨_, ?_, ?_, led⟩ <;> simp only [Progress.move] <;> omega

/-- Every pattern advances by its least width. -/
theorem attempt_advances (pattern : Pattern) : Advances source pattern.least (attempt source pattern) := by
  induction pattern with
  | empty => exact advances_id
  | char set =>
    intro next state done inside reached
    simp only [attempt] at reached
    split at reached
    · next accepted => exact ⟨state.move (state.pos + 1), Nat.le_refl _, lt_of_accepts accepted, reached⟩
    · cases reached
  | seq first second ihFirst ihSecond =>
    intro next state done inside reached
    rw [attempt] at reached
    exact advances_comp ihFirst ihSecond next state done inside reached
  | alt first second ihFirst ihSecond =>
    intro next state done inside reached
    simp only [attempt] at reached
    split at reached
    · next led => exact ihFirst.of_le (Nat.min_le_left _ _) next state done inside (led.trans reached)
    · exact ihSecond.of_le (Nat.min_le_right _ _) next state done inside reached
  | group index body ih =>
    intro next state done inside reached
    obtain ⟨inner, before, within, led⟩ := ih _ state done inside reached
    exact ⟨inner.capture index state.pos, before, within, led⟩
  | backref index foldCase =>
    intro next state done inside reached
    simp only [attempt] at reached
    split at reached
    · cases reached
    · split at reached
      · next found same => exact ⟨_, Nat.le_add_right _ _, repeats_le inside same, reached⟩
      · cases reached
  | «repeat» minimum most greedy body ih =>
    intro next state done inside reached
    obtain ⟨middle, before, within, led⟩ := advances_requiredCopies ih minimum _ state done inside reached
    obtain ⟨entered, after, last, ended⟩ :=
      advances_optionalCopies ih greedy _ none next middle done within led
    exact ⟨entered, Nat.le_trans before after, last, ended⟩
  | span minimum most greedy set follow =>
    exact (advances_span minimum most greedy set follow).of_le (Nat.le_of_eq (Nat.mul_one minimum))
  | look back complement body _ =>
    intro next state done inside reached
    simp only [attempt] at reached
    split at reached
    · split at reached
      · exact ⟨state, Nat.le_refl _, inside, reached⟩
      · cases reached
    · split at reached
      · split at reached
        · cases reached
        · next inner _ _ => exact ⟨inner.move state.pos, Nat.le_refl _, inside, reached⟩
      · split at reached
        · exact ⟨state, Nat.le_refl _, inside, reached⟩
        · cases reached
  | anchor condition =>
    intro next state done inside reached
    simp only [attempt] at reached
    split at reached
    · exact ⟨state, Nat.le_refl _, inside, reached⟩
    · cases reached
  | atLeast room body ih =>
    intro next state done inside reached
    simp only [attempt] at reached
    split at reached
    · cases reached
    · exact ih next state done inside reached

/-- A match ends at least its width beyond the place where it began, and not beyond the text. -/
theorem end?_bounds {pattern : Pattern} {start stop : Nat} (inside : start ≤ source.size)
    (matched : pattern.end? source start = some stop) : start + pattern.least ≤ stop ∧ stop ≤ source.size := by
  obtain ⟨done, reached, rfl⟩ := Option.map_eq_some_iff.mp matched
  obtain ⟨entered, before, within, ended⟩ := attempt_advances pattern some ⟨start, []⟩ done inside reached
  obtain rfl := Option.some.inj ended
  exact ⟨before, within⟩

end RecursiveDescent.Pattern
