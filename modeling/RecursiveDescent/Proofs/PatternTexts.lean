import RecursiveDescent.Proofs.Numerals
import RecursiveDescent.Proofs.PatternBounds

/-! # What patterns read

A pattern that looks neither around nor at its captures spells texts, and reads nothing else: wherever it is
attempted, it hands its continuation the place after a text that it spells. From that follows what a match of
the lexemes consists of.
-/

namespace RecursiveDescent

namespace Pattern

/-- A text is put together from the characters that the parts of a pattern accept. -/
inductive Spells : Pattern → List Char → Prop
  | empty : Spells .empty []
  | char {set : CharSet} {c : Char} (accepted : set.accepts c = true) : Spells (.char set) [c]
  | seq {first second : Pattern} {text after : List Char} (before : Spells first text) (later : Spells second after) :
      Spells (.seq first second) (text ++ after)
  | first {first : Pattern} {text : List Char} (second : Pattern) (spells : Spells first text) :
      Spells (.alt first second) text
  | second {second : Pattern} {text : List Char} (first : Pattern) (spells : Spells second text) :
      Spells (.alt first second) text
  | group {body : Pattern} {text : List Char} (index : Nat) (spells : Spells body text) :
      Spells (.group index body) text
  | span {least : Nat} {most : Option Nat} {set : CharSet} {text : List Char} (follow : Option CharSet)
      (enough : least ≤ text.length) (few : ∀ bound, most = some bound → text.length ≤ max least bound)
      (accepted : ∀ c ∈ text, set.accepts c = true) : Spells (.span least most true set follow) text
  | atLeast {body : Pattern} {text : List Char} (room : Nat) (spells : Spells body text) :
      Spells (.atLeast room body) text

/-- A pattern consists of characters, greedy spans of characters, sequences, alternatives and groups. -/
def isPlain : Pattern → Bool
  | .empty | .char _ | .span _ _ true _ _ => true
  | .seq first second | .alt first second => first.isPlain && second.isPlain
  | .group _ body | .atLeast _ body => body.isPlain
  | _ => false

variable {source : Source} {set : CharSet} {limit pos : Nat}

/-- A run of characters consists of characters of the set. -/
theorem exists_run (source : Source) (set : CharSet) (limit pos : Nat) :
    ∃ read, read <+: source.rest pos ∧ runEnd source set limit pos = pos + read.length ∧ read.length ≤ limit ∧
      ∀ c ∈ read, set.accepts c = true := by
  induction limit generalizing pos with
  | zero => exact ⟨[], List.nil_prefix, rfl, Nat.le_refl _, List.forall_mem_nil _⟩
  | succ limit ih =>
    rw [runEnd]
    split
    · next accepted =>
      cases here : source.rest pos with
      | nil =>
        rw [Source.char?_eq_head?, here] at accepted
        cases accepted
      | cons c rest =>
        rw [Source.char?_of_rest here, Option.any_some] at accepted
        obtain ⟨read, starts, stop, le, each⟩ := ih (pos + 1)
        rw [Source.rest_succ here] at starts
        refine ⟨c :: read, List.cons_prefix_cons.mpr ⟨rfl, starts⟩, ?_, Nat.succ_le_succ le,
          List.forall_mem_cons.mpr ⟨accepted, each⟩⟩
        rw [stop, List.length_cons]
        omega
    · exact ⟨[], List.nil_prefix, rfl, Nat.zero_le _, List.forall_mem_nil _⟩

/-- A plain pattern leads to something only by way of the place after a text that it spells. -/
theorem attempt_spells {pattern : Pattern} (plain : pattern.isPlain = true) {next : Continuation}
    {state done : Progress} (reached : attempt source pattern next state = some done) :
    ∃ read entered, pattern.Spells read ∧ read <+: source.rest state.pos ∧ entered.pos = state.pos + read.length ∧
      next entered = some done := by
  induction pattern generalizing next state with
  | empty => exact ⟨[], state, .empty, List.nil_prefix, rfl, reached⟩
  | char set =>
    simp only [attempt] at reached
    split at reached
    · next accepted =>
      cases here : source.rest state.pos with
      | nil =>
        rw [Source.char?_eq_head?, here] at accepted
        cases accepted
      | cons c rest =>
        rw [Source.char?_of_rest here, Option.any_some] at accepted
        exact ⟨[c], _, .char accepted, List.cons_prefix_cons.mpr ⟨rfl, List.nil_prefix⟩, rfl, reached⟩
    · cases reached
  | seq first second ihFirst ihSecond =>
    obtain ⟨plainFirst, plainSecond⟩ := Bool.and_eq_true_iff.mp plain
    rw [attempt] at reached
    obtain ⟨text, middle, spells, starts, moved, reached⟩ := ihFirst plainFirst reached
    obtain ⟨after, entered, follows, continues, ends, reached⟩ := ihSecond plainSecond reached
    refine ⟨text ++ after, entered, .seq spells follows, ?_, by rw [ends, moved, List.length_append, Nat.add_assoc],
      reached⟩
    obtain ⟨rest, split⟩ := starts
    rw [moved, Source.rest_add split.symm] at continues
    rw [← split]
    exact (List.prefix_append_right_inj text).mpr continues
  | alt first second ihFirst ihSecond =>
    obtain ⟨plainFirst, plainSecond⟩ := Bool.and_eq_true_iff.mp plain
    simp only [attempt] at reached
    split at reached
    · next led =>
      obtain ⟨read, entered, spells, rest⟩ := ihFirst plainFirst (led.trans reached)
      exact ⟨read, entered, .first second spells, rest⟩
    · obtain ⟨read, entered, spells, rest⟩ := ihSecond plainSecond reached
      exact ⟨read, entered, .second first spells, rest⟩
  | group index body ih =>
    obtain ⟨read, entered, spells, starts, moved, reached⟩ := ih plain reached
    exact ⟨read, entered.capture index state.pos, .group index spells, starts, moved, reached⟩
  | span least most greedy set follow =>
    cases greedy with
    | false => cases plain
    | true =>
      obtain ⟨run, starts, stop, le, accepted⟩ := exists_run source set
        (min (source.size - state.pos) (most.getD (source.size - state.pos))) state.pos
      simp only [attempt, stop, Nat.add_sub_cancel_left] at reached
      split at reached
      · cases reached
      · next enough =>
        obtain ⟨moved, within, reached⟩ := farthestFirst_eq_some reached
        have length : (run.take (least + moved)).length = least + moved := by
          rw [List.length_take]
          omega
        refine ⟨run.take (least + moved), _, .span follow (by omega) (fun bound bounded => ?_)
          (fun c member => accepted c (List.mem_of_mem_take member)), (List.take_prefix _ _).trans starts, ?_, reached⟩
        · subst bounded
          rw [Option.getD_some] at le
          omega
        · rw [length, ← Nat.add_assoc]
          rfl
  | atLeast room body ih =>
    simp only [attempt] at reached
    split at reached
    · cases reached
    · obtain ⟨read, entered, spells, rest⟩ := ih plain reached
      exact ⟨read, entered, .atLeast room spells, rest⟩
  | _ => cases plain

/-- A match of a plain pattern ends after a text that the pattern spells. -/
theorem spells_of_end? {pattern : Pattern} (plain : pattern.isPlain = true) {start stop : Nat}
    (matched : pattern.end? source start = some stop) :
    ∃ read after, pattern.Spells read ∧ source.rest start = read ++ after ∧ stop = start + read.length := by
  obtain ⟨done, reached, rfl⟩ := Option.map_eq_some_iff.mp matched
  obtain ⟨read, entered, spells, ⟨after, split⟩, moved, ended⟩ := attempt_spells plain reached
  obtain rfl := Option.some.inj ended
  exact ⟨read, after, spells, split.symm, moved⟩

end Pattern

namespace Lexeme

open Pattern

variable {text : List Char}

/-- A sign spells a minus or nothing. -/
theorem minus_of_spells (spells : sign.Spells text) : ∃ negative, text = minus negative := by
  cases spells with
  | span follow enough few accepted =>
    have short := few 1 rfl
    match text, short, accepted with
    | [], _, _ => exact ⟨false, rfl⟩
    | [c], _, accepted =>
      have accept := accepted c (List.mem_singleton_self c)
      rw [CharSet.accepts_char, beq_iff_eq] at accept
      exact ⟨true, by rw [accept, minus]⟩

/-- Digits are spelled, and as many as are required. -/
theorem digits_of_spells {least : Nat} {follow : Option CharSet} (spells : (digits least follow).Spells text) :
    least ≤ text.length ∧ ∀ c ∈ text, c.isDigit = true := by
  cases spells with
  | span _ enough _ accepted =>
    refine ⟨enough, fun c member => ?_⟩
    rw [← CharSet.accepts_digit]
    exact accepted c member

/-- The integer pattern spells numerals with or without a minus. -/
theorem numeral_of_spells (spells : integerTree.Spells text) :
    ∃ negative digits, text = minus negative ++ digits ∧ IsNumeral digits := by
  cases spells with
  | seq before later =>
    obtain ⟨negative, rfl⟩ := minus_of_spells before
    refine ⟨negative, _, rfl, ?_⟩
    cases later with
    | group _ spells =>
      cases spells with
      | first _ zero =>
        cases zero with
        | char accepted =>
          rw [CharSet.accepts_char, beq_iff_eq] at accepted
          exact .inl (accepted ▸ rfl)
      | second _ digits =>
        cases digits with
        | seq head tail =>
          cases head with
          | @char _ first accepted =>
            rw [CharSet.accepts_range, Bool.and_eq_true, decide_eq_true_eq, decide_eq_true_eq] at accepted
            have digit : first.isDigit = true :=
              Char.isDigit_iff_toNat.mpr ⟨Nat.le_trans (by decide) accepted.1, accepted.2⟩
            refine .inr ⟨first, _, rfl, ?_, List.forall_mem_cons.mpr ⟨digit, (digits_of_spells tail).2⟩⟩
            rintro rfl
            exact absurd accepted.1 (by decide)

/-- Where the integer pattern matches, it reads a numeral with or without a minus. -/
theorem numeral_of_end? {source : Source} {start stop : Nat} (matched : integerTree.end? source start = some stop) :
    ∃ negative digits after, source.rest start = (minus negative ++ digits) ++ after ∧ IsNumeral digits ∧
      stop = start + (minus negative ++ digits).length := by
  obtain ⟨read, after, spells, split, ends⟩ := spells_of_end? (by decide) matched
  obtain ⟨negative, digits, rfl, numeral⟩ := numeral_of_spells spells
  exact ⟨negative, digits, after, split, numeral, ends⟩

end Lexeme

end RecursiveDescent
