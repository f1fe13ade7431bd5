import RecursiveDescent.Proofs.LongestPrefixes
import RecursiveDescent.Proofs.Rounding

/-! # Decimals have the value that is nearest to them

A decimal literal writes a number: its digits count for their places, however many there are on either side of the
point. Its value is the double to which that number is rounded, with the sign that the literal has, also if it is a
zero. There is only one such double, so literals of the same number have the same value.
-/

namespace RecursiveDescent

namespace Lexeme

variable {source : Source} {pos : Nat} {negative : Bool} {digits places whole : List Char}

/-- The number that a decimal literal writes, without regard to its sign. -/
def absolute (literal : List Char) : ℚ :=
  let whole := (literal.takeWhile (· != '.')).filter Char.isDigit
  let places := (literal.dropWhile (· != '.')).filter Char.isDigit
  ofDigits whole + ofDigits places / 10 ^ places.length

/-- Digits that come after others count for the lower places. -/
theorem ofDigits_append_digits (digits places : List Char) :
    ofDigits (digits ++ places) = ofDigits digits * 10 ^ places.length + ofDigits places := by
  induction places using List.reverseRecOn with
  | nil => rw [List.append_nil, List.length_nil, Nat.pow_zero, Nat.mul_one]; rfl
  | append_singleton places last ih =>
    rw [← List.append_assoc, ofDigits_append, ofDigits_append, ih, List.length_append, List.length_singleton,
      Nat.pow_succ]
    ring

/-- The digits before the point are the whole part, and those behind it the places. -/
theorem absolute_eq (isWhole : ∀ c ∈ whole, c.isDigit = true) (arePlaces : ∀ c ∈ places, c.isDigit = true) :
    absolute (minus negative ++ (whole ++ '.' :: places)) = ofDigits (whole ++ places) / 10 ^ places.length := by
  obtain ⟨before, behind⟩ := takeWhile_point isWhole places
  have noPoint : ∀ c ∈ minus negative, (c != '.') = true := by cases negative <;> simp [minus]
  have noDigits : (minus negative).filter Char.isDigit = [] := by cases negative <;> rfl
  have noDigit : ¬Char.isDigit '.' = true := by decide
  have unit : (10 : ℚ) ^ places.length ≠ 0 := by positivity
  simp only [absolute]
  rw [List.takeWhile_append_of_pos noPoint, List.dropWhile_append_of_pos noPoint, before, behind, List.filter_append,
    noDigits, List.nil_append, List.filter_cons_of_neg noDigit, List.filter_eq_self.mpr isWhole,
    List.filter_eq_self.mpr arePlaces, ofDigits_append_digits]
  push_cast
  field_simp

/-- A decimal is read as the double to which its literal is rounded. -/
theorem float_rounds (within : pos ≤ source.size) {found : Success} (succeeds : float.Succeeds source pos found) :
    ∃ x, found.value = .float x ∧ IsDecimal (source.slice pos found.pos).toList ∧
      (x.negative = true ↔ (source.slice pos found.pos).toList.head? = some '-') ∧
      Binary64.Rounds (absolute (source.slice pos found.pos).toList) x.magnitude.toNat := by
  obtain ⟨lexeme, longest, stop, read⟩ := (float_lexes within).of_succeeds succeeds
  have belongs := longest.belongs
  obtain ⟨negative, whole, places, rfl, nonempty, isWhole, arePlaces⟩ := longest.belongs
  obtain ⟨after, split⟩ := longest.begins
  have value := (Outcome.value.inj read).symm
  rw [readFloat_of_digits isWhole nonempty.1] at value
  obtain ⟨sign, rounds⟩ := Binary64.ofDecimal_rounds negative (ofDigits (whole ++ places)) places.length
  have minusFirst : (minus negative ++ (whole ++ '.' :: places)).head? = some '-' ↔ negative = true := by
    cases negative with
    | true => exact iff_of_true rfl rfl
    | false => exact iff_of_false (head?_ne_minus_of_digits isWhole nonempty.1 _) Bool.false_ne_true
  rw [stop, Source.slice_of_rest split.symm within, String.toList_ofList, absolute_eq isWhole arePlaces]
  exact ⟨_, value, belongs, by rw [sign, minusFirst], rounds⟩

/-- Wherever a decimal is read, its value has the sign of the literal and the magnitude to which the number that the
literal writes is rounded: no other finite one is nearer, and of two that are equally near it is the even one, unless
the number is so great that it is rounded to infinity. So wherever a literal of the same number is read, with the
same sign, the value is the same. -/
theorem decimals_round_to_nearest (within : pos ≤ source.size) {found : Success}
    (succeeds : float.Succeeds source pos found) :
    ∃ x, found.value = .float x ∧ IsDecimal (source.slice pos found.pos).toList ∧
      (x.negative = true ↔ (source.slice pos found.pos).toList.head? = some '-') ∧
      Binary64.Rounds (absolute (source.slice pos found.pos).toList) x.magnitude.toNat ∧
      ∀ (other : Source) (place : Nat) (alike : Success), place ≤ other.size → float.Succeeds other place alike →
        ((other.slice place alike.pos).toList.head? = some '-' ↔
          (source.slice pos found.pos).toList.head? = some '-') →
        absolute (other.slice place alike.pos).toList = absolute (source.slice pos found.pos).toList →
        alike.value = .float x := by
  obtain ⟨x, value, belongs, sign, rounds⟩ := float_rounds within succeeds
  refine ⟨x, value, belongs, sign, rounds, fun other place alike inside read sameSign sameNumber => ?_⟩
  obtain ⟨y, otherValue, _, otherSign, otherRounds⟩ := float_rounds inside read
  rw [sameNumber] at otherRounds
  have signs : y.negative = x.negative := Bool.eq_iff_iff.mpr (otherSign.trans (sameSign.trans sign.symm))
  rw [otherValue, Binary64.eq_of_rounds signs otherRounds rounds]

/-- Zeros before the first digit and after the last one do not matter. -/
theorem minusSevenAndHalf_rounds :
    0 ≤ (Source.ofString "-7.5").size ∧
      float.Succeeds (.ofString "-7.5") 0 ⟨4, ⟨0, 4⟩, .float ⟨true, 0x401E000000000000⟩⟩ ∧
      Binary64.Rounds (15 / 2) 0x401E000000000000 ∧
      float.Succeeds (.ofString "-007.50") 0 ⟨7, ⟨0, 7⟩, .float ⟨true, 0x401E000000000000⟩⟩ := by
  have bits : Binary64.ofDecimal true 75 1 = ⟨true, 0x401E000000000000⟩ := by decide +kernel
  have read : float.Succeeds (.ofString "-7.5") 0 ⟨4, ⟨0, 4⟩, .float (.ofDecimal true 75 1)⟩ := rfl
  have padded : float.Succeeds (.ofString "-007.50") 0 ⟨7, ⟨0, 7⟩, .float (.ofDecimal true 750 2)⟩ := rfl
  have number : absolute ((Source.ofString "-7.5").slice 0 4).toList = 15 / 2 := by decide +kernel
  have same : absolute ((Source.ofString "-007.50").slice 0 7).toList =
      absolute ((Source.ofString "-7.5").slice 0 4).toList := by decide +kernel
  obtain ⟨x, value, _, _, rounds, alike⟩ := decimals_round_to_nearest (Nat.zero_le _) read
  obtain rfl := Value.float.inj value
  have equal := Value.float.inj (alike _ 0 _ (Nat.zero_le _) padded (iff_of_true rfl rfl) same)
  rw [bits] at read rounds equal
  rw [equal] at padded
  change Binary64.Rounds (absolute ((Source.ofString "-7.5").slice 0 4).toList) _ at rounds
  rw [number] at rounds
  exact ⟨Nat.zero_le _, read, rounds, padded⟩

end Lexeme

end RecursiveDescent
