import RecursiveDescent.Proofs.LongestPrefixes

/-! # Integers are read as they are printed

An integer is printed as a minus, if it is negative, and its digits without leading zeros. So its printed form is an
integer literal, and reading that literal gives the integer back. In the other direction, a literal is what its value
is printed as, with one exception: a zero is printed without a sign, but may be written with one.
-/

namespace RecursiveDescent.Lexeme

variable {source : Source} {pos : Nat} {negative : Bool} {digits : List Char}

/-! ## Digits of numbers -/

/-- An ASCII digit is the digit of its value. -/
theorem digitChar_value {c : Char} (digit : c.isDigit = true) :
    c.toNat - '0'.toNat < 10 ∧ (c.toNat - '0'.toNat).digitChar = c := by
  obtain ⟨low, high⟩ := Char.isDigit_iff_toNat.mp digit
  have zero : '0'.toNat = 48 := rfl
  have nine : '9'.toNat = 57 := rfl
  have small : c.toNat - '0'.toNat < 10 := by omega
  refine ⟨small, Char.toNat_inj.mp ?_⟩
  rw [Nat.toNat_digitChar_of_lt_ten small]
  omega

/-- Digits that are read after others stand after the digits of the number that was read before. -/
theorem toDigits_foldl {number : Nat} (positive : 0 < number) (areDigits : ∀ c ∈ digits, c.isDigit = true) :
    Nat.toDigits 10 (digits.foldl (fun n c => n * 10 + (c.toNat - '0'.toNat)) number) =
      Nat.toDigits 10 number ++ digits := by
  induction digits generalizing number with
  | nil => exact (List.append_nil _).symm
  | cons c digits ih =>
    obtain ⟨digit, areDigits⟩ := List.forall_mem_cons.mp areDigits
    obtain ⟨small, value⟩ := digitChar_value digit
    have extended := Nat.toDigits_append_toDigits (b := 10) (by decide) positive small
    rw [Nat.toDigits_of_lt_base small, value, Nat.mul_comm] at extended
    rw [List.foldl_cons, ih (Nat.add_pos_left (Nat.mul_pos positive (by decide)) _) areDigits, ← extended,
      List.append_assoc, List.singleton_append]

/-- Digits without leading zeros are those of the number that they write. -/
theorem toDigits_ofDigits (numeral : IsNumeral digits) : Nat.toDigits 10 (ofDigits digits) = digits := by
  rcases numeral with rfl | ⟨first, others, rfl, nonzero, areDigits⟩
  · rfl
  · obtain ⟨digit, areOthers⟩ := List.forall_mem_cons.mp areDigits
    obtain ⟨small, value⟩ := digitChar_value digit
    have positive : 0 < first.toNat - '0'.toNat := by
      refine Nat.pos_of_ne_zero fun zero => nonzero ?_
      rw [← value, zero]
      rfl
    rw [ofDigits, List.foldl_cons, Nat.zero_mul, Nat.zero_add, toDigits_foldl positive areOthers,
      Nat.toDigits_of_lt_base small, value, List.singleton_append]

/-! ## Printed integers -/

/-- An integer is printed as its sign, if it is negative, and the digits of its absolute value. -/
theorem toList_toString (n : Int) : (toString n).toList = minus (decide (n < 0)) ++ Nat.toDigits 10 n.natAbs := by
  rw [Int.toString_eq_repr, Int.repr_eq_if]
  split
  · next nonneg =>
    have same : n.toNat = n.natAbs := by omega
    rw [decide_eq_false (Int.not_lt.mpr nonneg), Nat.repr_eq_ofList_toDigits, String.toList_ofList, same]
    rfl
  · next negative =>
    have same : (-n).toNat = n.natAbs := by omega
    rw [decide_eq_true (Int.not_le.mp negative), String.toList_append, Nat.repr_eq_ofList_toDigits, same]
    exact congrArg (['-'] ++ ·) String.toList_ofList

theorem signed_natAbs (n : Int) : signed (decide (n < 0)) n.natAbs = n := by
  rw [signed]
  split
  · next negative =>
    have less := of_decide_eq_true negative
    omega
  · next nonneg =>
    have notLess := of_decide_eq_false (Bool.not_eq_true _ ▸ nonneg)
    omega

/-- A literal is what its value is printed as, unless it is a zero with a sign. -/
theorem toString_signed (numeral : IsNumeral digits) (nonzero : negative = true → digits ≠ ['0']) :
    toString (signed negative (ofDigits digits)) = .ofList (minus negative ++ digits) := by
  have written := toDigits_ofDigits numeral
  have sign : decide (signed negative (ofDigits digits) < 0) = negative := by
    cases negative with
    | false => exact decide_eq_false (Int.not_lt.mpr (Int.natCast_nonneg _))
    | true =>
      have positive : ofDigits digits ≠ 0 := by
        intro zero
        rw [zero, Nat.toDigits_zero] at written
        exact nonzero rfl written.symm
      rw [signed, if_pos rfl]
      exact decide_eq_true (by omega)
  have size : (signed negative (ofDigits digits)).natAbs = ofDigits digits := by
    cases negative with
    | false => rfl
    | true => exact Int.natAbs_neg _
  rw [← String.ofList_toList (s := toString _), toList_toString, sign, size, written]

/-! ## Reading -/

/-- A printed integer is the longest literal if no digit follows it. -/
theorem longest_printed (n : Int) {after : List Char} (stopped : after.head?.any Char.isDigit = false) :
    LongestPrefix IsInteger ((toString n).toList ++ after) (toString n).toList := by
  rw [toList_toString, List.append_assoc]
  exact longest_integer (isNumeral_toDigits _) (.inr stopped)

/-- What is read from a printed integer is that integer, if it has no more digits than are converted. -/
theorem integerOf_printed (n : Int) (short : (toString n.natAbs).length ≤ Fault.digitLimit) :
    integerOf (toString n).toList = pure (.int n) := by
  rw [Nat.toString_eq_ofList_toDigits, String.length_ofList] at short
  rw [toList_toString, integerOf_eq (isNumeral_toDigits _), if_pos short, ofDigits_toDigits, signed_natAbs]

/-- Wherever a printed integer stands and no digit follows it, it is read. -/
theorem integer_reads_printed (before after : String) (n : Int) (short : (toString n.natAbs).length ≤ Fault.digitLimit)
    (stopped : after.toList.head?.any Char.isDigit = false) :
    integer (.ofString (before ++ toString n ++ after)) before.length =
      pure (.success ⟨before.length + (toString n).length,
        ⟨before.length, before.length + (toString n).length⟩, .int n⟩) := by
  have whole : (before ++ toString n ++ after).toList = before.toList ++ ((toString n).toList ++ after.toList) := by
    rw [String.toList_append, String.toList_append, List.append_assoc]
  have here : (Source.ofString (before ++ toString n ++ after)).rest before.length =
      (toString n).toList ++ after.toList := by
    rw [Source.rest, Source.ofString, List.toList_toArray, whole, ← String.length_toList, List.drop_left]
  have within : before.length ≤ (Source.ofString (before ++ toString n ++ after)).size := by
    rw [Source.size, Source.ofString, List.size_toArray, whole, List.length_append, String.length_toList]
    exact Nat.le_add_right _ _
  have longest := longest_printed n stopped
  rw [← here] at longest
  rw [(integer_lexes within).answer longest, integerOf_printed n short, String.length_toList]
  rfl

/-- What is matched is what its value is printed as, or a zero with a sign. -/
theorem printed_of_integer (within : pos ≤ source.size) {found : Success}
    (succeeds : integer.Succeeds source pos found) :
    ∃ n, found.value = .int n ∧
      (source.slice pos found.pos = toString n ∨ source.slice pos found.pos = "-0" ∧ n = 0) := by
  obtain ⟨lexeme, longest, stop, read⟩ := (integer_lexes within).of_succeeds succeeds
  obtain ⟨negative, digits, rfl, numeral⟩ := longest.belongs
  obtain ⟨after, split⟩ := longest.begins
  rw [integerOf_eq numeral] at read
  split_ifs at read with short
  · rw [stop, Source.slice_of_rest split.symm within]
    refine ⟨_, (Outcome.value.inj read).symm, ?_⟩
    by_cases zero : negative = true ∧ digits = ['0']
    · obtain ⟨rfl, rfl⟩ := zero
      exact .inr ⟨rfl, rfl⟩
    · exact .inl (toString_signed numeral (not_and.mp zero)).symm
  · cases read

/-- An integer stops a parse if and only if its longest literal has more digits than are converted. -/
theorem integer_fault_iff (within : pos ≤ source.size) (cause : Fault) :
    (integer source pos).outcome = .fault cause ↔
      ∃ lexeme, LongestPrefix IsInteger (source.rest pos) lexeme ∧
        Fault.digitLimit < lexeme.countP Char.isDigit ∧ cause = .literalTooLong (lexeme.countP Char.isDigit) := by
  rw [(integer_lexes within).fault_iff]
  refine exists_congr fun lexeme => and_congr_right fun longest => ?_
  rw [List.countP_eq_length_filter]
  simp only [integerOf]
  split
  · next short =>
    refine iff_of_false (fun stopped => ?_) fun overlong => absurd overlong.1 (Nat.not_lt.mpr short)
    cases stopped
  · next long =>
    exact ⟨fun stopped => ⟨Nat.not_le.mp long, (Outcome.fault.inj stopped).symm⟩, fun overlong => overlong.2 ▸ rfl⟩

/-- Wherever a printed integer stands and no digit follows it, it is read as that integer, if it has no more digits
than are converted. In the other direction, a matched text is what its value is printed as, or a zero with a sign. An
integer stops a parse if and only if the longest literal has more digits than are converted, and the fault tells how
many. -/
theorem integer_inverts_printing :
    (∀ (before after : String) (n : Int), (toString n.natAbs).length ≤ Fault.digitLimit →
      after.toList.head?.any Char.isDigit = false →
      integer (.ofString (before ++ toString n ++ after)) before.length =
        pure (.success ⟨before.length + (toString n).length,
          ⟨before.length, before.length + (toString n).length⟩, .int n⟩)) ∧
    ∀ (source : Source) (pos : Nat), pos ≤ source.size →
      (∀ found, integer.Succeeds source pos found → ∃ n, found.value = .int n ∧
        (source.slice pos found.pos = toString n ∨ source.slice pos found.pos = "-0" ∧ n = 0)) ∧
      ∀ cause, (integer source pos).outcome = .fault cause ↔
        ∃ lexeme, LongestPrefix IsInteger (source.rest pos) lexeme ∧
          Fault.digitLimit < lexeme.countP Char.isDigit ∧ cause = .literalTooLong (lexeme.countP Char.isDigit) :=
  ⟨integer_reads_printed, fun _ _ within => ⟨fun _ => printed_of_integer within, integer_fault_iff within⟩⟩

/-- An integer between brackets, with its sign, and a zero with a sign, which is printed otherwise. -/
theorem minusTwelve_reads_back :
    (toString (-12 : Int).natAbs).length ≤ Fault.digitLimit ∧ "]".toList.head?.any Char.isDigit = false ∧
      integer (.ofString ("[" ++ toString (-12 : Int) ++ "]")) 1 = pure (.success ⟨4, ⟨1, 4⟩, .int (-12)⟩) ∧
      (0 ≤ (Source.ofString "-0").size ∧ integer.Succeeds (.ofString "-0") 0 ⟨2, ⟨0, 2⟩, .int 0⟩ ∧
        ∃ n, Value.int 0 = .int n ∧ ((Source.ofString "-0").slice 0 2 = toString n ∨
          (Source.ofString "-0").slice 0 2 = "-0" ∧ n = 0)) := by
  have short : (toString (-12 : Int).natAbs).length ≤ Fault.digitLimit := by decide
  have stopped : "]".toList.head?.any Char.isDigit = false := by decide
  have zero : integer.Succeeds (.ofString "-0") 0 ⟨2, ⟨0, 2⟩, .int 0⟩ := rfl
  obtain ⟨reads, inverse⟩ := integer_inverts_printing
  exact ⟨short, stopped, reads "[" "]" (-12) short stopped, Nat.zero_le _, zero,
    (inverse (.ofString "-0") 0 (Nat.zero_le _)).1 _ zero⟩

end RecursiveDescent.Lexeme
