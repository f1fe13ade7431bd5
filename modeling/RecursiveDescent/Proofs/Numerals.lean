import Mathlib.Data.List.Induction
import Mathlib.Data.Nat.Digits.Defs
import RecursiveDescent.Proofs.Reading

/-! # What number lexemes read

An integer is written as an optional sign and its decimal digits, a decimal as an optional sign and two
runs of digits with a point between them. Either is read in full where no digit follows, and its value
is the number that the digits write.
-/

namespace RecursiveDescent.Lexeme

variable {source : Source} {negative : Bool} {text digits whole places after : List Char}

/-! ## The values of digits -/

theorem ofDigits_append (digits : List Char) (last : Char) :
    ofDigits (digits ++ [last]) = ofDigits digits * 10 + (last.toNat - '0'.toNat) := by
  rw [ofDigits, List.foldl_append]
  rfl

theorem toNat_digitChar {digit : Nat} (small : digit < 10) : digit.digitChar.toNat - '0'.toNat = digit :=
  Nat.toNat_digitChar_sub_48_of_lt_ten small

/-- The digits of a number write that number. -/
theorem ofDigits_toDigits (n : Nat) : ofDigits (Nat.toDigits 10 n) = n := by
  induction n using Nat.strongRecOn with
  | _ n ih =>
    rcases Nat.lt_or_ge n 10 with small | large
    · rw [Nat.toDigits_of_lt_base small, ← List.nil_append [_], ofDigits_append, toNat_digitChar small]
      exact Nat.zero_add n
    · rw [Nat.toDigits_of_base_le (by decide) large, ofDigits_append, ih (n / 10) (by omega),
        toNat_digitChar (Nat.mod_lt _ (by decide))]
      omega

/-- Digits in order write the number of which they are the digits, least significant last. -/
theorem ofDigits_map_digitChar (digits : List (Fin 10)) :
    ofDigits (digits.map fun digit => digit.val.digitChar) = Nat.ofDigits 10 (digits.map Fin.val).reverse := by
  induction digits using List.reverseRecOn with
  | nil => rfl
  | append_singleton digits last ih =>
    rw [List.map_append, List.map_singleton, ofDigits_append, ih, toNat_digitChar last.isLt, List.map_append,
      List.map_singleton, List.reverse_append, List.reverse_singleton, List.singleton_append, Nat.ofDigits_cons]
    omega

/-- The digits of a number have no leading zeros. -/
theorem toDigits_head {n : Nat} (positive : n ≠ 0) :
    ∃ first others, Nat.toDigits 10 n = first :: others ∧ first ≠ '0' := by
  induction n using Nat.strongRecOn with
  | _ n ih =>
    rcases Nat.lt_or_ge n 10 with small | large
    · exact ⟨_, [], Nat.toDigits_of_lt_base small, fun zero => positive (Nat.digitChar_eq_zero.mp zero)⟩
    · obtain ⟨first, others, digits, nonzero⟩ := ih (n / 10) (by omega) (by omega)
      refine ⟨first, others ++ [(n % 10).digitChar], ?_, nonzero⟩
      rw [Nat.toDigits_of_base_le (by decide) large, digits, List.cons_append]

theorem isNumeral_toDigits (n : Nat) : IsNumeral (Nat.toDigits 10 n) := by
  by_cases zero : n = 0
  · exact .inl (zero ▸ Nat.toDigits_zero 10)
  · obtain ⟨first, others, digits, nonzero⟩ := toDigits_head zero
    exact .inr ⟨first, others, digits, nonzero, fun c => Nat.isDigit_of_mem_toDigits (by decide) (by decide)⟩

theorem isNumeral_ones (more : Nat) : IsNumeral (List.replicate (more + 1) '1') :=
  .inr ⟨'1', List.replicate more '1', List.replicate_succ, by decide,
    fun c member => List.eq_of_mem_replicate member ▸ rfl⟩

theorem splitSign_minus (unsigned : digits.head? ≠ some '-') :
    splitSign (minus negative ++ digits) = (negative, digits) := by
  cases negative with
  | true => rfl
  | false => exact splitSign.eq_2 digits fun others same => unsigned (congrArg List.head? same)

theorem head?_ne_minus_of_digits (areDigits : ∀ c ∈ digits, c.isDigit = true) (nonempty : digits ≠ [])
    (after : List Char) : (digits ++ after).head? ≠ some '-' := by
  obtain ⟨first, others, rfl⟩ := List.exists_cons_of_ne_nil nonempty
  exact head?_ne_minus (areDigits first (List.mem_cons_self ..))

theorem IsNumeral.nonempty (numeral : IsNumeral digits) : digits ≠ [] := by
  rcases numeral with rfl | ⟨first, others, rfl, _⟩ <;> exact List.cons_ne_nil _ _

theorem IsNumeral.unsigned (numeral : IsNumeral digits) : digits.head? ≠ some '-' := by
  rcases numeral with rfl | ⟨first, others, rfl, _, areDigits⟩
  · exact head?_ne_minus (by decide)
  · exact head?_ne_minus (areDigits first (List.mem_cons_self ..))

theorem IsNumeral.areDigits (numeral : IsNumeral digits) : ∀ c ∈ digits, c.isDigit = true := by
  rcases numeral with rfl | ⟨_, _, _, _, areDigits⟩
  · exact List.forall_mem_singleton.mpr rfl
  · exact areDigits

/-! ## Integers -/

def signed (negative : Bool) (number : Nat) : Int := if negative then -number else number

theorem readInteger_eq (unsigned : digits.head? ≠ some '-') :
    readInteger (String.ofList (minus negative ++ digits)) =
      if Fault.digitLimit < digits.length then .stop (.literalTooLong digits.length)
      else pure (.int (signed negative (ofDigits digits))) := by
  rw [readInteger, String.toList_ofList, splitSign_minus unsigned]
  rfl

theorem readInteger_of_digits (unsigned : digits.head? ≠ some '-') (short : digits.length ≤ Fault.digitLimit) :
    readInteger (String.ofList (minus negative ++ digits)) = pure (.int (signed negative (ofDigits digits))) := by
  rw [readInteger_eq unsigned, if_neg (Nat.not_lt.mpr short)]

/-- An integer is read if no digit follows it and it is not too long. -/
theorem reads_integer (source : Source) (negative : Bool) (n : Nat)
    (short : (Nat.toDigits 10 n).length ≤ Fault.digitLimit) (stopped : after.head?.any Char.isDigit = false) :
    integer.Reads source ((minus negative ++ Nat.toDigits 10 n) ++ after) after (.int (signed negative n)) := by
  have numeral := isNumeral_toDigits n
  have reads : (Matcher.pattern integerTree integerLabel).Reads source ((minus negative ++ Nat.toDigits 10 n) ++ after)
      after _ :=
    Matcher.reads_pattern integerLabel fun start here =>
      integer_end? (here.trans (List.append_assoc ..)) numeral (.inr stopped)
  apply Matcher.reads_map reads
  intro span
  rw [reading, readInteger_of_digits numeral.unsigned short, ofDigits_toDigits]

/-! ## Decimals -/

theorem takeWhile_point (isWhole : ∀ c ∈ whole, c.isDigit = true) (places : List Char) :
    (whole ++ '.' :: places).takeWhile (· != '.') = whole ∧
    (whole ++ '.' :: places).dropWhile (· != '.') = '.' :: places := by
  have other : ∀ c ∈ whole, (c != '.') = true := by
    intro c member
    rw [bne_iff_ne]
    rintro rfl
    exact absurd (isWhole _ member) (by decide)
  rw [List.takeWhile_append_of_pos other, List.dropWhile_append_of_pos other]
  exact ⟨List.append_nil whole, rfl⟩

theorem readFloat_of_digits (isWhole : ∀ c ∈ whole, c.isDigit = true) (nonempty : whole ≠ []) :
    readFloat (String.ofList (minus negative ++ (whole ++ '.' :: places))) =
      .float (.ofDecimal negative (ofDigits (whole ++ places)) places.length) := by
  obtain ⟨before, behind⟩ := takeWhile_point isWhole places
  simp only [readFloat, String.toList_ofList, splitSign_minus (head?_ne_minus_of_digits isWhole nonempty _), before,
    behind, List.drop_one, List.tail_cons]

/-- A decimal is read if no digit follows it. -/
theorem reads_float (source : Source) (negative : Bool) (nonempty : whole ≠ [] ∧ places ≠ [])
    (isWhole : ∀ c ∈ whole, c.isDigit = true) (arePlaces : ∀ c ∈ places, c.isDigit = true)
    (stopped : after.head?.any Char.isDigit = false) :
    float.Reads source ((minus negative ++ (whole ++ '.' :: places)) ++ after) after
      (.float (.ofDecimal negative (ofDigits (whole ++ places)) places.length)) := by
  have split : (minus negative ++ (whole ++ '.' :: places)) ++ after =
      minus negative ++ (whole ++ '.' :: (places ++ after)) := by
    simp only [List.append_assoc, List.cons_append]
  have reads : (Matcher.pattern floatTree floatLabel).Reads source
      ((minus negative ++ (whole ++ '.' :: places)) ++ after) after _ :=
    Matcher.reads_pattern floatLabel fun start here =>
      float_end? (here.trans split) nonempty isWhole arePlaces stopped
  apply Matcher.reads_map reads
  intro span
  rw [reading, readFloat_of_digits isWhole nonempty.1]

/-- An integer is not read as a decimal if neither a digit nor a point follows it. -/
theorem misses_float (source : Source) (negative : Bool) (nonempty : digits ≠ [])
    (areDigits : ∀ c ∈ digits, c.isDigit = true)
    (stopped : after.head?.any (fun c => c.isDigit || c == '.') = false) :
    float.Misses source ((minus negative ++ digits) ++ after) :=
  Matcher.misses_map (Matcher.misses_pattern _ fun _ here =>
    float_end?_none (here.trans (List.append_assoc ..)) (head?_ne_minus_of_digits areDigits nonempty _)
      areDigits stopped)

/-- Numbers begin with a sign or a digit. -/
theorem misses_numbers (source : Source) {c : Char} (text : List Char) (other : ¬(c.isDigit ∨ c = '-' ∨ c = '.')) :
    float.Misses source (c :: text) ∧ integer.Misses source (c :: text) := by
  rw [not_or, not_or, Bool.not_eq_true] at other
  obtain ⟨noDigit, noMinus, noPoint⟩ := other
  have unsigned : (c :: text).head? ≠ some '-' := fun same => noMinus (Option.some.inj same)
  constructor
  · refine Matcher.misses_map (Matcher.misses_pattern _ fun start here => ?_)
    have stopped : (c :: text).head?.any (fun c => c.isDigit || c == '.') = false :=
      Bool.or_eq_false_iff.mpr ⟨noDigit, beq_eq_false_iff_ne.mpr noPoint⟩
    have unread : source.rest start = minus false ++ ([] ++ c :: text) := here
    exact float_end?_none unread unsigned (List.forall_mem_nil _) stopped
  · refine Matcher.misses_map (Matcher.misses_pattern _ fun start here => ?_)
    exact integer_end?_none (here ▸ unsigned) (here ▸ noDigit)

end RecursiveDescent.Lexeme
