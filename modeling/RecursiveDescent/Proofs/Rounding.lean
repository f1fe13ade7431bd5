import Mathlib.Algebra.Order.Field.Basic
import Mathlib.Data.Nat.Cast.Order.Field
import Mathlib.Data.Rat.Cast.Order
import Mathlib.Tactic.FieldSimp
import Mathlib.Tactic.Linarith
import Mathlib.Tactic.Ring
import RecursiveDescent.Number.Binary64

/-! # Decimals are read as the nearest double

The finite magnitudes are spread over the numbers like the marks of a ruler that gets coarser: in each
stretch they are the multiples of a power of two. `Binary64.nearest` finds the stretch and rounds to a
multiple there. Marks of finer stretches lie on the other side of the mark where the stretch begins, and
marks of coarser ones are multiples as well, so no mark lies nearer.
-/

namespace RecursiveDescent.Binary64

/-- The exact value of a finite magnitude. -/
def toRat (magnitude : Nat) : ℚ := units magnitude / 2 ^ 1074

/-- A magnitude is the one to which a number that is not negative is rounded: no other one is nearer, nor
as near if the magnitude is odd. Beyond the middle between the greatest double and the next power of two,
it is infinity. -/
def Rounds (number : ℚ) (magnitude : Nat) : Prop :=
  if number < 2 ^ 1024 - 2 ^ 970 then
    magnitude < infinity ∧ ∀ other < infinity, other ≠ magnitude →
      |toRat magnitude - number| < |toRat other - number| ∨
        (|toRat magnitude - number| = |toRat other - number| ∧ Even magnitude)
  else magnitude = infinity

/-! ## Rounding to natural numbers -/

section Quotients

variable {numerator denominator : Nat}

/-- A rounded quotient is off by a half at most, and even if it is off by so much. -/
theorem roundHalfEven_error (numerator : Nat) (positive : 0 < denominator) :
    |(roundHalfEven numerator denominator : ℚ) - numerator / denominator| ≤ 1 / 2 ∧
      (|(roundHalfEven numerator denominator : ℚ) - numerator / denominator| = 1 / 2 →
        Even (roundHalfEven numerator denominator)) := by
  have whole : (numerator : ℚ) = denominator * (numerator / denominator : ℕ) + (numerator % denominator : ℕ) := by
    exact_mod_cast (Nat.div_add_mod numerator denominator).symm
  have unit : (0 : ℚ) < denominator := by exact_mod_cast positive
  have below : numerator % denominator < denominator := Nat.mod_lt _ positive
  rw [whole]
  simp only [roundHalfEven]
  generalize numerator / denominator = quotient
  generalize numerator % denominator = rest at below
  have error (step : Nat) : ((quotient + step : Nat) : ℚ) - (denominator * quotient + rest) / denominator =
      step - rest / denominator := by
    push_cast
    field_simp
    ring
  have noStep := error 0
  rw [Nat.add_zero] at noStep
  have nonneg : (0 : ℚ) ≤ rest / denominator := by positivity
  split
  · next less =>
    have part : (rest : ℚ) / denominator < 1 / 2 := by
      have cast : (2 : ℚ) * rest < denominator := by exact_mod_cast less
      rw [div_lt_iff₀ unit]
      linarith
    rw [noStep, Nat.cast_zero, zero_sub, abs_neg, abs_of_nonneg nonneg]
    exact ⟨part.le, fun half => absurd half part.ne⟩
  · split
    · next more =>
      have part : 1 / 2 < (rest : ℚ) / denominator := by
        have cast : (denominator : ℚ) < 2 * rest := by exact_mod_cast more
        rw [lt_div_iff₀ unit]
        linarith
      have less : (rest : ℚ) / denominator < 1 := by
        have cast : (rest : ℚ) < denominator := by exact_mod_cast below
        rwa [div_lt_one unit]
      rw [error 1, Nat.cast_one, abs_of_pos (by linarith)]
      exact ⟨by linarith, fun half => absurd half (by linarith : 1 - (rest : ℚ) / denominator < 1 / 2).ne⟩
    · next notLess notMore =>
      have half : (rest : ℚ) / denominator = 1 / 2 := by
        have cast : (2 : ℚ) * rest = denominator := by
          exact_mod_cast Nat.le_antisymm (Nat.not_lt.mp notMore) (Nat.not_lt.mp notLess)
        rw [div_eq_div_iff unit.ne' two_ne_zero]
        linarith
      rw [error, half]
      rcases Nat.mod_two_eq_zero_or_one quotient with even | odd
      · rw [even, Nat.cast_zero, zero_sub, abs_neg, abs_of_pos one_half_pos]
        exact ⟨le_refl _, fun _ => Nat.even_iff.mpr even⟩
      · rw [odd, Nat.cast_one, sub_half, abs_of_pos one_half_pos]
        exact ⟨le_refl _, fun _ => Nat.even_add_one.mpr (Nat.not_even_iff.mpr odd)⟩

/-- No other natural number is nearer to a quotient than the rounded one, nor as near if that is odd. -/
theorem roundHalfEven_nearest (positive : 0 < denominator) {other : Nat}
    (differs : other ≠ roundHalfEven numerator denominator) :
    |(roundHalfEven numerator denominator : ℚ) - numerator / denominator| <
        |(other : ℚ) - numerator / denominator| ∨
      (|(roundHalfEven numerator denominator : ℚ) - numerator / denominator| =
        |(other : ℚ) - numerator / denominator| ∧ Even (roundHalfEven numerator denominator)) := by
  obtain ⟨near, tie⟩ := roundHalfEven_error numerator positive
  generalize (numerator : ℚ) / denominator = exact at *
  generalize roundHalfEven numerator denominator = rounded at *
  have apart : (1 : ℚ) ≤ |(other : ℚ) - rounded| := by
    have integers : (1 : ℤ) ≤ |(other : ℤ) - rounded| := Int.one_le_abs (sub_ne_zero.mpr (by exact_mod_cast differs))
    exact_mod_cast integers
  have triangle : |(other : ℚ) - rounded| ≤ |(other : ℚ) - exact| + |(rounded : ℚ) - exact| := by
    rw [abs_sub_comm (rounded : ℚ) exact]
    exact abs_sub_le _ _ _
  rcases (show |(rounded : ℚ) - exact| ≤ |(other : ℚ) - exact| by linarith).lt_or_eq with less | same
  · exact .inl less
  · exact .inr ⟨same, tie (by linarith)⟩

end Quotients

/-! ## The ruler of magnitudes -/

theorem units_of_subnormal {magnitude : Nat} (small : magnitude < 2 ^ 52) : units magnitude = magnitude := by
  have quotient : magnitude / 2 ^ 52 = 0 := Nat.div_eq_of_lt small
  simp only [units, Nat.pow_eq, quotient, if_true, Nat.mod_eq_of_lt small]

theorem units_of_normal {exponent fraction : Nat} (small : fraction < 2 ^ 52) :
    units ((exponent + 1) * 2 ^ 52 + fraction) = (2 ^ 52 + fraction) * 2 ^ exponent := by
  have quotient : ((exponent + 1) * 2 ^ 52 + fraction) / 2 ^ 52 = exponent + 1 := by omega
  have rest : ((exponent + 1) * 2 ^ 52 + fraction) % 2 ^ 52 = fraction := by omega
  simp only [units, Nat.pow_eq, quotient, rest, if_neg (Nat.succ_ne_zero exponent), Nat.add_sub_cancel]

/-- A magnitude is subnormal, or has an exponent and a fraction. -/
theorem magnitude_cases (magnitude : Nat) : magnitude < 2 ^ 52 ∨
    ∃ exponent fraction, fraction < 2 ^ 52 ∧ magnitude = (exponent + 1) * 2 ^ 52 + fraction := by
  by_cases small : magnitude < 2 ^ 52
  · exact .inl small
  · exact .inr ⟨magnitude / 2 ^ 52 - 1, magnitude % 2 ^ 52, by omega, by omega⟩

/-- Before the end of a stretch, values are below twice the one with which the stretch begins. -/
theorem units_lt {magnitude exponent : Nat} (before : magnitude < (exponent + 1) * 2 ^ 52) :
    units magnitude < 2 ^ 52 * 2 ^ exponent := by
  rcases magnitude_cases magnitude with small | ⟨other, fraction, small, rfl⟩
  · rw [units_of_subnormal small]
    exact small.trans_le (Nat.le_mul_of_pos_right _ (Nat.two_pow_pos _))
  · rw [units_of_normal small]
    calc (2 ^ 52 + fraction) * 2 ^ other
        < 2 ^ 52 * 2 * 2 ^ other := Nat.mul_lt_mul_of_pos_right (by omega) (Nat.two_pow_pos _)
      _ = 2 ^ 52 * 2 ^ (other + 1) := by ring
      _ ≤ 2 ^ 52 * 2 ^ exponent := Nat.mul_le_mul_left _ (Nat.pow_le_pow_right two_pos (by omega))

/-- From the beginning of a stretch on, all values are multiples, and none is below that of the beginning. -/
theorem units_multiple {magnitude exponent : Nat} (after : (exponent + 1) * 2 ^ 52 ≤ magnitude) :
    ∃ count, 2 ^ 52 ≤ count ∧ units magnitude = count * 2 ^ exponent := by
  rcases magnitude_cases magnitude with small | ⟨other, fraction, small, rfl⟩
  · omega
  · obtain ⟨more, rfl⟩ : ∃ more, other = exponent + more := ⟨other - exponent, by omega⟩
    refine ⟨(2 ^ 52 + fraction) * 2 ^ more, ?_, ?_⟩
    · exact (Nat.le_add_right _ _).trans (Nat.le_mul_of_pos_right _ (Nat.two_pow_pos _))
    · rw [units_of_normal small, Nat.mul_assoc, Nat.add_comm exponent, Nat.pow_add]

theorem units_strictMono : StrictMono units := by
  intro less more lt
  rcases magnitude_cases more with small | ⟨exponent, fraction, small, rfl⟩
  · rwa [units_of_subnormal small, units_of_subnormal (lt.trans small)]
  · by_cases before : less < (exponent + 1) * 2 ^ 52
    · obtain ⟨count, large, value⟩ := units_multiple (Nat.le_add_right ((exponent + 1) * 2 ^ 52) fraction)
      rw [value]
      exact (units_lt before).trans_le (Nat.mul_le_mul_right _ large)
    · obtain ⟨part, rfl⟩ : ∃ part, less = (exponent + 1) * 2 ^ 52 + part := ⟨less - (exponent + 1) * 2 ^ 52, by omega⟩
      rw [units_of_normal (by omega), units_of_normal small]
      exact Nat.mul_lt_mul_of_pos_right (by omega) (Nat.two_pow_pos _)

/-- The multiples within a stretch, its end included, are the values of consecutive magnitudes. -/
theorem units_add {exponent count : Nat} (low : exponent = 0 ∨ 2 ^ 52 ≤ count) (high : count ≤ 2 ^ 53) :
    units (exponent * 2 ^ 52 + count) = count * 2 ^ exponent := by
  obtain small | normal | rfl : count < 2 ^ 52 ∨ (2 ^ 52 ≤ count ∧ count < 2 ^ 53) ∨ count = 2 ^ 53 := by omega
  · obtain rfl : exponent = 0 := by omega
    rw [Nat.zero_mul, Nat.zero_add, units_of_subnormal small, Nat.pow_zero, Nat.mul_one]
  · obtain ⟨fraction, rfl⟩ : ∃ fraction, count = 2 ^ 52 + fraction := ⟨count - 2 ^ 52, by omega⟩
    rw [← Nat.add_assoc, ← Nat.succ_mul, units_of_normal (by omega)]
  · have end_eq : exponent * 2 ^ 52 + 2 ^ 53 = (exponent + 1 + 1) * 2 ^ 52 + 0 := by omega
    rw [end_eq, units_of_normal (Nat.two_pow_pos 52)]
    ring

theorem toRat_strictMono : StrictMono toRat := by
  intro less more lt
  exact div_lt_div_of_pos_right (by exact_mod_cast units_strictMono lt) (by positivity)

/-- A number is rounded to one magnitude only: between two even ones there is another. -/
theorem Rounds.unique {number : ℚ} {magnitude other : Nat} (rounds : Rounds number magnitude)
    (alike : Rounds number other) : magnitude = other := by
  wlog less : magnitude < other generalizing magnitude other
  · rcases (Nat.not_lt.mp less).eq_or_lt with equal | more
    · exact equal.symm
    · exact (this alike rounds more).symm
  rw [Rounds] at rounds alike
  split at rounds
  · next finite =>
    rw [if_pos finite] at alike
    obtain ⟨within, nearest⟩ := rounds
    obtain ⟨bounded, nearestOther⟩ := alike
    have first := nearest other bounded less.ne'
    have second := nearestOther magnitude within less.ne
    obtain ⟨even, evenOther⟩ : Even magnitude ∧ Even other := by
      refine ⟨(first.resolve_left fun lt => ?_).2, (second.resolve_left fun lt => ?_).2⟩
      · rcases second with nearer | ⟨equal, _⟩ <;> linarith
      · rcases first with nearer | ⟨equal, _⟩ <;> linarith
    have between : magnitude + 1 < other := by
      obtain ⟨half, rfl⟩ := even
      obtain ⟨halfOther, rfl⟩ := evenOther
      omega
    have low := toRat_strictMono (Nat.lt_succ_self magnitude)
    have high := toRat_strictMono between
    have notNearer : |toRat magnitude - number| ≤ |toRat (magnitude + 1) - number| :=
      (nearest _ (between.trans bounded) (Nat.succ_ne_self magnitude)).elim le_of_lt fun tie => tie.1.le
    have notNearerOther : |toRat other - number| ≤ |toRat (magnitude + 1) - number| :=
      (nearestOther _ (between.trans bounded) between.ne).elim le_of_lt fun tie => tie.1.le
    rcases le_total (toRat (magnitude + 1)) number with before | after
    · rw [abs_of_nonpos (sub_nonpos.mpr before), abs_of_nonpos (by linarith)] at notNearer
      linarith
    · rw [abs_of_nonneg (sub_nonneg.mpr after), abs_of_nonneg (by linarith)] at notNearerOther
      linarith
  · next infinite =>
    rw [if_neg infinite] at alike
    exact rounds.trans alike.symm

/-! ## The nearest magnitude -/

section Nearest

variable {scaled denominator exponent : Nat}

/-- A number that lies in a stretch is rounded to a multiple from its beginning to its end. -/
theorem roundHalfEven_bounds (begins : exponent = 0 ∨ 2 ^ 52 * 2 ^ exponent ≤ scaled / denominator)
    (ends : scaled / denominator < 2 ^ 53 * 2 ^ exponent) :
    (exponent = 0 ∨ 2 ^ 52 ≤ roundHalfEven scaled (denominator * 2 ^ exponent)) ∧
      roundHalfEven scaled (denominator * 2 ^ exponent) ≤ 2 ^ 53 := by
  have positive : 0 < 2 ^ exponent := Nat.two_pow_pos exponent
  have high : scaled / (denominator * 2 ^ exponent) < 2 ^ 53 := by
    rw [← Nat.div_div_eq_div_mul]
    exact (Nat.div_lt_iff_lt_mul positive).mpr ends
  have low : exponent = 0 ∨ 2 ^ 52 ≤ scaled / (denominator * 2 ^ exponent) := by
    rw [← Nat.div_div_eq_div_mul]
    exact begins.imp_right (Nat.le_div_iff_mul_le positive).mpr
  have near : scaled / (denominator * 2 ^ exponent) ≤ roundHalfEven scaled (denominator * 2 ^ exponent) ∧
      roundHalfEven scaled (denominator * 2 ^ exponent) ≤ scaled / (denominator * 2 ^ exponent) + 1 := by
    simp only [roundHalfEven]
    generalize scaled / (denominator * 2 ^ exponent) = quotient
    split
    · omega
    · split <;> omega
  exact ⟨low.imp_right near.1.trans', near.2.trans high⟩

/-- In its stretch, a number is rounded to the nearest of all magnitudes, one of two as an even one. -/
theorem ruler_nearest (positive : 0 < denominator)
    (begins : exponent = 0 ∨ 2 ^ 52 * 2 ^ exponent ≤ scaled / denominator)
    (ends : scaled / denominator < 2 ^ 53 * 2 ^ exponent) {magnitude other : Nat}
    (here : magnitude = exponent * 2 ^ 52 + roundHalfEven scaled (denominator * 2 ^ exponent))
    (differs : other ≠ magnitude) :
    |(units magnitude : ℚ) - scaled / denominator| < |(units other : ℚ) - scaled / denominator| ∨
      (|(units magnitude : ℚ) - scaled / denominator| = |(units other : ℚ) - scaled / denominator| ∧
        Even magnitude) := by
  obtain ⟨low, high⟩ := roundHalfEven_bounds begins ends
  have unit : (0 : ℚ) < 2 ^ exponent := by positivity
  have nearest (count : Nat) (apart : count ≠ roundHalfEven scaled (denominator * 2 ^ exponent)) :=
    roundHalfEven_nearest (Nat.mul_pos positive (Nat.two_pow_pos exponent)) apart
  have value : units magnitude = roundHalfEven scaled (denominator * 2 ^ exponent) * 2 ^ exponent :=
    here ▸ units_add low high
  have parity : Even (roundHalfEven scaled (denominator * 2 ^ exponent)) → Even magnitude := by
    intro even
    rw [here]
    exact Even.add (Even.mul_left (by decide) _) even
  have scale (count : Nat) : |((count * 2 ^ exponent : Nat) : ℚ) - scaled / denominator| =
      |(count : ℚ) - scaled / (denominator * 2 ^ exponent : Nat)| * 2 ^ exponent := by
    have factor : ((count * 2 ^ exponent : Nat) : ℚ) - scaled / denominator =
        (count - scaled / (denominator * 2 ^ exponent : Nat)) * 2 ^ exponent := by
      push_cast
      field_simp
    rw [factor, abs_mul, abs_of_pos unit]
  by_cases multiple : exponent = 0 ∨ (exponent + 1) * 2 ^ 52 ≤ other
  · obtain ⟨count, same⟩ : ∃ count, units other = count * 2 ^ exponent := by
      rcases multiple with rfl | after
      · exact ⟨units other, by rw [Nat.pow_zero, Nat.mul_one]⟩
      · obtain ⟨count, _, same⟩ := units_multiple after
        exact ⟨count, same⟩
    have apart : count ≠ roundHalfEven scaled (denominator * 2 ^ exponent) := by
      rintro rfl
      exact differs (units_strictMono.injective (same.trans value.symm))
    rw [value, same, scale, scale]
    rcases nearest count apart with less | ⟨equal, even⟩
    · exact .inl (mul_lt_mul_of_pos_right less unit)
    · exact .inr ⟨congrArg (· * 2 ^ exponent) equal, parity even⟩
  · -- The beginning of the stretch lies between the number and all that is below.
    rw [not_or, Nat.not_le] at multiple
    have below : (units other : ℚ) < (2 ^ 52 * 2 ^ exponent : Nat) := by exact_mod_cast units_lt multiple.2
    have start : ((2 ^ 52 * 2 ^ exponent : Nat) : ℚ) ≤ scaled / denominator :=
      (Nat.cast_le.mpr (begins.resolve_left multiple.1)).trans Nat.cast_div_le
    have near : |(units magnitude : ℚ) - scaled / denominator| ≤
        |((2 ^ 52 * 2 ^ exponent : Nat) : ℚ) - scaled / denominator| := by
      by_cases same : 2 ^ 52 = roundHalfEven scaled (denominator * 2 ^ exponent)
      · rw [value, ← same]
      · rw [value, scale, scale]
        rcases nearest (2 ^ 52) same with less | ⟨equal, _⟩
        · exact mul_le_mul_of_nonneg_right less.le unit.le
        · exact (congrArg (· * 2 ^ exponent) equal).le
    refine .inl (near.trans_lt ?_)
    rw [abs_of_nonpos (sub_nonpos.mpr start), abs_of_neg (sub_neg.mpr (below.trans_le start))]
    exact neg_lt_neg (sub_lt_sub_right below _)

/-- The rounded magnitude reaches infinity half a step of the last stretch before its end. -/
theorem infinity_le_iff (positive : 0 < denominator)
    (begins : exponent = 0 ∨ 2 ^ 52 * 2 ^ exponent ≤ scaled / denominator)
    (ends : scaled / denominator < 2 ^ 53 * 2 ^ exponent) :
    infinity ≤ exponent * 2 ^ 52 + roundHalfEven scaled (denominator * 2 ^ exponent) ↔
      (2 ^ 53 - 1 / 2) * 2 ^ 2045 ≤ (scaled : ℚ) / denominator := by
  obtain ⟨low, high⟩ := roundHalfEven_bounds begins ends
  obtain ⟨near, tie⟩ := roundHalfEven_error scaled (Nat.mul_pos positive (Nat.two_pow_pos exponent))
  have rescaled : (scaled : ℚ) / (denominator * 2 ^ exponent : Nat) = scaled / denominator / 2 ^ exponent := by
    push_cast
    rw [div_div]
  rw [rescaled] at near tie
  have unit : (0 : ℚ) < 2 ^ 2045 := by positivity
  have last : exponent = 2045 → ((2 ^ 53 - 1 / 2) * 2 ^ 2045 ≤ (scaled : ℚ) / denominator ↔
      2 ^ 53 - 1 / 2 ≤ (scaled : ℚ) / denominator / 2 ^ exponent) := by
    rintro rfl
    exact (le_div_iff₀ unit).symm
  generalize roundHalfEven scaled (denominator * 2 ^ exponent) = count at *
  have value : infinity = 2047 * 2 ^ 52 := by decide
  constructor
  · intro reached
    obtain more | ⟨rfl, rfl⟩ : 2046 ≤ exponent ∨ (exponent = 2045 ∧ count = 2 ^ 53) := by omega
    · have start : ((2 ^ 52 * 2 ^ exponent : Nat) : ℚ) ≤ scaled / denominator :=
        (Nat.cast_le.mpr (begins.resolve_left (by omega))).trans Nat.cast_div_le
      have grown : (2 : ℚ) * 2 ^ 2045 ≤ 2 ^ exponent := by
        rw [← pow_succ']
        exact pow_le_pow_right₀ one_le_two more
      push_cast at start
      generalize (2 : ℚ) ^ 2045 = step at *
      linarith
    · rw [last rfl]
      generalize (scaled : ℚ) / denominator / 2 ^ 2045 = reduced at *
      push_cast at near
      linarith [(abs_le.mp near).2]
  · intro beyond
    have least : 2045 ≤ exponent := by
      by_contra less
      have close : (scaled : ℚ) / denominator < (scaled / denominator : Nat) + 1 := by
        rw [div_lt_iff₀ (by exact_mod_cast positive), mul_comm]
        exact_mod_cast Nat.lt_mul_div_succ scaled positive
      have top : ((scaled / denominator : Nat) : ℚ) + 1 ≤ 2 ^ 53 * 2 ^ exponent := by exact_mod_cast ends
      have small : (2 : ℚ) * 2 ^ exponent ≤ 2 ^ 2045 := by
        rw [← pow_succ']
        exact pow_le_pow_right₀ one_le_two (by omega)
      generalize (2 : ℚ) ^ 2045 = step at *
      linarith
    rcases least.lt_or_eq with more | rfl
    · have start := low.resolve_left (by omega)
      omega
    · have half := (last rfl).mp beyond
      generalize (scaled : ℚ) / denominator / 2 ^ 2045 = reduced at *
      have bounds := abs_le.mp near
      have great : (2 : ℚ) ^ 53 - 1 ≤ count := by linarith
      have cases : count = 2 ^ 53 - 1 ∨ count = 2 ^ 53 := by
        have cast : 2 ^ 53 ≤ count + 1 := by
          have ordered : (2 : ℚ) ^ 53 ≤ count + 1 := by linarith
          exact_mod_cast ordered
        omega
      rcases cases with rfl | rfl
      · have odd := tie (le_antisymm near ?_)
        · exact absurd odd (by decide)
        · rw [abs_sub_comm]
          refine le_trans ?_ (le_abs_self _)
          push_cast
          linarith
      · omega

end Nearest

/-- The nearest magnitude is the one to which a quotient is rounded. -/
theorem nearest_rounds (numerator : Nat) {denominator : Nat} (positive : 0 < denominator) :
    Rounds (numerator / denominator) (nearest numerator denominator) := by
  have stretch (whole : Nat) : (whole.log2 - 52 = 0 ∨ 2 ^ 52 * 2 ^ (whole.log2 - 52) ≤ whole) ∧
      whole < 2 ^ 53 * 2 ^ (whole.log2 - 52) := by
    rw [← Nat.pow_add, ← Nat.pow_add]
    constructor
    · by_cases first : whole.log2 - 52 = 0
      · exact .inl first
      · have exact : 52 + (whole.log2 - 52) = whole.log2 := by omega
        rw [exact]
        exact .inr (Nat.log2_self_le (by rintro rfl; exact first rfl))
    · exact Nat.lt_log2_self.trans_le (Nat.pow_le_pow_right two_pos (by omega))
  obtain ⟨begins, ends⟩ := stretch (numerator * 2 ^ 1074 / denominator)
  have overflow := infinity_le_iff positive begins ends
  have nearer (other : Nat) := @ruler_nearest _ _ _ positive begins ends _ other rfl
  have unit : (0 : ℚ) < 2 ^ 1074 := by positivity
  have scale : ((numerator * 2 ^ 1074 : Nat) : ℚ) / denominator = numerator / denominator * 2 ^ 1074 := by
    rw [Nat.cast_mul, Nat.cast_pow, Nat.cast_ofNat, mul_div_right_comm]
  have distance (magnitude : Nat) : |toRat magnitude - numerator / denominator| =
      |(units magnitude : ℚ) - (numerator * 2 ^ 1074 : Nat) / denominator| / 2 ^ 1074 := by
    rw [scale, toRat, eq_div_iff unit.ne', ← abs_of_pos unit, ← abs_mul, abs_of_pos unit, sub_mul,
      div_mul_cancel₀ _ unit.ne']
  have limit : (numerator : ℚ) / denominator < 2 ^ 1024 - 2 ^ 970 ↔
      ((numerator * 2 ^ 1074 : Nat) : ℚ) / denominator < (2 ^ 53 - 1 / 2) * 2 ^ 2045 := by
    have same : ((2 : ℚ) ^ 1024 - 2 ^ 970) * 2 ^ 1074 = (2 ^ 53 - 1 / 2) * 2 ^ 2045 := by
      rw [sub_mul, sub_mul, ← pow_add, ← pow_add, ← pow_add, pow_succ' _ 2044, ← mul_assoc,
        one_div_mul_cancel two_ne_zero, one_mul]
    rw [scale, ← same, mul_lt_mul_iff_left₀ unit]
  rw [← not_le, ← not_le, not_iff_not, ← overflow] at limit
  have shape : nearest numerator denominator = min infinity
      (((numerator * 2 ^ 1074 / denominator).log2 - 52) * 2 ^ 52 + roundHalfEven (numerator * 2 ^ 1074)
        (denominator * 2 ^ ((numerator * 2 ^ 1074 / denominator).log2 - 52))) := by
    rw [nearest]
    -- Both sides have the same powers, and the great one is not to be evaluated.
    generalize 1074 = places
    simp only [Nat.pow_eq]
  rw [shape]
  generalize (numerator * 2 ^ 1074 / denominator).log2 - 52 = exponent at *
  generalize exponent * 2 ^ 52 + roundHalfEven (numerator * 2 ^ 1074) (denominator * 2 ^ exponent) = rounded at *
  rw [Rounds]
  split
  · next finite =>
    have less : rounded < infinity := Nat.not_le.mp (limit.not.mp (not_le.mpr finite))
    rw [Nat.min_eq_right less.le]
    refine ⟨less, fun other _ differs => ?_⟩
    rw [distance, distance, div_lt_div_iff_of_pos_right unit, div_left_inj' unit.ne']
    exact nearer other differs
  · next beyond => exact Nat.min_eq_left (limit.mp (not_lt.mp beyond))

/-- A decimal is read as the double that it is rounded to. -/
theorem ofDecimal_rounds (negative : Bool) (digits places : Nat) :
    (ofDecimal negative digits places).negative = negative ∧
      Rounds (digits / 10 ^ places) (ofDecimal negative digits places).magnitude.toNat := by
  have rounds := nearest_rounds digits (Nat.pow_pos (n := places) (show 0 < 10 by decide))
  have small : nearest digits (10 ^ places) < 2 ^ 63 := (Nat.min_le_left _ _).trans_lt (by decide)
  rw [Nat.cast_pow, Nat.cast_ofNat] at rounds
  refine ⟨rfl, ?_⟩
  rwa [ofDecimal, Nat.pow_eq, BitVec.toNat_ofNat, Nat.mod_eq_of_lt small]

/-- Doubles with one sign to which one number is rounded are the same. -/
theorem eq_of_rounds {number : ℚ} {x y : Binary64} (sign : x.negative = y.negative)
    (rounds : Rounds number x.magnitude.toNat) (alike : Rounds number y.magnitude.toNat) : x = y :=
  congrArg₂ Binary64.mk sign (BitVec.eq_of_toNat_eq (rounds.unique alike))

end RecursiveDescent.Binary64
