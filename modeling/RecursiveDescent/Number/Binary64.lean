/-! # Double-precision numbers, exactly

A double is its sign and the 63 bits of its magnitude. Magnitudes are ordered as their bits are, so
rounding needs no case for subnormal numbers or for a carry into the exponent: `Binary64.nearest`
works on natural numbers throughout.
-/

namespace RecursiveDescent

/-- A number in the 64-bit binary interchange format. -/
structure Binary64 where
  negative : Bool
  magnitude : BitVec 63
deriving DecidableEq, Repr

namespace Binary64

/-- The magnitude of infinity; every greater magnitude stands for no number. -/
def infinity : Nat := 0x7FF0000000000000

/-- The number of which the 64 bits, most significant first, are given. -/
def ofBits (bits : Nat) : Binary64 := ⟨bits.testBit 63, BitVec.ofNat 63 bits⟩

def toBits (x : Binary64) : Nat := (if x.negative then Nat.pow 2 63 else 0) + x.magnitude.toNat

/-- The exact value of a finite magnitude in units of `2 ^ -1074`, the smallest positive double. -/
def units (magnitude : Nat) : Nat :=
  let exponent := magnitude / Nat.pow 2 52
  let fraction := magnitude % Nat.pow 2 52
  if exponent = 0 then fraction else (Nat.pow 2 52 + fraction) * Nat.pow 2 (exponent - 1)

/-- The quotient rounded to the nearest natural number, a tie going to the even one. -/
def roundHalfEven (numerator denominator : Nat) : Nat :=
  let quotient := numerator / denominator
  let twice := 2 * (numerator % denominator)
  if twice < denominator then quotient
  else if denominator < twice then quotient + 1
  else quotient + quotient % 2

/-- The magnitude nearest to a quotient, ties to the even significand, too great ones infinite. -/
def nearest (numerator denominator : Nat) : Nat :=
  let scaled := numerator * Nat.pow 2 1074
  let shift := (scaled / denominator).log2 - 52
  min infinity (shift * Nat.pow 2 52 + roundHalfEven scaled (denominator * Nat.pow 2 shift))

/-- The double nearest to `± digits / 10 ^ places`. -/
def ofDecimal (negative : Bool) (digits places : Nat) : Binary64 :=
  ⟨negative, BitVec.ofNat 63 (nearest digits (Nat.pow 10 places))⟩

def isNumber (x : Binary64) : Bool := x.magnitude.toNat ≤ infinity

/-- The exact value in units of `2 ^ -1074`, for a finite number. -/
def units? (x : Binary64) : Option Int :=
  let magnitude := x.magnitude.toNat
  if magnitude < infinity then
    some (if x.negative then -(units magnitude : Int) else units magnitude)
  else none

/-- Numerical equality: both zeros are equal, and what is no number differs from everything. -/
def same (x y : Binary64) : Bool :=
  x.isNumber && (x == y || (x.magnitude == 0 && y.magnitude == 0))

/-- Numerical equality with an integer. -/
def sameInt (x : Binary64) (n : Int) : Bool := x.units? == some (n * Nat.pow 2 1074)

end Binary64

end RecursiveDescent
