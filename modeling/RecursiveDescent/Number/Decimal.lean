import RecursiveDescent.Number.Binary64

/-! # The fewest digits that read back

A finite double is written with as few digits as tell it from every other double; of several such
decimals the nearest is taken. For each number of digits there are just two candidates, the neighbours
of the exact value among the decimals with that many digits.
-/

namespace RecursiveDescent

/-- The number `digits * 10 ^ exponent`. -/
structure Decimal where
  digits : Nat
  exponent : Int
deriving DecidableEq, Repr

namespace Decimal

def toQuotient (decimal : Decimal) : Nat × Nat :=
  if decimal.exponent < 0 then (decimal.digits, Nat.pow 10 decimal.exponent.natAbs)
  else (decimal.digits * Nat.pow 10 decimal.exponent.natAbs, 1)

/-- Whether the double nearest to the number has that magnitude. -/
def readsAs (decimal : Decimal) (magnitude : Nat) : Bool :=
  let (numerator, denominator) := decimal.toQuotient
  Binary64.nearest numerator denominator == magnitude

/-- Where the exact value of a magnitude lies in relation to the middle between a number and the next
one with the same exponent. -/
def compareMiddle (decimal : Decimal) (magnitude : Nat) : Ordering :=
  let (numerator, denominator) :=
    toQuotient ⟨10 * decimal.digits + 5, decimal.exponent - 1⟩
  compare (Binary64.units magnitude * denominator) (numerator * Nat.pow 2 1074)

/-- Of a number and the next one with the same exponent, the one that reads as the magnitude; the nearer
if both do, the even one if they are equally near. -/
def neighbour? (decimal : Decimal) (magnitude : Nat) : Option Decimal :=
  let above : Decimal := { decimal with digits := decimal.digits + 1 }
  match decimal.readsAs magnitude, above.readsAs magnitude with
  | true, false => some decimal
  | false, true => some above
  | false, false => none
  | true, true =>
      match decimal.compareMiddle magnitude with
      | .lt => some decimal
      | .gt => some above
      | .eq => some (if decimal.digits % 2 = 0 then decimal else above)

/-- The decimal places that hold the first digits of every double. -/
def places : Nat := 400

/-- The shortest decimal that reads as a positive finite magnitude: seventeen digits always do. -/
def shortest (magnitude : Nat) : Decimal :=
  let scaled := Binary64.units magnitude * Nat.pow 10 places / Nat.pow 2 1074
  let length := (Nat.toDigits 10 scaled).length
  let found? := (List.range 17).findSome? fun count =>
    let dropped := length - (count + 1)
    neighbour? ⟨scaled / Nat.pow 10 dropped, dropped - places⟩ magnitude
  found?.getD ⟨scaled, -places⟩

end Decimal

end RecursiveDescent
