import RecursiveDescent.Fault

/-! # Printed integers

An integer is printed with all of its digits or not at all: conversions between integers and decimal texts have one
limit on digits, whichever way they go.
-/

namespace RecursiveDescent

/-- An integer as it is printed, unless it has too many digits. -/
def printed (number : Int) : Except Fault String :=
  if (toString number.natAbs).length ≤ Fault.digitLimit then .ok (toString number) else .error .numberTooLong

end RecursiveDescent
