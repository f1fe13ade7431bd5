import RecursiveDescent.Number.Decimal
import RecursiveDescent.Number.Numeral
import RecursiveDescent.Result

/-! # Values and results as shown to a person

Numbers of moderate size are written in full, very great and very small ones with an exponent of two
digits at least. A decimal always shows a point or an exponent, so that it is told from an integer,
which is printed in full or not at all.
-/

namespace RecursiveDescent

/-- A positive decimal: in full if its first digit stands between the fourth place after the point and
the sixteenth before it, else with an exponent. Zeros at the end of the digits are dropped. -/
def Decimal.display (decimal : Decimal) : String :=
  let numeral := Nat.toDigits 10 decimal.digits
  let leading : Int := numeral.length - 1 + decimal.exponent
  let digits := (numeral.reverse.dropWhile (· == '0')).reverse
  String.ofList <|
    if leading < -4 || 16 ≤ leading then
      let fraction := digits.drop 1
      let exponent := Nat.toDigits 10 leading.natAbs
      digits.take 1 ++ (if fraction.isEmpty then [] else '.' :: fraction) ++
        ['e', if leading < 0 then '-' else '+'] ++ List.replicate (2 - exponent.length) '0' ++ exponent
    else if leading < 0 then
      ['0', '.'] ++ List.replicate (leading.natAbs - 1) '0' ++ digits
    else
      let whole := digits.take (leading.toNat + 1)
      let fraction := digits.drop (leading.toNat + 1)
      whole ++ List.replicate (leading.toNat + 1 - whole.length) '0' ++
        '.' :: (if fraction.isEmpty then ['0'] else fraction)

/-- A double with its sign, by the shortest decimal that reads back. -/
def Binary64.display (x : Binary64) : String :=
  let magnitude := x.magnitude.toNat
  if !x.isNumber then "nan"
  else
    let unsigned :=
      if magnitude = infinity then "inf"
      else if magnitude = 0 then "0.0"
      else (Decimal.shortest magnitude).display
    if x.negative then "-" ++ unsigned else unsigned

namespace Value

mutual

/-- A value as it would be written in an expression. -/
def display : Value → Except Fault String
  | .null => .ok "None"
  | .bool flag => .ok (if flag then "True" else "False")
  | .int number => printed number
  | .float number => .ok number.display
  | .text content => .ok (Text.quoted content)
  | .list items => do return "[" ++ ", ".intercalate (← displayAll items) ++ "]"
  | .dict entries => do return "\x7b" ++ ", ".intercalate (← displayEntries entries) ++ "\x7d"

def displayAll : List Value → Except Fault (List String)
  | [] => .ok []
  | item :: rest => do return (← item.display) :: (← displayAll rest)

def displayEntries : List (String × Value) → Except Fault (List String)
  | [] => .ok []
  | (key, value) :: rest => do
      return (Text.quoted key ++ ": " ++ (← value.display)) :: (← displayEntries rest)

end

end Value

def Span.display (span : Span) : Except Fault String := do
  return "(" ++ (← printed span.start) ++ ", " ++ (← printed span.stop) ++ ")"

def Result.display : Result → Except Fault String
  | .success found => do
      return "Success(pos=" ++ (← printed found.pos) ++ ", span=" ++ (← found.span.display) ++ ", value=" ++
        (← found.value.display) ++ ")"
  | .failure missed => do
      return "Failure(pos=" ++ (← printed missed.pos) ++ ", span=" ++ (← missed.span.display) ++ ", expected=" ++
        Text.quoted missed.expected ++ ")"

end RecursiveDescent
