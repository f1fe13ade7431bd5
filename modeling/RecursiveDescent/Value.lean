import RecursiveDescent.Number.Binary64

/-! # Semantic values

What a successful parse produces. Parsers are combined freely, so one type holds the values of all of
them: the literals of the built-in parsers, lists from repetition and sequencing, and dictionaries,
which keep the order in which their keys were first entered.
-/

namespace RecursiveDescent

/-- The value of a successful match. -/
inductive Value where
  | null
  | bool (flag : Bool)
  | int (number : Int)
  | float (number : Binary64)
  | text (content : String)
  | list (items : List Value)
  | dict (entries : List (String × Value))
deriving Inhabited, Repr

namespace Value

/-- What kind of value it is, as reported where a parser is expected. -/
def kind : Value → String
  | .null => "NoneType"
  | .bool _ => "bool"
  | .int _ => "int"
  | .float _ => "float"
  | .text _ => "str"
  | .list _ => "list"
  | .dict _ => "dict"

/-- An item of a list; null if there is no such item or the value is no list. -/
def item (index : Nat) : Value → Value
  | .list items => items.getD index .null
  | _ => .null

/-- The number that a boolean counts as in comparisons. -/
def flagNumber (flag : Bool) : Int := if flag then 1 else 0

/-- Enter a key: a key that is present keeps its place and takes the new value. -/
def insertEntry (key : String) (value : Value) : List (String × Value) → List (String × Value)
  | [] => [(key, value)]
  | (other, kept) :: rest =>
      if other = key then (key, value) :: rest else (other, kept) :: insertEntry key value rest

def ofEntries (entries : List (String × Value)) : Value :=
  .dict (entries.foldl (fun entered entry => insertEntry entry.1 entry.2 entered) [])

mutual

/-- Equality of values: numbers by what they amount to, lists in order, dictionaries in any order. -/
def same : Value → Value → Bool
  | .null, .null => true
  | .bool a, .bool b => a == b
  | .bool a, .int n => flagNumber a == n
  | .bool a, .float x => x.sameInt (flagNumber a)
  | .int m, .bool b => m == flagNumber b
  | .int m, .int n => m == n
  | .int m, .float x => x.sameInt m
  | .float x, .bool b => x.sameInt (flagNumber b)
  | .float x, .int n => x.sameInt n
  | .float x, .float y => x.same y
  | .text s, .text t => s == t
  | .list xs, .list ys => sameList xs ys
  | .dict xs, .dict ys => xs.length == ys.length && sameEntries xs ys
  | _, _ => false

def sameList : List Value → List Value → Bool
  | [], [] => true
  | x :: xs, y :: ys => same x y && sameList xs ys
  | _, _ => false

/-- Every entry of the first list has an equal one under the same key in the second. -/
def sameEntries : List (String × Value) → List (String × Value) → Bool
  | [], _ => true
  | (key, x) :: xs, ys =>
      (match ys.lookup key with
        | some y => same x y
        | none => false) && sameEntries xs ys

end

end Value

end RecursiveDescent
