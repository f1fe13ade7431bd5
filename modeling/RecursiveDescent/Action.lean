import RecursiveDescent.Matcher

/-! # Semantic actions

The actions that grammars commonly apply to the values of their matches.
-/

namespace RecursiveDescent

namespace Value

mutual

/-- A text with all texts within a value put after it, in order. -/
def joinAfter (before : String) : Value → String
  | .text content => before ++ content
  | .list items => joinAllAfter before items
  | _ => before

def joinAllAfter (before : String) : List Value → String
  | [] => before
  | item :: rest => joinAllAfter (joinAfter before item) rest

end

def count : Value → Nat
  | .list items => items.length
  | .text content => content.length
  | _ => 0

def withoutEnds : Value → Value
  | .text content => .text (String.ofList (content.toList.drop 1).dropLast)
  | other => other

def pairs : List Value → List (String × Value)
  | [] => []
  | .list [.text key, value] :: rest => (key, value) :: pairs rest
  | _ :: rest => pairs rest

/-- One step of a computation: an operator with its second operand. -/
def operate : Value → Value → Value
  | .int total, .list [.text operator, .int operand] =>
      if operator = "+" then .int (total + operand)
      else if operator = "-" then .int (total - operand)
      else .int (total * operand)
  | total, _ => total

/-- A first operand and the steps after it, taken from left to right. -/
def folded : Value → Value
  | .list [head, .list steps] => steps.foldl operate head
  | other => other

end Value

namespace Action

/-- The action that computes a value from the value alone. -/
def ofValue (compute : Value → Value) : Action := fun value _ => return compute value

def identity : Action := ofValue id

def const (value : Value) : Action := ofValue fun _ => value

def withSpan : Action := fun value span => return .list [value, .int span.start, .int span.stop]

def tag (name : String) : Action := ofValue fun value => .list [.text name, value]

/-- Take an item of a list, or null if there is none. -/
def item (index : Int) : Action := ofValue fun value => if index < 0 then .null else value.item index.toNat

/-- Concatenate all texts within the value. -/
def join : Action := ofValue fun value => .text (value.joinAfter "")

def count : Action := ofValue fun value => .int value.count

def stripEnds : Action := ofValue Value.withoutEnds

/-- Replace a text that is a key of the table. -/
def keyword (table : List (String × Value)) : Action := ofValue fun
  | .text word => (table.lookup word).getD (.text word)
  | other => other

/-- Keep the first and the third item of a list. -/
def property : Action := ofValue fun value => .list [value.item 0, value.item 2]

def toDict : Action := ofValue fun
  | .list items => Value.ofEntries (Value.pairs items)
  | other => other

/-- Carry out a chain of operations from left to right. -/
def fold : Action := ofValue Value.folded

/-- Report the call and leave the value as it is. -/
def log (name : String) : Action := fun value span => do
  Run.emit (.applied name span)
  return value

def refuse (text : String) : Action := fun _ _ => .stop (.custom text)

end Action

end RecursiveDescent
