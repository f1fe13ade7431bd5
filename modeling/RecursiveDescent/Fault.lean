import RecursiveDescent.Text.Quoted

/-! # Faults

A mismatch is an ordinary answer of a parser. What is collected here are the faults that stop the
construction or the run of a parser: each constructor is one cause, `Fault.message` holds all of the
wording, and `ErrorClass.isA` says which classes of error a handler for another class would catch.
-/

namespace RecursiveDescent

inductive ErrorClass where
  | any
  | grammar
  | unpatchedRule
  | unknownRule
  | invalidRule
  | attribute
  | key
  | value
  | pattern
  | custom
deriving DecidableEq, Repr

namespace ErrorClass

def parents : ErrorClass → List ErrorClass
  | .grammar => [.any]
  | .unpatchedRule | .invalidRule => [.grammar]
  | .unknownRule => [.grammar, .attribute]
  | _ => []

/-- The classes of which every error of a class is an instance, itself included. -/
def ancestors (errorClass : ErrorClass) : List ErrorClass :=
  errorClass :: errorClass.parents ++ errorClass.parents.flatMap parents

/-- Whether an error of the first class is an instance of the second. -/
def isA (errorClass other : ErrorClass) : Bool := errorClass.ancestors.contains other

end ErrorClass

/-- Why a parser or a grammar could not be built, or why a parse was broken off. -/
inductive Fault where
  /-- A rule was invoked before its definition was installed. -/
  | unpatchedRule (rule : String)
  /-- The grammar has no rule of that name. -/
  | unknownRule (rule : String) (known : List String)
  /-- The definition of a rule yields something other than a parser. -/
  | invalidRule (rule kind : String)
  /-- A rule was named as an attribute, but such names are never looked up among the rules. -/
  | reservedName (name : String)
  /-- A rule of a finished grammar was to be replaced. -/
  | immutableGrammar
  /-- Nothing is stored under that key. -/
  | missingKey (name : String)
  /-- A combinator that needs a parser was given none. -/
  | emptyCombinator (combinator : String)
  /-- An integer literal has more digits than are converted. -/
  | literalTooLong (digits : Nat)
  /-- A pattern does not follow the pattern syntax. -/
  | malformedPattern
  /-- A semantic action refused its value. -/
  | custom (text : String)
  /-- An integer has more digits than are printed. -/
  | numberTooLong
  /-- No output format has that name. -/
  | unknownFormat (name : String)
  /-- Something other than a parser was asked for what only a parser has. -/
  | notAParser (kind asked : String)
deriving DecidableEq, Repr

namespace Fault

/-- The greatest number of digits with which an integer is converted from a text or to one. -/
def digitLimit : Nat := 4300

def errorClass : Fault → ErrorClass
  | .unpatchedRule _ => .unpatchedRule
  | .unknownRule _ _ => .unknownRule
  | .invalidRule _ _ => .invalidRule
  | .reservedName _ | .immutableGrammar | .notAParser _ _ => .attribute
  | .missingKey _ => .key
  | .emptyCombinator _ | .literalTooLong _ | .numberTooLong | .unknownFormat _ => .value
  | .malformedPattern => .pattern
  | .custom _ => .custom

def rule? : Fault → Option String
  | .unpatchedRule rule | .unknownRule rule _ | .invalidRule rule _ => some rule
  | _ => none

def message : Fault → String
  | .unpatchedRule rule =>
      "internal error: rule '" ++ rule ++ "' was invoked before its definition was installed"
  | .unknownRule rule known =>
      let available := if known.isEmpty then "<none>" else ", ".intercalate known
      "Grammar has no rule '" ++ rule ++ "' (defined: " ++ available ++ ")"
  | .invalidRule rule kind => "Rule '" ++ rule ++ "' must return a Parser, got " ++ kind
  | .reservedName name => name
  | .immutableGrammar => "Grammar is immutable"
  | .missingKey name => Text.quoted name
  | .emptyCombinator combinator => combinator ++ "() requires at least one parser"
  | .literalTooLong digits =>
      "Exceeds the limit (" ++ toString digitLimit ++ " digits) for integer string conversion: value has " ++
        toString digits ++ " digits; use sys.set_int_max_str_digits() to increase the limit"
  | .numberTooLong =>
      "Exceeds the limit (" ++ toString digitLimit ++ " digits) for integer string conversion; " ++
        "use sys.set_int_max_str_digits() to increase the limit"
  | .malformedPattern => "malformed pattern"
  | .custom text => text
  | .unknownFormat name => Text.quoted name ++ " is not a valid OutputFormat"
  | .notAParser kind asked => "'" ++ kind ++ "' object has no attribute '" ++ asked ++ "'"

end Fault

end RecursiveDescent
