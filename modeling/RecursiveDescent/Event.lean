import RecursiveDescent.Fault
import RecursiveDescent.Result

/-! # Events

What can be observed while parsers are built and run, apart from their results: the calls of observed
parsers and actions, parses with unfinished grammars, and log records, whose wording is all here.
-/

namespace RecursiveDescent

/-- What the construction and the use of parsers write to the log. -/
inductive LogRecord where
  | buildingGrammar (rules : Nat)
  | grammarReady (names : List String)
  | ruleNotInstalled (rule : String)
  | strictParseStopped (pos : Int) (size : Nat)
deriving DecidableEq, Repr

/-- The two parts of the library that write to the log. -/
inductive LogChannel where
  | grammar
  | runner
deriving DecidableEq, Repr

inductive LogLevel where
  | debug
  | error
deriving DecidableEq, Repr

namespace LogRecord

def channel : LogRecord → LogChannel
  | .strictParseStopped _ _ => .runner
  | _ => .grammar

/-- The level of a record: only the use of a rule that is not installed is an error. -/
def level : LogRecord → LogLevel
  | .ruleNotInstalled _ => .error
  | _ => .debug

def message : LogRecord → String
  | .buildingGrammar rules => "Building grammar with " ++ toString rules ++ " rules"
  | .grammarReady names => "Grammar ready: " ++ ", ".intercalate names
  | .ruleNotInstalled rule => "Rule " ++ Text.quoted rule ++ " invoked before its definition was installed"
  | .strictParseStopped pos size =>
      "Strict parse stopped at " ++ toString pos ++ " of " ++ toString size ++ " characters"

end LogRecord

/-- Something that can be observed while parsers are built and run. -/
inductive Event where
  /-- An observed parser was invoked at an offset. -/
  | visited (observer : String) (pos : Int)
  /-- A semantic action that reports its calls was applied to a match with that span. -/
  | applied (tag : String) (span : Span)
  /-- A rule was parsed with while the grammar was still under construction. -/
  | parsedEarly (rule : String) (result : Result)
  /-- A record was logged. -/
  | logged (entry : LogRecord)
deriving Inhabited, Repr

end RecursiveDescent
