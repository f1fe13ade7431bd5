import RecursiveDescent.Expression

/-! # The steps of a session

What can be asked of a session, and the forms that its answers take.
-/

namespace RecursiveDescent

/-- What is installed into a parser. -/
inductive Transfer where
  /-- What the other parser does now. -/
  | copy
  /-- Whatever the other parser does when it is called. -/
  | delegate
deriving DecidableEq, Repr

inductive GrammarQuery where
  | display
  | keys
  | size
  /-- The names of the rules with the names of their parsers. -/
  | parserNames
  /-- Whether a name is a rule, and whether it is a member. -/
  | has (name : String)
  | member (name : String)
  | item (name : String)
  | itemOrNothing (name : String)
  | sameAs (other : String)
  | setMember (name : String)
deriving DecidableEq, Repr

inductive Step where
  | bind (name : String) (definition : Expression)
  | buildGrammar (name : String) (definitions : List (String × Expression))
  | parse (target : Target) (mode : RunMode) (source : Source)
  | install (target source : Target) (transfer : Transfer)
  | describe (target : Target)
  | sameParser (first second : Target)
  | sameBehaviour (first second : Target)
  | sameResult (first second : Target) (source : Source) (pos : Int)
  | query (grammar : String) (query : GrammarQuery)
deriving Inhabited

/-- What a look-up is described as. -/
inductive Description where
  | parser (name : Option String)
  | other (kind : String)
deriving DecidableEq, Repr

inductive Answer where
  | done
  | names (names : List String)
  | result (result : Result)
  | parser (name : Option String) (shown : String)
  | flag (holds : Bool)
  | flags (first second : Bool)
  | text (content : String)
  | count (count : Nat)
  | parserNames (names : List (String × Option String))
  | description (description : Description)
deriving Inhabited, Repr

end RecursiveDescent
