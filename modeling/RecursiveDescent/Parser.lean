import RecursiveDescent.Lexeme

/-! # Parsers

A parser is a tree of leaves and combinators. Parsers that others can hold on to live in a store and
are referred to by address, so that a change to the store is seen by every tree that refers to it.
`Parser.matcher` gives the matcher that a tree denotes, where `call` invokes what is stored.
-/

namespace RecursiveDescent

/-- The place of a parser in a store. -/
abbrev Address := Nat

/-- A parser as a tree. -/
inductive Parser where
  | literal (expected : String)
  | pattern (tree : Pattern) (label : String)
  | nothing
  | integer
  | float
  | map (child : Parser) (action : Action)
  | sequence (children : List Parser)
  | choice (first : Parser) (rest : List Parser)
  | many (child : Parser)
  | sepBy (item separator : Parser)
  /-- A parser that always gives the same result. -/
  | fixed (result : Result)
  /-- A parser that reports its calls. -/
  | observed (observer : String) (child : Parser)
  /-- Whatever parser is stored at an address when the call is made. -/
  | ref (address : Address)
  /-- What stands for a rule until its definition is installed. -/
  | unpatched (rule : String)
  /-- A thing of some kind that is no parser, in the place of one. -/
  | foreign (kind : String)
deriving Inhabited

namespace Parser

def whitespace : Parser := .pattern Lexeme.whitespaceTree Lexeme.whitespaceLabel

def optional (child : Parser) : Parser := .choice child [.nothing]

def takeMid (opening child closing : Parser) : Parser :=
  .map (.sequence [opening, child, closing]) Matcher.middle

/-- The use of a rule that is not installed is logged and stops the run. -/
def reportUnpatched (rule : String) : Matcher := fun _ _ => do
  Run.emit (.logged (.ruleNotInstalled rule))
  Run.stop (.unpatchedRule rule)

/-- What is no parser cannot be called, which shows when it is. -/
def reject (kind : String) : Matcher := fun _ _ => .stop (.notAParser kind "parse")

mutual

/-- The matcher that a tree denotes. -/
def matcher (limit : Nat) (call : Address → Matcher) : Parser → Matcher
  | .literal expected => Matcher.literal expected
  | .pattern tree label => Matcher.pattern tree label
  | .nothing => Matcher.nothing
  | .integer => Lexeme.integer
  | .float => Lexeme.float
  | .map child action => Matcher.map (child.matcher limit call) action
  | .sequence children => Matcher.sequence (matchers limit call children)
  | .choice first rest => Matcher.choice (first.matcher limit call) (matchers limit call rest)
  | .many child => Matcher.many limit (child.matcher limit call)
  | .sepBy item separator => Matcher.sepBy limit (item.matcher limit call) (separator.matcher limit call)
  | .fixed result => Matcher.fixed result
  | .observed observer child => Matcher.observed observer (child.matcher limit call)
  | .ref address => call address
  | .unpatched rule => reportUnpatched rule
  | .foreign kind => reject kind

def matchers (limit : Nat) (call : Address → Matcher) : List Parser → List Matcher
  | [] => []
  | child :: rest => child.matcher limit call :: matchers limit call rest

end

end Parser

end RecursiveDescent
