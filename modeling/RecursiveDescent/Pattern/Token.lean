import RecursiveDescent.Pattern.Basic

/-! # Tokens of pattern text

Pattern text is cut into tokens without looking at how its groups nest. A token that matches by itself
is already a pattern; flags are resolved here, and so is every escape. Text that forms no token is
refused, among it every extension of the group syntax other than the plain group and lookaround.
-/

namespace RecursiveDescent

structure PatternFlags where
  ignoreCase : Bool := false
  multiLine : Bool := false
  dotAll : Bool := false
deriving DecidableEq, Repr

/-- The kinds of group that an opening parenthesis begins. -/
inductive GroupKind where
  | capturing
  | plain
  | look (behind complement : Bool)
deriving DecidableEq, Repr

inductive PatternToken where
  | leaf (pattern : Pattern)
  | opening (kind : GroupKind)
  | closing
  | bar
  | quantifier (least : Nat) (most : Option Nat) (greedy : Bool)
deriving DecidableEq, Repr

namespace PatternToken

def isLetter (c : Char) : Bool := ('a' ≤ c && c ≤ 'z') || ('A' ≤ c && c ≤ 'Z')

/-- The value of an ASCII digit in a base up to sixteen. -/
def digit? (base : Nat) (c : Char) : Option Nat :=
  let value? :=
    if '0' ≤ c && c ≤ '9' then some (c.toNat - '0'.toNat)
    else if 'a' ≤ c && c ≤ 'f' then some (c.toNat - 'a'.toNat + 10)
    else if 'A' ≤ c && c ≤ 'F' then some (c.toNat - 'A'.toNat + 10)
    else none
  value?.filter (· < base)

/-- The digits at the front of a text, at most `limit` of them, and what follows. -/
def takeDigits (base : Nat) : Nat → List Char → List Nat × List Char
  | 0, rest => ([], rest)
  | _, [] => ([], [])
  | limit + 1, c :: rest =>
      match digit? base c with
      | some value => let (values, rest) := takeDigits base limit rest; (value :: values, rest)
      | none => ([], c :: rest)

def ofDigits (base : Nat) (digits : List Nat) : Nat := digits.foldl (fun n value => n * base + value) 0

/-- The token for one character of the given items, or of all others. -/
def set (flags : PatternFlags) (items : List CharItem) (complement : Bool) : PatternToken :=
  .leaf (.char ⟨items, complement, flags.ignoreCase⟩)

def one (flags : PatternFlags) (code : Nat) : PatternToken := set flags [.range code code] false

/-- The code that exactly `width` hexadecimal digits write. -/
def hexCode? (width : Nat) (rest : List Char) : Option (Nat × List Char) :=
  let (digits, rest) := takeDigits 16 width rest
  if digits.length = width && ofDigits 16 digits ≤ 0x10FFFF then some (ofDigits 16 digits, rest) else none

/-- The control characters with an escape of one letter. -/
def controlCode? : Char → Option Nat
  | 'a' => some 7
  | 'f' => some 12
  | 'n' => some 10
  | 'r' => some 13
  | 't' => some 9
  | 'v' => some 11
  | _ => none

/-- The sets of characters with an escape of one letter. -/
def namedItem? : Char → Option CharItem
  | 'd' => some (.named .digit false)
  | 'D' => some (.named .digit true)
  | 's' => some (.named .blank false)
  | 'S' => some (.named .blank true)
  | 'w' => some (.named .word false)
  | 'W' => some (.named .word true)
  | _ => none

/-- The places with an escape of one letter. -/
def anchor? : Char → Option Anchor
  | 'A' => some .textStart
  | 'Z' => some .textEnd
  | 'b' => some .wordEdge
  | 'B' => some .noWordEdge
  | _ => none

/-- The code that an escape stands for outside and inside of sets alike, digits excepted. -/
def escapedCode? (c : Char) (rest : List Char) : Option (Nat × List Char) :=
  match controlCode? c with
  | some code => some (code, rest)
  | none =>
      if c = 'x' then hexCode? 2 rest
      else if c = 'u' then hexCode? 4 rest
      else if c = 'U' then hexCode? 8 rest
      else if isLetter c then none
      else some (c.toNat, rest)

/-- The code that octal digits write; codes beyond one byte are refused. -/
def octalCode? (digits : List Nat) : Option Nat :=
  if ofDigits 8 digits ≤ 0xFF then some (ofDigits 8 digits) else none

/-- The token of a backslash with digits: a reference to a group, or a character by its octal code. -/
def reference? (flags : PatternFlags) (text : List Char) : Option (PatternToken × List Char) :=
  let (octal, afterOctal) := takeDigits 8 3 text
  if octal.head? = some 0 || octal.length = 3 then
    (octalCode? octal).map fun code => (one flags code, afterOctal)
  else
    let (decimal, afterDecimal) := takeDigits 10 2 text
    some (.leaf (.backref (ofDigits 10 decimal) flags.ignoreCase), afterDecimal)

def escape? (flags : PatternFlags) : List Char → Option (PatternToken × List Char)
  | [] => none
  | c :: rest =>
      match anchor? c, namedItem? c with
      | some condition, _ => some (.leaf (.anchor condition), rest)
      | _, some item => some (set flags [item] false, rest)
      | none, none =>
          if (digit? 10 c).isSome then reference? flags (c :: rest)
          else (escapedCode? c rest).map fun (code, rest) => (one flags code, rest)

/-- A member of a set that may be the end of a range: a code, or an item that cannot. -/
inductive SetMember where
  | single (code : Nat)
  | several (item : CharItem)
deriving DecidableEq, Repr

/-- The item that a member forms alone. -/
def SetMember.alone : SetMember → CharItem
  | .single code => .range code code
  | .several item => item

def escapedMember? : List Char → Option (SetMember × List Char)
  | [] => none
  | c :: rest =>
      match namedItem? c with
      | some item => some (.several item, rest)
      | none =>
          if c = 'b' then some (.single 8, rest)
          else if (digit? 10 c).isSome then
            let (octal, rest) := takeDigits 8 3 (c :: rest)
            if octal.isEmpty then none else (octalCode? octal).map fun code => (.single code, rest)
          else (escapedCode? c rest).map fun (code, rest) => (.single code, rest)

/-- The first member of what remains of a set. -/
def member? : List Char → Option (SetMember × List Char)
  | [] => none
  | '\\' :: rest => escapedMember? rest
  | c :: rest => some (.single c.toNat, rest)

/-- The items of a set up to its closing bracket; `fuel` counts the characters that are left. -/
def items? : Nat → Bool → List Char → Option (List CharItem × List Char)
  | 0, _, _ => none
  | fuel + 1, isFirst, text =>
      match isFirst, text with
      | false, ']' :: rest => some ([], rest)
      | _, text => do
          let (first, rest) ← member? text
          match rest with
          | '-' :: ']' :: rest => some ([first.alone, .char '-'], rest)
          | '-' :: rest =>
              let (last, rest) ← member? rest
              match first, last with
              | .single a, .single b =>
                  if b < a then none
                  else
                    let (items, rest) ← items? fuel false rest
                    some (.range a b :: items, rest)
              | _, _ => none
          | rest =>
              let (items, rest) ← items? fuel false rest
              some (first.alone :: items, rest)

def bracket? (flags : PatternFlags) (text : List Char) : Option (PatternToken × List Char) :=
  let (complement, text) := match text with
    | '^' :: rest => (true, rest)
    | _ => (false, text)
  (items? text.length true text).map fun (items, rest) => (set flags items complement, rest)

def opening? : List Char → Option (PatternToken × List Char)
  | '?' :: ':' :: rest => some (.opening .plain, rest)
  | '?' :: '=' :: rest => some (.opening (.look false false), rest)
  | '?' :: '!' :: rest => some (.opening (.look false true), rest)
  | '?' :: '<' :: '=' :: rest => some (.opening (.look true false), rest)
  | '?' :: '<' :: '!' :: rest => some (.opening (.look true true), rest)
  | '?' :: _ => none
  | rest => some (.opening .capturing, rest)

/-- A quantifier, which a question mark turns into a lazy one. -/
def quantified (least : Nat) (most : Option Nat) : List Char → PatternToken × List Char
  | '?' :: rest => (.quantifier least most false, rest)
  | rest => (.quantifier least most true, rest)

/-- The bounds that follow an opening brace, if they and a closing brace do. -/
def bounds? (text : List Char) : Option ((Nat × Option Nat) × List Char) :=
  let (low, rest) := takeDigits 10 text.length text
  match rest with
  | ',' :: rest =>
      let (high, rest) := takeDigits 10 rest.length rest
      match rest with
      | '\x7d' :: rest =>
          some ((ofDigits 10 low, if high.isEmpty then none else some (ofDigits 10 high)), rest)
      | _ => none
  | '\x7d' :: rest =>
      if low.isEmpty then none else some ((ofDigits 10 low, some (ofDigits 10 low)), rest)
  | _ => none

/-- The token that an opening brace begins: a quantifier, or the brace itself if no bounds follow. -/
def brace? (flags : PatternFlags) (text : List Char) : Option (PatternToken × List Char) :=
  match bounds? text with
  | none => some (one flags 0x7B, text)
  | some ((least, most), rest) =>
      if most.any (· < least) then none else some (quantified least most rest)

def first? (flags : PatternFlags) (c : Char) (rest : List Char) : Option (PatternToken × List Char) :=
  match c with
  | '\\' => escape? flags rest
  | '[' => bracket? flags rest
  | '(' => opening? rest
  | ')' => some (.closing, rest)
  | '|' => some (.bar, rest)
  | '.' =>
      some (if flags.dotAll then (set flags [] true, rest) else (set flags [.char '\n'] true, rest))
  | '^' => some (.leaf (.anchor (if flags.multiLine then .lineStart else .textStart)), rest)
  | '$' => some (.leaf (.anchor (if flags.multiLine then .lineEnd else .finalLineEnd)), rest)
  | '*' => some (quantified 0 none rest)
  | '+' => some (quantified 1 none rest)
  | '?' => some (quantified 0 (some 1) rest)
  | '\x7b' => brace? flags rest
  | _ => some (one flags c.toNat, rest)

/-- The tokens of a text; each takes at least one character, so its length is fuel enough. -/
def scanWith (flags : PatternFlags) : Nat → List Char → Option (List PatternToken)
  | _, [] => some []
  | 0, _ :: _ => none
  | fuel + 1, c :: rest => do
      let (token, rest) ← first? flags c rest
      let tokens ← scanWith flags fuel rest
      some (token :: tokens)

/-- The tokens of a text, if all of it can be cut into tokens. -/
def scan? (flags : PatternFlags) (text : List Char) : Option (List PatternToken) :=
  scanWith flags text.length text

end PatternToken

end RecursiveDescent
