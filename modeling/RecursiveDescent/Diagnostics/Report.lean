import RecursiveDescent.Diagnostics.Json
import RecursiveDescent.Diagnostics.Position
import RecursiveDescent.Result

/-! # Reports of failures

A failed match with its source is reported in one line, with an excerpt of the source, or as a JSON
object. The place of a failure is where its span begins, since there the attempt began.
-/

namespace RecursiveDescent

inductive ReportFormat where
  /-- One line with the place and the label. -/
  | simple
  /-- The line, and then the failing line of the source among its neighbours, with the span underlined. -/
  | context
  /-- A JSON object. -/
  | json
deriving DecidableEq, Repr

def ReportFormat.named (name : String) : Except Fault ReportFormat :=
  if name = "simple" then .ok .simple
  else if name = "context" then .ok .context
  else if name = "json" then .ok .json
  else .error (.unknownFormat name)

namespace Report

/-- The number of lines shown on either side of the failing one, unless another is asked for. -/
def defaultContext : Int := 2

/-- The pieces between line feeds. -/
def pieces : List Char → List (List Char)
  | [] => [[]]
  | c :: rest =>
      if c = '\n' then [] :: pieces rest
      else
        match pieces rest with
        | [] => [[c]]
        | first :: others => (c :: first) :: others

/-- A line without a carriage return at its end. -/
def withoutReturn (line : List Char) : List Char :=
  if line.getLast? = some '\r' then line.dropLast else line

/-- The lines of a source as they are shown. -/
def shownLines (source : Source) : List (List Char) := (pieces source.chars.toList).map withoutReturn

/-- A number aligned to the right in a field of at least four characters, and a bar. -/
def gutter (number : Nat) : List Char :=
  let numeral := (toString number).toList
  List.replicate (4 - numeral.length) ' ' ++ numeral ++ [' ', '|', ' ']

/-- The row that underlines the span below the failing line. -/
def pointer (number : Nat) (line : List Char) (column : Nat) (span : Span) : List Char :=
  let remaining : Int := line.length - (column - 1)
  let width := max 1 (min (span.stop - span.start) remaining)
  List.replicate ((gutter number).length - 2) ' ' ++ ['|', ' '] ++
    List.replicate (column - 1) ' ' ++ List.replicate width.toNat '^'

def simple (failure : Failure) (place : Position) : String :=
  toString place.line ++ ":" ++ toString place.column ++ ": expected '" ++ failure.expected ++ "'"

/-- The row of a line, followed by the pointer if it is the failing one. -/
def rows (lines : List (List Char)) (place : Position) (span : Span) (number : Nat) : List (List Char) :=
  let line := lines.getD (number - 1) []
  let row := gutter number ++ line
  if number = place.line then [row, pointer number line place.column span] else [row]

/-- The numbers of the lines that are shown: the failing one with its neighbours, as far as they exist. -/
def shownNumbers (context : Int) (line count : Nat) : List Nat :=
  let first := (max 1 ((line : Int) - context)).toNat
  let last := (min (count : Int) (line + context)).toNat
  List.range' first (last + 1 - first)

def excerpt (failure : Failure) (source : Source) (context : Int) (index : LineIndex) : String :=
  let place := index.position failure.span.start
  let lines := shownLines source
  let shown := (shownNumbers context place.line index.lineCount).flatMap (rows lines place failure.span)
  "\n".intercalate (simple failure place :: "" :: shown.map String.ofList)

/-- The members of the report as a JSON object. -/
def members (failure : Failure) (place : Position) : List (String × Json.Scalar) :=
  [("expected", .text failure.expected), ("pos", .int failure.pos), ("start", .int failure.span.start),
    ("end", .int failure.span.stop), ("line", .int place.line), ("column", .int place.column)]

def render (format : ReportFormat) (context : Int) (failure : Failure) (source : Source) : Except Fault String :=
  let index := LineIndex.ofSource source
  match format with
  | .simple => .ok (simple failure (index.position failure.span.start))
  | .context => .ok (excerpt failure source context index)
  | .json => Json.object (members failure (index.position failure.span.start))

end Report

/-- The report of a failure in a format, with the usual number of lines around it. -/
def Failure.report (failure : Failure) (source : Source) (format : ReportFormat) : Except Fault String :=
  Report.render format Report.defaultContext failure source

end RecursiveDescent
