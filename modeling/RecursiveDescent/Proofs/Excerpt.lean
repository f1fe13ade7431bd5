import RecursiveDescent.Diagnostics.Report
import RecursiveDescent.Proofs.Lines

/-! # Excerpts point at the failing text

The report with an excerpt puts together what three computations give: the beginnings of the lines, which are searched
for the place of a failure, the lines that are shown, which the source is cut into anew, and the numbers before them,
whose width grows. They agree on every source: the pointer stands below the failing line only, and its carets below
the characters of that line that lie in the span.
-/

namespace RecursiveDescent

namespace Report

/-! ## The lines that are shown -/

theorem pieces_eq (text : List Char) : pieces text = text.splitOn '\n' := by
  induction text with
  | nil => rfl
  | cons c rest ih =>
    obtain ⟨first, others, cut⟩ := exists_splitOn rest
    rw [pieces, ih, splitOn_cons c cut, cut]

theorem shownLines_eq (source : Source) : shownLines source = source.lines.map withoutReturn := by
  rw [shownLines, pieces_eq, Source.lines]

/-- What is shown of a line stands at its beginning. -/
theorem withoutReturn_prefix (line : List Char) : withoutReturn line <+: line := by
  rw [withoutReturn]
  split
  · exact line.dropLast_prefix
  · exact line.prefix_refl

/-- The characters of a line that is shown are those of the source from the beginning of the line. -/
theorem char?_of_shown {source : Source} {index column : Nat} {text : List Char} {c : Char}
    (here : (source.lines.map withoutReturn)[index]? = some text) (character : text[column]? = some c) :
    source.char? (source.lineStart index + column) = some c := by
  rw [List.getElem?_map, Option.map_eq_some_iff] at here
  obtain ⟨whole, here, rfl⟩ := here
  obtain ⟨dropped, split⟩ := withoutReturn_prefix whole
  obtain ⟨inside, -⟩ := List.getElem?_eq_some_iff.mp character
  exact source.char?_of_line here (by rw [← split, List.getElem?_append_left inside, character])

/-! ## Rows -/

/-- The number of a line before its row, aligned to the right in a field of at least four columns. -/
def margin (number : Nat) : String := (toString number).leftpad 4 ' ' ++ " | "

/-- The row of a line; the lines are counted from one. -/
def row (lines : List (List Char)) (number : Nat) : String :=
  margin number ++ String.ofList (lines.getD (number - 1) [])

theorem ofList_gutter (number : Nat) : String.ofList (gutter number) = margin number :=
  String.ofList_append

theorem length_margin (number : Nat) : (margin number).length = (gutter number).length := by
  rw [← ofList_gutter, String.length_ofList]

/-- The pointer leaves as much room as there is before the column of the failure. -/
theorem pointer_eq (number : Nat) (line : List Char) (column : Nat) (span : Span) :
    ∃ indent : List Char, '^' ∉ indent ∧ indent.length = (margin number).length + (column - 1) ∧
      pointer number line column span = indent ++ List.replicate
        (max 1 (min (span.stop - span.start) ((line.length : Int) - (column - 1)))).toNat '^' := by
  refine ⟨_, ?_, ?_, rfl⟩
  · simp
  · have wide : 2 ≤ (gutter number).length := by simp [gutter]; omega
    simp only [List.length_append, List.length_replicate, List.length_cons, List.length_nil, length_margin]
    omega

/-- Rows of lines on which the failure does not lie are the lines behind their numbers. -/
theorem flatMap_rows {place : Position} {numbers : List Nat} (others : ∀ number ∈ numbers, number ≠ place.line)
    (lines : List (List Char)) (span : Span) :
    (numbers.flatMap (rows lines place span)).map String.ofList = numbers.map (row lines) := by
  induction numbers with
  | nil => rfl
  | cons number numbers ih =>
    rw [List.forall_mem_cons] at others
    rw [List.flatMap_cons, List.map_append, ih others.2]
    simp [rows, others.1, row, ← ofList_gutter]

theorem map_rows_line (lines : List (List Char)) (place : Position) (span : Span) :
    (rows lines place span place.line).map String.ofList = [row lines place.line,
      String.ofList (pointer place.line (lines.getD (place.line - 1) []) place.column span)] := by
  simp [rows, row, ← ofList_gutter]

/-- The numbers that are shown are those of the lines above the failing one, its own and those below. -/
theorem shownNumbers_eq {line count : Nat} (first : 1 ≤ line) (last : line ≤ count) :
    shownNumbers defaultContext line count =
      List.range' (max 1 (line - 2)) (line - max 1 (line - 2)) ++
        line :: List.range' (line + 1) (min count (line + 2) - line) := by
  set top := max 1 (line - 2) with top_eq
  set bottom := min count (line + 2) with bottom_eq
  have above : (max 1 ((line : Int) - defaultContext)).toNat = top := by rw [defaultContext]; omega
  have below : (min (count : Int) (line + defaultContext)).toNat = bottom := by rw [defaultContext]; omega
  have parts : bottom + 1 - top = (line - top) + (bottom - line + 1) := by omega
  rw [shownNumbers, above, below, parts, ← List.range'_append_1, Nat.add_sub_cancel' (by omega), List.range'_succ]

/-! ## Carets -/

/-- How many characters of a line lie in a span, where the line begins at the offset `start`. -/
def covered (start : Nat) (line : List Char) (span : Span) : Nat :=
  (List.range line.length).countP fun column =>
    span.start ≤ (start + column : Nat) ∧ (start + column : Nat) < span.stop

theorem countP_range (length low high : Nat) :
    (List.range length).countP (fun i => low ≤ i ∧ i < high) = min length high - low := by
  induction length with
  | zero => simp
  | succ length ih =>
    rw [List.range_succ, List.countP_append, ih, List.countP_singleton]
    split <;> simp at * <;> omega

/-- The width of the pointer is that of the text it underlines, where there is any. -/
theorem width_eq {start column : Nat} {span : Span} (first : 1 ≤ column)
    (here : span.start = (start + (column - 1) : Nat)) (line : List Char) :
    (max 1 (min (span.stop - span.start) ((line.length : Int) - (column - 1)))).toNat =
      max 1 (covered start line span) := by
  have between : ∀ i : Nat, (span.start ≤ (start + i : Nat) ∧ ((start + i : Nat) : Int) < span.stop) ↔
      column - 1 ≤ i ∧ i < (span.stop - start).toNat := by omega
  simp only [covered, between, countP_range]
  omega

/-! ## The report -/

section

variable (failure : Failure) (source : Source)

theorem report_simple :
    failure.report source .simple = .ok (simple failure (Position.of source failure.span.start)) := by
  rw [Failure.report, render, LineIndex.position_eq]

/-- The rows of a report with an excerpt. -/
theorem report_context {place : Position} {lines : List (List Char)}
    (here : Position.of source failure.span.start = place) (cut : source.lines.map withoutReturn = lines) :
    failure.report source .context = .ok ("\n".intercalate (
      [simple failure place, ""] ++
      (List.range' (max 1 (place.line - 2)) (place.line - max 1 (place.line - 2))).map (row lines) ++
      [row lines place.line,
        String.ofList (pointer place.line (lines.getD (place.line - 1) []) place.column failure.span)] ++
      (List.range' (place.line + 1) (min lines.length (place.line + 2) - place.line)).map (row lines))) := by
  have located := here ▸ Position.of_locates source failure.span.start
  have count : lines.length = source.lines.length := cut ▸ List.length_map ..
  have above : ∀ number ∈ List.range' (max 1 (place.line - 2)) (place.line - max 1 (place.line - 2)),
      number ≠ place.line := by
    intro number member
    have := List.mem_range'_1.mp member
    omega
  have below : ∀ number ∈ List.range' (place.line + 1) (min lines.length (place.line + 2) - place.line),
      number ≠ place.line := by
    intro number member
    have := List.mem_range'_1.mp member
    omega
  rw [Failure.report, render, excerpt, LineIndex.position_eq, here, shownLines_eq, cut,
    LineIndex.lineCount_eq, ← count, shownNumbers_eq located.line_pos (count ▸ located.line_le), List.flatMap_append,
    List.flatMap_cons, List.map_append, List.map_append, map_rows_line, flatMap_rows above, flatMap_rows below]
  simp

/-- The report with an excerpt consists of the line that names the failure, an empty row, and the rows of the lines
around the failing one, below which alone there is a pointer. Its carets begin under the column of the failure and
there are as many as there are characters of the line in the span, but at least one. -/
theorem excerpt_underlines_failing_text :
    let span := failure.span
    let place := Position.of source span.start
    let lines := source.lines.map withoutReturn
    let shown := lines.getD (place.line - 1) []
    let start := source.lineStart (place.line - 1)
    let top := max 1 (place.line - 2)
    let bottom := min lines.length (place.line + 2)
    (1 ≤ place.line ∧ place.line ≤ lines.length) ∧
      (∀ number, top ≤ number → number ≤ bottom → ∃ line, lines[number - 1]? = some line) ∧
      (∀ column c, shown[column]? = some c → source.char? (start + column) = some c) ∧
      ∃ (title : String) (indent : List Char) (carets : Nat), failure.report source .simple = .ok title ∧
        failure.report source .context = .ok ("\n".intercalate (
          [title, ""] ++ (List.range' top (place.line - top)).map (row lines) ++
          [row lines place.line, String.ofList (indent ++ List.replicate carets '^')] ++
          (List.range' (place.line + 1) (bottom - place.line)).map (row lines))) ∧
        '^' ∉ indent ∧ indent.length = (margin place.line).length + (place.column - 1) ∧ 1 ≤ carets ∧
        (0 ≤ span.start → span.start ≤ source.size → carets = max 1 (covered start shown span)) := by
  intro span place lines shown start top bottom
  have located : place.Locates source (source.clamp span.start) := Position.of_locates source span.start
  have count : lines.length = source.lines.length := List.length_map ..
  have exist : ∀ number, 1 ≤ number → number ≤ lines.length → ∃ line, lines[number - 1]? = some line :=
    fun number first last => ⟨_, List.getElem?_eq_getElem (Nat.sub_one_lt_of_le first last)⟩
  have here : 1 ≤ place.line ∧ place.line ≤ lines.length := ⟨located.line_pos, count ▸ located.line_le⟩
  obtain ⟨line, there⟩ := exist _ here.1 here.2
  obtain ⟨indent, free, room, pointer⟩ := pointer_eq place.line shown place.column span
  refine ⟨here, fun number first last => exist number (by omega) (by omega), fun column c character => ?_, _, indent,
    _, report_simple failure source, pointer ▸ report_context failure source rfl rfl, free, room, by omega, fun from_ within => ?_⟩
  · rw [show shown = line by simp only [shown, List.getD_eq_getElem?_getD, there, Option.getD_some]] at character
    exact char?_of_shown there character
  · refine width_eq located.column_pos ?_ shown
    have offset := located.offset_eq
    simp only [Source.clamp] at offset
    omega

/-- The span of this failure reaches over the end of its line, where a carriage return is not shown. -/
theorem excerpt_stops_before_return : ∃ indent : List Char, '^' ∉ indent ∧ indent.length = 10 ∧
    Failure.report ⟨9, ⟨7, 9⟩, "y"⟩ (.ofString "ab\r\ncd x\r\nef") .context = .ok ("\n".intercalate
      ["2:4: expected 'y'", "", "   1 | ab", "   2 | cd x", String.ofList (indent ++ ['^']), "   3 | ef"]) := by
  obtain ⟨-, -, -, title, indent, carets, titled, report, free, room, -, count⟩ :=
    excerpt_underlines_failing_text ⟨9, ⟨7, 9⟩, "y"⟩ (.ofString "ab\r\ncd x\r\nef")
  have one : carets = 1 := count (by decide) (by decide)
  subst one
  cases (report_simple ..).symm.trans titled
  exact ⟨indent, free, room, report⟩

end

end Report

end RecursiveDescent
