import Mathlib.Algebra.GroupWithZero.Nat
import Mathlib.Data.List.Basic
import Mathlib.Tactic.Set
import RecursiveDescent.Diagnostics.Position

/-! # Lines of a text

The line feeds of a text cut it into lines, and by the lengths of the lines a line and a column mean an offset.
`Position.Locates` says which one, without a word on how either is found. To read the text before the offset and to
search the beginnings of the lines are two ways to the only position that locates it.
-/

namespace RecursiveDescent

/-! ## Complete lines -/

/-- Lines, each with the line feed that ends it. -/
def unlines (lines : List (List Char)) : List Char := lines.flatMap (· ++ ['\n'])

@[simp]
theorem unlines_nil : unlines [] = [] := rfl

@[simp]
theorem unlines_cons (line : List Char) (lines : List (List Char)) :
    unlines (line :: lines) = line ++ '\n' :: unlines lines := by
  rw [unlines, List.flatMap_cons, List.append_assoc, List.singleton_append, unlines]

theorem unlines_append (above below : List (List Char)) :
    unlines (above ++ below) = unlines above ++ unlines below := List.flatMap_append

theorem length_unlines (lines : List (List Char)) :
    (unlines lines).length = (lines.map (·.length + 1)).sum := by
  simp [unlines, List.length_flatMap]

theorem count_unlines {lines : List (List Char)} (free : ∀ line ∈ lines, '\n' ∉ line) :
    (unlines lines).count '\n' = lines.length := by
  induction lines with
  | nil => rfl
  | cons line lines ih =>
    rw [List.forall_mem_cons] at free
    simp [List.count_eq_zero.mpr free.1, ih free.2]

/-- A text is some complete lines and the beginning of one more. -/
theorem exists_lines (text : List Char) :
    ∃ lines start, text = unlines lines ++ start ∧ (∀ line ∈ lines, '\n' ∉ line) ∧ '\n' ∉ start := by
  induction text with
  | nil => exact ⟨[], [], rfl, List.forall_mem_nil _, List.not_mem_nil⟩
  | cons c rest ih =>
    obtain ⟨lines, start, rfl, free, unfinished⟩ := ih
    by_cases feed : c = '\n'
    · exact ⟨[] :: lines, start, by simp [feed], by simpa using free, unfinished⟩
    · cases lines with
      | nil => exact ⟨[], c :: start, rfl, free, by simp [Ne.symm feed, unfinished]⟩
      | cons line lines =>
        rw [List.forall_mem_cons] at free
        exact ⟨(c :: line) :: lines, start, by simp, by simp [Ne.symm feed, free.1]; exact free.2, unfinished⟩

/-- The last line of a text is what follows its last line feed. -/
theorem takeWhile_reverse_unlines {lines : List (List Char)} {start : List Char} (unfinished : '\n' ∉ start) :
    (unlines lines ++ start).reverse.takeWhile (· != '\n') = start.reverse := by
  have each : ∀ c ∈ start.reverse, (c != '\n') = true := by
    intro c member
    exact bne_iff_ne.mpr (ne_of_mem_of_not_mem (List.mem_reverse.mp member) unfinished)
  rw [List.reverse_append, List.takeWhile_append_of_pos each]
  rcases List.eq_nil_or_concat lines with rfl | ⟨others, line, rfl⟩
  · exact List.append_nil _
  · simp [unlines_append]

/-! ## Cutting at line feeds -/

/-- A character before a text begins its first line, unless it is a line feed. -/
theorem splitOn_cons (c : Char) {rest first : List Char} {others : List (List Char)}
    (cut : rest.splitOn '\n' = first :: others) :
    (c :: rest).splitOn '\n' = if c = '\n' then [] :: first :: others else (c :: first) :: others := by
  rw [List.splitOn_cons_eq_if_modifyHead, cut, List.modifyHead_cons]
  simp only [beq_iff_eq]

theorem exists_splitOn (text : List Char) : ∃ first others, text.splitOn '\n' = first :: others :=
  List.exists_cons_of_ne_nil (List.splitOn_ne_nil '\n' text)

theorem unlines_splitOn (text : List Char) : unlines (text.splitOn '\n') = text ++ ['\n'] := by
  induction text with
  | nil => rfl
  | cons c rest ih =>
    obtain ⟨first, others, cut⟩ := exists_splitOn rest
    rw [cut, unlines_cons] at ih
    rw [splitOn_cons c cut]
    split
    · next feed => simp [ih, feed]
    · simp [ih]

theorem splitOn_unlines {lines : List (List Char)} (free : ∀ line ∈ lines, '\n' ∉ line) (rest : List Char) :
    (unlines lines ++ rest).splitOn '\n' = lines ++ rest.splitOn '\n' := by
  induction lines with
  | nil => rfl
  | cons line lines ih =>
    rw [List.forall_mem_cons] at free
    rw [unlines_cons, List.append_assoc, List.cons_append, List.splitOn_append_cons_self_of_not_mem free.1,
      ih free.2, List.cons_append]

theorem splitOn_unfinished {start : List Char} (unfinished : '\n' ∉ start) (rest : List Char) :
    (start ++ rest).splitOn '\n' = (rest.splitOn '\n').modifyHead (start ++ ·) := by
  induction start with
  | nil => exact (congrFun List.modifyHead_id _).symm
  | cons c start ih =>
    rw [List.mem_cons, not_or] at unfinished
    rw [List.cons_append, List.splitOn_cons_eq_if_modifyHead, if_neg (by simpa using Ne.symm unfinished.1),
      ih unfinished.2, List.modifyHead_modifyHead]
    rfl

/-! ## Lines of a source -/

namespace Source

variable (source : Source)

/-- The lines of a source, each without the line feed that ends it. -/
def lines : List (List Char) := source.chars.toList.splitOn '\n'

/-- The offset at which a line begins; the lines are counted from zero here. -/
def lineStart (index : Nat) : Nat := ((source.lines.take index).map (·.length + 1)).sum

theorem lineStart_eq (index : Nat) : source.lineStart index = (unlines (source.lines.take index)).length :=
  (length_unlines _).symm

theorem lineStart_succ {index : Nat} (within : index < source.lines.length) :
    source.lineStart (index + 1) = source.lineStart index + (source.lines.getD index []).length + 1 := by
  have line : source.lines.getD index [] = source.lines[index] := List.getElem_eq_getD [] |>.symm
  rw [lineStart, lineStart, List.take_succ_eq_append_getElem within, List.map_append, List.sum_append, line]
  rfl

/-- A line feed after the last line would be the last character. -/
theorem lineStart_length : source.lineStart source.lines.length = source.size + 1 := by
  rw [lineStart_eq, List.take_length, lines, unlines_splitOn, List.length_append, Array.length_toList]
  rfl

theorem lineStart_le {first second : Nat} (ordered : first ≤ second) :
    source.lineStart first ≤ source.lineStart second := by
  rw [lineStart_eq, lineStart_eq, ← Nat.add_sub_cancel' ordered, List.take_add, unlines_append, List.length_append]
  exact Nat.le_add_right _ _

/-- Where a line begins, its characters stand in the source. -/
theorem char?_of_line {index column : Nat} {text : List Char} {c : Char} (here : source.lines[index]? = some text)
    (character : text[column]? = some c) : source.char? (source.lineStart index + column) = some c := by
  obtain ⟨within, rfl⟩ := List.getElem?_eq_some_iff.mp here
  obtain ⟨inside, -⟩ := List.getElem?_eq_some_iff.mp character
  have whole : source.chars.toList ++ ['\n'] = unlines (source.lines.take index) ++
      (source.lines[index] ++ '\n' :: unlines (source.lines.drop (index + 1))) := by
    rw [← unlines_splitOn, ← unlines_cons, ← unlines_append, ← List.drop_eq_getElem_cons within,
      List.take_append_drop, lines]
  have before : source.lineStart index + column < source.chars.toList.length := by
    have lengths := congrArg List.length whole
    simp only [List.length_append, List.length_cons, List.length_nil, ← lineStart_eq] at lengths
    omega
  rw [char?, ← Array.getElem?_toList, ← List.getElem?_append_left before, whole, lineStart_eq,
    List.getElem?_append_right (Nat.le_add_right _ _), Nat.add_sub_cancel_left, List.getElem?_append_left inside,
    character]

end Source

/-! ## Positions and offsets -/

/-- A position in a source means an offset: there is such a line, and either the column is that of one of its
characters or it lies just behind them. -/
structure Position.Locates (place : Position) (source : Source) (offset : Nat) : Prop where
  line_pos : 1 ≤ place.line
  column_pos : 1 ≤ place.column
  line_le : place.line ≤ source.lines.length
  column_le : place.column ≤ (source.lines.getD (place.line - 1) []).length + 1
  offset_eq : offset = source.lineStart (place.line - 1) + (place.column - 1)

namespace Position

variable {source : Source}

/-- The position that is read off the text before an offset. -/
theorem of_locates (source : Source) (pos : Int) : (Position.of source pos).Locates source (source.clamp pos) := by
  obtain ⟨above, start, before, free, unfinished⟩ := exists_lines (source.chars.toList.take (source.clamp pos))
  set rest := source.chars.toList.drop (source.clamp pos) with rest_eq
  obtain ⟨first, others, cut⟩ := exists_splitOn rest
  have lines : source.lines = above ++ (start ++ first) :: others := by
    rw [Source.lines, ← List.take_append_drop (source.clamp pos) source.chars.toList, before, ← rest_eq,
      List.append_assoc, splitOn_unlines free, splitOn_unfinished unfinished, cut, List.modifyHead_cons]
  have place : Position.of source pos = ⟨above.length + 1, start.length + 1⟩ := by
    simp only [Position.of, before, List.count_append, count_unlines free, List.count_eq_zero.mpr unfinished,
      takeWhile_reverse_unlines unfinished, List.length_reverse, Nat.add_zero]
  rw [place]
  refine ⟨Nat.le_add_left _ _, Nat.le_add_left _ _, ?_, ?_, ?_⟩
  · simp [lines]
  · simp [lines]
  · have length := congrArg List.length before
    rw [List.length_take_of_le (source.clamp_le pos), List.length_append] at length
    simp [length, Source.lineStart_eq, lines]

namespace Locates

variable {place other : Position} {offset : Nat}

/-- A line that begins no later than an offset is the line of the offset if the next one begins after it. -/
theorem of_bounds {line : Nat} (first : 1 ≤ line) (last : line ≤ source.lines.length)
    (reached : source.lineStart (line - 1) ≤ offset) (missed : offset < source.lineStart line) :
    Locates ⟨line, offset - source.lineStart (line - 1) + 1⟩ source offset := by
  have next := source.lineStart_succ (Nat.sub_one_lt_of_le first last)
  rw [Nat.sub_add_cancel first] at next
  exact ⟨first, Nat.le_add_left _ _, last, by dsimp only; omega, by dsimp only; omega⟩

theorem lineStart_le (locates : place.Locates source offset) : source.lineStart (place.line - 1) ≤ offset :=
  locates.offset_eq ▸ Nat.le_add_right _ _

theorem lt_lineStart (locates : place.Locates source offset) : offset < source.lineStart place.line := by
  have next := source.lineStart_succ (Nat.sub_one_lt_of_le locates.line_pos locates.line_le)
  rw [Nat.sub_add_cancel locates.line_pos] at next
  have ⟨_, _, _, _, _⟩ := locates
  omega

theorem line_le_of_le {later : Nat} (locates : place.Locates source offset) (another : other.Locates source later)
    (ordered : offset ≤ later) : place.line ≤ other.line := by
  by_contra behind
  have beyond : source.lineStart other.line ≤ source.lineStart (place.line - 1) := source.lineStart_le (by omega)
  have := locates.lineStart_le
  have := another.lt_lineStart
  omega

/-- An offset has only one position. -/
theorem unique (locates : place.Locates source offset) (another : other.Locates source offset) : place = other := by
  have line := Nat.le_antisymm (locates.line_le_of_le another (Nat.le_refl _))
    (another.line_le_of_le locates (Nat.le_refl _))
  have column : place.column = other.column := by
    have offsets := locates.offset_eq.symm.trans another.offset_eq
    rw [line] at offsets
    have := locates.column_pos
    have := another.column_pos
    omega
  exact congrArg₂ Position.mk line column

end Locates

end Position

/-! ## The index of lines -/

namespace LineIndex

/-- What a search has shown: the numbers before `low` are at most `pos`, and those from `high` on are greater. -/
structure Bracket (starts : Array Nat) (pos low high : Nat) : Prop where
  ordered : low ≤ high
  within : high ≤ starts.size
  below : ∀ i < low, starts.getD i 0 ≤ pos
  above : ∀ i, high ≤ i → i < starts.size → pos < starts.getD i 0

theorem bracket_all (starts : Array Nat) (pos : Nat) : Bracket starts pos 0 starts.size :=
  ⟨Nat.zero_le _, Nat.le_refl _, fun _ before => absurd before (Nat.not_lt_zero _),
    fun _ from_ within => absurd within (Nat.not_lt_of_le from_)⟩

/-- Each step of the search shows as much, so where it ends the numbers up to `pos` end. -/
theorem search_bracket {starts : Array Nat} {pos low high : Nat}
    (ascending : ∀ i j, i ≤ j → j < starts.size → starts.getD i 0 ≤ starts.getD j 0)
    (bracket : Bracket starts pos low high) :
    Bracket starts pos (search starts pos low high) (search starts pos low high) := by
  fun_induction search starts pos low high with
  | case1 low high more middle greater ih =>
    have middle_eq : middle = (low + high) / 2 := rfl
    refine ih ⟨by omega, by have := bracket.within; omega, bracket.below, fun i from_ inside => ?_⟩
    exact Nat.lt_of_lt_of_le greater (ascending middle i from_ inside)
  | case2 low high more middle atMost ih =>
    have middle_eq : middle = (low + high) / 2 := rfl
    have := bracket.within
    refine ih ⟨by omega, bracket.within, fun i before => ?_, bracket.above⟩
    exact Nat.le_trans (ascending i middle (Nat.le_of_lt_succ before) (by omega)) (Nat.le_of_not_lt atMost)
  | case3 low high done =>
    exact ⟨Nat.le_refl _, by have := bracket.ordered; have := bracket.within; omega, bracket.below,
      fun i from_ => bracket.above i (by omega)⟩

theorem length_startsFrom (offset : Nat) (text : List Char) :
    (startsFrom offset text).length + 1 = (text.splitOn '\n').length := by
  induction text generalizing offset with
  | nil => rfl
  | cons c rest ih =>
    obtain ⟨first, others, cut⟩ := exists_splitOn rest
    have later := ih (offset + 1)
    rw [cut, List.length_cons] at later
    rw [startsFrom, splitOn_cons c cut]
    split <;> simp only [List.length_cons] <;> omega

/-- The index has each line where the lines before it end. -/
theorem getElem?_startsFrom {text : List Char} {index : Nat} (offset : Nat)
    (within : index < (text.splitOn '\n').length) :
    (offset :: startsFrom offset text)[index]? =
      some (offset + (unlines ((text.splitOn '\n').take index)).length) := by
  induction text generalizing offset index with
  | nil =>
    obtain rfl : index = 0 := Nat.lt_one_iff.mp within
    rfl
  | cons c rest ih =>
    obtain ⟨first, others, cut⟩ := exists_splitOn rest
    rw [splitOn_cons c cut] at within ⊢
    cases index with
    | zero => rfl
    | succ index =>
      by_cases feed : c = '\n'
      · have later := @ih index (offset + 1) (by simpa [feed, cut] using within)
        simp only [startsFrom, feed, if_true, List.getElem?_cons_succ, later, cut, List.take_succ_cons, unlines_cons,
          List.nil_append, List.length_cons]
        congr 1
        omega
      · -- The first line goes on with the character, and the lines after it begin where they did.
        have later := @ih (index + 1) (offset + 1) (by simpa [feed, cut] using within)
        rw [List.getElem?_cons_succ, cut, List.take_succ_cons, unlines_cons] at later
        simp only [startsFrom, feed, if_false, List.getElem?_cons_succ, later, List.take_succ_cons, unlines_cons,
          List.cons_append, List.length_cons]
        congr 1
        omega

variable (source : Source)

theorem lineCount_eq : (ofSource source).lineCount = source.lines.length :=
  length_startsFrom 0 source.chars.toList

theorem getD_starts {index : Nat} (within : index < source.lines.length) :
    (ofSource source).starts.getD index 0 = source.lineStart index := by
  rw [Array.getD_eq_getD_getElem?, ofSource, List.getElem?_toArray, getElem?_startsFrom 0 within, Nat.zero_add,
    Source.lineStart_eq]
  rfl

theorem starts_ascending (first second : Nat) (ordered : first ≤ second)
    (within : second < (ofSource source).starts.size) :
    (ofSource source).starts.getD first 0 ≤ (ofSource source).starts.getD second 0 := by
  have within : second < source.lines.length := lineCount_eq source ▸ within
  rw [getD_starts source within, getD_starts source (Nat.lt_of_le_of_lt ordered within)]
  exact source.lineStart_le ordered

/-- Where the search for an offset ends, so does the line on which it lies. -/
theorem Bracket.bounds {source : Source} {offset found : Nat}
    (bracket : Bracket (ofSource source).starts offset found found) (within : offset ≤ source.size) :
    1 ≤ found ∧ found ≤ source.lines.length ∧
      source.lineStart (found - 1) ≤ offset ∧ offset < source.lineStart found := by
  have size : (ofSource source).starts.size = source.lines.length := lineCount_eq source
  have last : found ≤ source.lines.length := size ▸ bracket.within
  have first : 1 ≤ found := by
    by_contra none
    -- The first line begins with the text, so no offset lies before it.
    have some : 0 < source.lines.length := List.length_pos_of_ne_nil (List.splitOn_ne_nil _ _)
    have before := bracket.above 0 (by omega) (size ▸ some)
    rw [getD_starts source some] at before
    exact Nat.not_lt_zero _ before
  have reached := bracket.below (found - 1) (Nat.sub_one_lt_of_le first (Nat.le_refl _))
  rw [getD_starts source (Nat.sub_one_lt_of_le first last)] at reached
  refine ⟨first, last, reached, ?_⟩
  rcases Nat.lt_or_eq_of_le last with inside | all
  · exact getD_starts source inside ▸ bracket.above found (Nat.le_refl _) (size ▸ inside)
  · rw [all, source.lineStart_length]
    exact Nat.lt_succ_of_le within

/-- The position that is found by searching the beginnings of the lines. -/
theorem position_locates (pos : Int) : ((ofSource source).position pos).Locates source (source.clamp pos) := by
  set found := search (ofSource source).starts (source.clamp pos) 0 (ofSource source).starts.size with found_eq
  obtain ⟨first, last, reached, missed⟩ :=
    (search_bracket (starts_ascending source) (bracket_all _ (source.clamp pos))).bounds (source.clamp_le pos)
  have place : (ofSource source).position pos = ⟨found, source.clamp pos - source.lineStart (found - 1) + 1⟩ := by
    rw [← getD_starts source (Nat.sub_one_lt_of_le first last)]
    rfl
  rw [place]
  exact .of_bounds first last reached missed

/-- The two ways to a position agree. -/
theorem position_eq (pos : Int) : (ofSource source).position pos = Position.of source pos :=
  (position_locates source pos).unique (Position.of_locates source pos)

end LineIndex

end RecursiveDescent
