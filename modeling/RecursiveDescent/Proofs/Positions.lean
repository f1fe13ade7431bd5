import RecursiveDescent.Proofs.Lines

/-! # Positions and offsets correspond

An offset has one position, and a position that lies in a text is that of one offset. The correspondence keeps the
order in which the text is read, and offsets beyond an end share the position of that end. An index of lines gives the
same positions: among the beginnings of the lines, in ascending order, only one place to insert an offset exists, and
its number is that of the line.
-/

namespace RecursiveDescent

namespace Position

variable {source : Source} {place other : Position} {offset later : Nat}

/-- A position comes before another if it is on an earlier line, or further left on the same one. -/
def Precedes (first second : Position) : Prop :=
  first.line < second.line ∨ first.line = second.line ∧ first.column < second.column

namespace Locates

theorem offset_le (locates : place.Locates source offset) : offset ≤ source.size := by
  have missed := locates.lt_lineStart
  have last := source.lineStart_le locates.line_le
  rw [source.lineStart_length] at last
  omega

theorem precedes (locates : place.Locates source offset) (another : other.Locates source later)
    (before : offset < later) : place.Precedes other := by
  rcases Nat.lt_or_eq_of_le (locates.line_le_of_le another (Nat.le_of_lt before)) with above | same
  · exact .inl above
  · refine .inr ⟨same, ?_⟩
    have here := locates.offset_eq
    have there := another.offset_eq
    rw [same] at here
    omega

theorem offset_unique (locates : place.Locates source offset) (another : place.Locates source later) :
    offset = later :=
  locates.offset_eq.trans another.offset_eq.symm

end Locates

/-- An offset of a text has the position that locates it, and no other one. -/
theorem of_eq_iff (within : offset ≤ source.size) :
    Position.of source offset = place ↔ place.Locates source offset := by
  have located := Position.of_locates source offset
  rw [Source.clamp_of_le within] at located
  exact ⟨fun here => here ▸ located, located.unique⟩

/-- Only the nearest offset of the text counts. -/
theorem of_clamp (source : Source) (pos : Int) : Position.of source (source.clamp pos) = Position.of source pos :=
  (of_eq_iff (source.clamp_le pos)).mpr (Position.of_locates source pos)

/-- The position of an offset is on one of the lines, and not farther right than its end; the lines above and the
characters to the left make up the offset. So positions tell offsets apart and keep their order, every position on a
line is that of an offset, and an offset beyond an end has the position of that end. -/
theorem positions_identify_offsets (source : Source) :
    (∀ offset : Nat, offset ≤ source.size →
      let place := Position.of source offset
      (1 ≤ place.line ∧ place.line ≤ source.lines.length) ∧
        (1 ≤ place.column ∧ place.column ≤ (source.lines.getD (place.line - 1) []).length + 1) ∧
        offset = ((source.lines.take (place.line - 1)).map (·.length + 1)).sum + place.column - 1) ∧
      (∀ first second : Nat, first ≤ source.size → second ≤ source.size →
        (Position.of source first = Position.of source second → first = second) ∧
          (first < second → (Position.of source first).Precedes (Position.of source second))) ∧
      (∀ place : Position, 1 ≤ place.line → place.line ≤ source.lines.length → 1 ≤ place.column →
        place.column ≤ (source.lines.getD (place.line - 1) []).length + 1 →
        ∃ offset : Nat, offset ≤ source.size ∧ Position.of source offset = place) ∧
      (∀ pos : Int, pos < 0 → Position.of source pos = Position.of source 0) ∧
      ∀ pos : Int, source.size < pos → Position.of source pos = Position.of source source.size := by
  refine ⟨fun offset within => ?_, fun first second reached within => ?_,
    fun place first last left right => ?_, fun pos before => ?_, fun pos beyond => ?_⟩
  · have located := (of_eq_iff within).mp rfl
    refine ⟨⟨located.line_pos, located.line_le⟩, ⟨located.column_pos, located.column_le⟩, ?_⟩
    rw [Nat.add_sub_assoc located.column_pos]
    exact located.offset_eq
  · have here := (of_eq_iff reached).mp rfl
    have there := (of_eq_iff within).mp rfl
    exact ⟨fun same => here.offset_unique (same ▸ there), here.precedes there⟩
  · have located : place.Locates source _ := ⟨first, left, last, right, rfl⟩
    exact ⟨_, located.offset_le, (of_eq_iff located.offset_le).mpr located⟩
  · have nearest : source.clamp pos = 0 := by
      rw [Source.clamp]
      omega
    rw [← of_clamp source pos, nearest]
    rfl
  · rw [← of_clamp source pos, Source.clamp_of_ge (Int.le_of_lt beyond)]

/-- A line feed has the last column of the line that it ends. The line after it may be empty, and then begins where it
ends. -/
theorem lineFeeds_end_lines :
    let text := Source.ofString "ab\n\ncd"
    (5 ≤ text.size ∧ Position.of text 5 = ⟨3, 2⟩ ∧ 5 = ((text.lines.take 2).map (·.length + 1)).sum + 2 - 1) ∧
      (2 ≤ text.size ∧ 3 ≤ text.size ∧ Position.Precedes ⟨1, 3⟩ ⟨2, 1⟩) ∧
      ((1 ≤ 3 ∧ 3 ≤ text.lines.length) ∧ (1 ≤ 3 ∧ 3 ≤ (text.lines.getD (3 - 1) []).length + 1) ∧
        ∃ offset : Nat, offset ≤ text.size ∧ Position.of text offset = ⟨3, 3⟩) ∧
      (-1 < 0 ∧ Position.of text (-1) = Position.of text 0) ∧
      (text.size < 9 ∧ Position.of text 9 = Position.of text text.size) := by
  obtain ⟨bounds, order, covers, before, beyond⟩ := positions_identify_offsets (.ofString "ab\n\ncd")
  exact ⟨⟨by decide, by decide, (bounds 5 (by decide)).2.2⟩,
    ⟨by decide, by decide, (order 2 3 (by decide) (by decide)).2 (by decide)⟩,
    ⟨by decide, by decide, covers ⟨3, 3⟩ (by decide) (by decide) (by decide) (by decide)⟩,
    ⟨by decide, before (-1) (by decide)⟩, ⟨by decide, beyond 9 (by decide)⟩⟩

end Position

/-! ## Searching -/

namespace LineIndex

variable (source : Source)

/-- The lines of a text begin at ascending offsets. -/
theorem starts_sorted : (ofSource source).starts.toList.Pairwise (· < ·) := by
  rw [List.pairwise_iff_getElem]
  intro first second inside within ordered
  have count : (ofSource source).starts.toList.length = source.lines.length := by
    rw [Array.length_toList]
    exact lineCount_eq source
  have start {index : Nat} (inside : index < (ofSource source).starts.toList.length) :
      (ofSource source).starts.toList[index] = source.lineStart index := by
    rw [← getD_starts source (count ▸ inside), Array.getD_eq_getD_getElem?, ← Array.getElem?_toList,
      List.getElem?_eq_getElem inside, Option.getD_some]
  rw [start inside, start within]
  have next := source.lineStart_succ (count ▸ inside)
  have later := source.lineStart_le (show first + 1 ≤ second from ordered)
  omega

/-- There is one place to insert an offset behind all beginnings of lines up to it: the one that the search finds. -/
theorem bracket_iff (pos : Int) (found : Nat) :
    Bracket (ofSource source).starts (source.clamp pos) found found ↔
      found = ((ofSource source).position pos).line := by
  constructor
  · intro bracket
    obtain ⟨first, last, reached, missed⟩ := bracket.bounds (source.clamp_le pos)
    exact congrArg Position.line ((Position.Locates.of_bounds first last reached missed).unique
      (position_locates source pos))
  · rintro rfl
    exact search_bracket (starts_ascending source) (bracket_all _ (source.clamp pos))

/-- The index has as many lines as the text, with their beginnings in ascending order. The line that it finds for an
offset is the only place to insert the offset behind equal and lesser beginnings, and the position is the one that is
read off the text before the offset. -/
theorem index_finds_position_read :
    (ofSource source).lineCount = source.lines.length ∧
      (ofSource source).starts.toList.Pairwise (· < ·) ∧
      ∀ pos : Int,
        (∀ found, Bracket (ofSource source).starts (source.clamp pos) found found ↔
          found = ((ofSource source).position pos).line) ∧
        (ofSource source).position pos = Position.of source pos :=
  ⟨lineCount_eq source, starts_sorted source, fun pos => ⟨bracket_iff source pos, position_eq source pos⟩⟩

end LineIndex

end RecursiveDescent
