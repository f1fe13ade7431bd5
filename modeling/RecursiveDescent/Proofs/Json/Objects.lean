import RecursiveDescent.Diagnostics.Report
import RecursiveDescent.Proofs.Json.Tokens
import RecursiveDescent.Proofs.Lines

/-! # Objects in JSON notation

An object of texts and integers, as it is written, denotes its members in their order and nothing else, and holds no
control character. A report of a failure as an object is such a text, so all of the failure is read off it, with the
position at which its span begins.
-/

namespace RecursiveDescent

namespace Json

namespace Scalar

def data : Scalar → Data
  | .text content => .text content
  | .int number => .number number

/-- Whether a value can be written: a text always can, and an integer unless it has too many digits. -/
def Prints : Scalar → Prop
  | .text _ => True
  | .int number => (toString number.natAbs).length ≤ Fault.digitLimit

/-- A value as it is written, if it can be. -/
def written : Scalar → String
  | .text content => quoted content
  | .int number => toString number

variable {value : Scalar}

theorem render_of_prints (prints : value.Prints) : value.render = .ok value.written := by
  cases value with
  | text content => rfl
  | int number => exact if_pos prints

theorem render_of_not_prints (long : ¬value.Prints) : value.render = .error .numberTooLong := by
  cases value with
  | text content => exact (long trivial).elim
  | int number => exact if_neg long

end Scalar

variable {rest left : List Char} {c d : Char} {data : Data}

/-! ## Members -/

/-- What may come behind a value in an object. -/
def closers : List Char := [',', '}']

theorem closers_solid : ∀ c ∈ closers, c ∉ blanks ∧ isNumeric c = false :=
  List.forall_mem_cons.mpr ⟨by decide, List.forall_mem_singleton.mpr (by decide)⟩

theorem value_written_iff (value : Scalar) (stops : rest.head?.any isNumeric = false)
    (ends : left.head?.any isNumeric = false) :
    Value (value.written.toList ++ rest) data left ↔ data = value.data ∧ left = rest := by
  cases value with
  | text content => exact value_quoted_iff content
  | int number => exact value_toString_iff number stops ends

theorem Skips.ends (skips : Skips rest (c :: left)) (closes : c ∈ closers) : rest.head?.any isNumeric = false := by
  cases skips with
  | stay => exact (closers_solid c closes).2
  | pass blank =>
    have other : blanks.any isNumeric = false := rfl
    exact eq_false_of_ne_true (List.any_eq_false.mp other _ blank)

/-- A value behind a blank is read up to the comma or bracket behind it. -/
theorem element_iff (value : Scalar) (closes : c ∈ closers) (ends : d ∈ closers) :
    Element (' ' :: (value.written.toList ++ c :: rest)) data (d :: left) ↔ data = value.data ∧ d = c ∧ left = rest := by
  have stops : (c :: rest).head?.any isNumeric = false := (closers_solid c closes).2
  have written : Value (value.written.toList ++ c :: rest) value.data (c :: rest) :=
    (value_written_iff value stops stops).mpr ⟨rfl, rfl⟩
  constructor
  · intro element
    cases element with
    | mk before another behind =>
      -- Neither value begins with a blank, so both begin where the blanks end.
      obtain ⟨first, others, begins, firstSolid⟩ := written.solid
      obtain ⟨start, _, rfl, startSolid⟩ := another.solid
      rw [begins] at before
      obtain ⟨rfl, rfl⟩ := Skips.unique (.pass (by decide) (.stay _)) before firstSolid startSolid
      rw [← begins] at another
      obtain ⟨rfl, rfl⟩ := (value_written_iff value stops (behind.ends ends)).mp another
      exact ⟨rfl, List.cons.inj (behind.eq_of_solid (closers_solid c closes).1)⟩
  · rintro ⟨rfl, rfl, rfl⟩
    exact .mk (.pass (by decide) (.stay _)) written (.stay _)

def memberText (member : String × Scalar) : List Char :=
  (quoted member.1).toList ++ ':' :: ' ' :: member.2.written.toList

theorem member_iff {lead : List Char} (blank : ∀ c ∈ lead, c ∈ blanks) (member : String × Scalar) {read : String × Data}
    (closes : c ∈ closers) (ends : d ∈ closers) :
    Member (lead ++ (memberText member ++ c :: rest)) read (d :: left) ↔
      read = (member.1, member.2.data) ∧ d = c ∧ left = rest := by
  have whole : memberText member ++ c :: rest = '"' :: (member.1.toList.flatMap escape ++
      '"' :: ':' :: ' ' :: (member.2.written.toList ++ c :: rest)) := by
    simp only [memberText, toList_quoted, List.cons_append, List.append_assoc, List.nil_append]
  have quote : '"' ∉ blanks := by decide
  rw [whole]
  constructor
  · intro named
    cases named with
    | mk before body behind element =>
      obtain ⟨-, rfl⟩ := (skips_blanks blank _).unique before quote quote
      obtain ⟨rfl, rfl⟩ := body_iff.mp body
      obtain ⟨-, rfl⟩ := List.cons.inj (behind.eq_of_solid (by decide))
      obtain ⟨rfl, rfl, rfl⟩ := (element_iff member.2 closes ends).mp element
      exact ⟨congrArg (·, member.2.data) String.ofList_toList, rfl, rfl⟩
  · rintro ⟨rfl, rfl, rfl⟩
    have element : Element (' ' :: (member.2.written.toList ++ d :: left)) member.2.data (d :: left) :=
      (element_iff member.2 closes closes).mpr ⟨rfl, rfl, rfl⟩
    have named := Member.mk (skips_blanks blank _) (body_escaped member.1.toList _) (.stay _) element
    rwa [String.ofList_toList] at named

/-- Members are read one by one, each up to the comma behind it and the last one up to the bracket. -/
theorem members_iff {lead : List Char} (blank : ∀ c ∈ lead, c ∈ blanks) (first : String × Scalar)
    (others : List (String × Scalar)) {read : List (String × Data)} :
    Separated Member (lead ++ ([',', ' '].intercalate ((first :: others).map memberText) ++ '}' :: rest)) read
        ('}' :: left) ↔
      read = (first :: others).map (fun member => (member.1, member.2.data)) ∧ left = rest := by
  have comma : ',' ∈ closers := by decide
  have bracket : '}' ∈ closers := by decide
  induction others generalizing first lead read with
  | nil =>
    rw [List.map_singleton, List.intercalate_singleton]
    constructor
    · intro parts
      cases parts with
      | last only =>
        obtain ⟨rfl, -, rfl⟩ := (member_iff blank first bracket bracket).mp only
        exact ⟨rfl, rfl⟩
      | more only =>
        obtain ⟨-, same, -⟩ := (member_iff blank first bracket comma).mp only
        exact absurd same (by decide)
    · rintro ⟨rfl, rfl⟩
      exact .last ((member_iff blank first bracket bracket).mpr ⟨rfl, rfl, rfl⟩)
  | cons second others ih =>
    -- Behind a comma, the blank belongs to the next member.
    have space : ∀ c ∈ [' '], c ∈ blanks := List.forall_mem_singleton.mpr (by decide)
    have further {read : List (String × Data)} := @ih [' '] space second read
    have split : [',', ' '].intercalate ((first :: second :: others).map memberText) ++ '}' :: rest =
        memberText first ++
          ',' :: ([' '] ++ ([',', ' '].intercalate ((second :: others).map memberText) ++ '}' :: rest)) := by
      simp only [List.map_cons, List.intercalate_cons_cons, List.append_assoc, List.cons_append, List.nil_append]
    rw [split]
    constructor
    · intro parts
      cases parts with
      | last only =>
        obtain ⟨-, same, -⟩ := (member_iff blank first comma bracket).mp only
        exact absurd same (by decide)
      | more only later =>
        obtain ⟨rfl, -, rfl⟩ := (member_iff blank first comma comma).mp only
        obtain ⟨rfl, rfl⟩ := further.mp later
        exact ⟨rfl, rfl⟩
    · rintro ⟨rfl, rfl⟩
      exact .more ((member_iff blank first comma comma).mpr ⟨rfl, rfl, rfl⟩) (further.mpr ⟨rfl, rfl⟩)

/-! ## Objects -/

/-- The characters of an object, if all of its values can be written. -/
def objectText (members : List (String × Scalar)) : List Char :=
  '{' :: ([',', ' '].intercalate (members.map memberText) ++ ['}'])

theorem renderMember_of_prints {member : String × Scalar} (prints : member.2.Prints) :
    renderMember member = .ok (.ofList (memberText member)) := by
  have text : String.ofList (memberText member) = quoted member.1 ++ ": " ++ member.2.written := by
    rw [← String.toList_inj]
    simp [memberText]
  rw [renderMember, Scalar.render_of_prints prints, text]
  rfl

theorem renderMember_of_not_prints {member : String × Scalar} (long : ¬member.2.Prints) :
    renderMember member = .error .numberTooLong := by
  rw [renderMember, Scalar.render_of_not_prints long]
  rfl

theorem object_of_prints {members : List (String × Scalar)} (prints : ∀ member ∈ members, member.2.Prints) :
    object members = .ok (.ofList (objectText members)) := by
  have parts : members.mapM renderMember = .ok (members.map (String.ofList ∘ memberText)) := by
    induction members with
    | nil => rfl
    | cons member rest ih =>
      obtain ⟨here, later⟩ := List.forall_mem_cons.mp prints
      rw [List.mapM_cons, renderMember_of_prints here, ih later]
      rfl
  have text : String.ofList (objectText members) =
      "\x7b" ++ ", ".intercalate (members.map (String.ofList ∘ memberText)) ++ "\x7d" := by
    rw [← String.toList_inj]
    simp [objectText, Function.comp_def]
  rw [object, parts, text]
  rfl

theorem object_of_not_prints {members : List (String × Scalar)} (long : ∃ member ∈ members, ¬member.2.Prints) :
    object members = .error .numberTooLong := by
  have parts : members.mapM renderMember = .error .numberTooLong := by
    induction members with
    | nil => simp at long
    | cons member rest ih =>
      rw [List.mapM_cons]
      by_cases here : member.2.Prints
      · have later : ∃ member ∈ rest, ¬member.2.Prints := by simpa [here] using long
        rw [renderMember_of_prints here, ih later]
        rfl
      · rw [renderMember_of_not_prints here]
        rfl
  rw [object, parts]
  rfl

/-- Behind a bracket there are the members of an object. -/
theorem value_bracket_iff {text : List Char} : Value ('{' :: text) data left ↔
    (data = .object [] ∧ Skips text ('}' :: left)) ∨
      ∃ members, data = .object members ∧ Separated Member text members ('}' :: left) := by
  constructor
  · intro value
    cases value with
    | number split written =>
      obtain ⟨c, others, rfl, first⟩ := written.first
      obtain ⟨rfl, -⟩ := List.cons.inj split
      exact absurd first (by decide)
    | emptyObject skips => exact .inl ⟨rfl, skips⟩
    | object parts => exact .inr ⟨_, rfl, parts⟩
  · rintro (⟨rfl, skips⟩ | ⟨members, rfl, parts⟩)
    · exact .emptyObject skips
    · exact .object parts

/-- Where a member stands there is no bracket, whatever blanks come before. -/
theorem Separated.not_skips {text : List Char} {members : List (String × Data)}
    (parts : Separated Member text members rest) : ¬Skips text ('}' :: left) := by
  have first {member : String × Data} {rest : List Char} (named : Member text member rest) :
      ¬Skips text ('}' :: left) := by
    intro skips
    cases named with
    | mk before => exact absurd (skips.unique before (by decide) (by decide)).1 (by decide)
  cases parts with
  | last only => exact first only
  | more only => exact first only

/-- The members of an object are read up to the bracket that closes it. -/
theorem value_members_iff (members : List (String × Scalar)) :
    Value ('{' :: ([',', ' '].intercalate (members.map memberText) ++ '}' :: rest)) data left ↔
      data = .object (members.map fun member => (member.1, member.2.data)) ∧ left = rest := by
  rw [value_bracket_iff]
  cases members with
  | nil =>
    have closed : Skips ('}' :: rest) ('}' :: rest) := .stay _
    constructor
    · rintro (⟨rfl, skips⟩ | ⟨members, rfl, parts⟩)
      · exact ⟨rfl, (closed.unique skips (by decide) (by decide)).2⟩
      · exact absurd closed parts.not_skips
    · rintro ⟨rfl, rfl⟩
      exact .inl ⟨rfl, closed⟩
  | cons first others =>
    have members {read : List (String × Data)} {left : List Char} :=
      @members_iff rest left [] (List.forall_mem_nil _) first others read
    constructor
    · rintro (⟨rfl, skips⟩ | ⟨read, rfl, parts⟩)
      · exact absurd skips (members.mpr ⟨rfl, rfl⟩).not_skips
      · obtain ⟨rfl, rfl⟩ := members.mp parts
        exact ⟨rfl, rfl⟩
    · rintro ⟨rfl, rfl⟩
      exact .inr ⟨_, rfl, members.mpr ⟨rfl, rfl⟩⟩

/-- An object is read as its members in order, and as nothing else. -/
theorem denotes_object_iff (members : List (String × Scalar)) :
    Denotes (.ofList (objectText members)) data ↔ data = .object (members.map fun member => (member.1, member.2.data)) := by
  rw [Denotes, String.toList_ofList, objectText]
  constructor
  · intro element
    cases element with
    | mk before value behind =>
      rw [before.eq_of_solid (by decide)] at value
      exact ((value_members_iff members).mp value).1
  · rintro rfl
    exact .mk (.stay _) ((value_members_iff members).mpr ⟨rfl, rfl⟩) (.stay _)

/-! ## No control characters -/

/-- No character of a text is a control character. -/
def Printable (text : List Char) : Prop := ∀ c ∈ text, 0x20 ≤ c.toNat

instance : DecidablePred Printable := fun text => List.decidableBAll (fun c : Char => 0x20 ≤ c.toNat) text

theorem Printable.append {text : List Char} (front : Printable text) (behind : Printable rest) :
    Printable (text ++ rest) :=
  List.forall_mem_append.mpr ⟨front, behind⟩

theorem Printable.cons (front : 0x20 ≤ c.toNat) (behind : Printable rest) : Printable (c :: rest) :=
  List.forall_mem_cons.mpr ⟨front, behind⟩

theorem printable_escape (c : Char) : Printable (escape c) := by
  simp only [escape, Bool.or_eq_true, decide_eq_true_eq]
  split_ifs with special lineFeed return_ tab formFeed backspace control
  · rcases special with rfl | rfl <;> decide
  iterate 5 decide
  · have all : ∀ n < 0x20, Printable (Text.hexDigits 4 n) := by decide
    exact .cons (by decide) (.cons (by decide) (all _ control))
  · exact .cons (Nat.not_lt.mp control) (List.forall_mem_nil _)

theorem printable_quoted (content : String) : Printable (quoted content).toList := by
  rw [toList_quoted]
  refine .cons (by decide) (.append (fun c member => ?_) (.cons (by decide) (List.forall_mem_nil _)))
  obtain ⟨d, _, escaped⟩ := List.mem_flatMap.mp member
  exact printable_escape d c escaped

theorem printable_written (value : Scalar) : Printable value.written.toList := by
  cases value with
  | text content => exact printable_quoted content
  | int number =>
    intro c member
    have numeric := (number_toString number).chars c member
    simp only [isNumeric, Bool.or_eq_true, Char.isDigit_iff_toNat, List.contains_iff_mem] at numeric
    have marks : Printable ['-', '+', '.', 'e', 'E'] := by decide
    exact numeric.elim (fun digit => Nat.le_trans (by decide) digit.1) (marks c)

theorem printable_objectText (members : List (String × Scalar)) : Printable (objectText members) := by
  have each (member : String × Scalar) : Printable (memberText member) :=
    (printable_quoted member.1).append (.cons (by decide) (.cons (by decide) (printable_written member.2)))
  have all : Printable ([',', ' '].intercalate (members.map memberText)) := by
    induction members with
    | nil => exact List.forall_mem_nil _
    | cons first others ih =>
      cases others with
      | nil =>
        rw [List.map_singleton, List.intercalate_singleton]
        exact each first
      | cons second others =>
        rw [List.map_cons, List.map_cons, List.intercalate_cons_cons]
        exact ((each first).append (.cons (by decide) (.cons (by decide) (List.forall_mem_nil _)))).append ih
  exact .cons (by decide) (all.append (.cons (by decide) (List.forall_mem_nil _)))

end Json

/-! ## Reports -/

namespace Report

theorem report_json (failure : Failure) (source : Source) :
    failure.report source .json = Json.object (members failure (Position.of source failure.span.start)) := by
  rw [Failure.report, render, LineIndex.position_eq]

/-- A report as an object that has no overlong integer among its numbers holds no control character, and denotes the
parts of the failure with its position, and nothing else. With an overlong one there is no such report. -/
theorem object_denotes_failure (failure : Failure) (source : Source) :
    let place := Position.of source failure.span.start
    let numbers : List Int := [failure.pos, failure.span.start, failure.span.stop, place.line, place.column]
    ((∀ number ∈ numbers, (toString number.natAbs).length ≤ Fault.digitLimit) →
      ∃ report, failure.report source .json = .ok report ∧ (∀ c ∈ report.toList, 0x20 ≤ c.toNat) ∧
        ∀ data, Json.Denotes report data ↔ data = .object
          [("expected", .text failure.expected), ("pos", .number failure.pos), ("start", .number failure.span.start),
            ("end", .number failure.span.stop), ("line", .number place.line), ("column", .number place.column)]) ∧
      ((∃ number ∈ numbers, Fault.digitLimit < (toString number.natAbs).length) →
        failure.report source .json = .error .numberTooLong) := by
  intro place numbers
  have prints : (∀ member ∈ members failure place, member.2.Prints) ↔
      ∀ number ∈ numbers, (toString number.natAbs).length ≤ Fault.digitLimit := by
    simp [members, numbers, Json.Scalar.Prints]
  refine ⟨fun short => ⟨.ofList (Json.objectText (members failure place)), ?_, ?_, fun data => ?_⟩, fun long => ?_⟩
  · rw [report_json, Json.object_of_prints (prints.mpr short)]
  · rw [String.toList_ofList]
    exact Json.printable_objectText _
  · rw [Json.denotes_object_iff]
    simp only [members, List.map_cons, List.map_nil, Json.Scalar.data, Int.cast_natCast, place]
  · rw [report_json, Json.object_of_not_prints]
    obtain ⟨number, among, more⟩ := long
    by_contra none
    have all (member : String × Json.Scalar) (here : member ∈ members failure place) : member.2.Prints :=
      by_contra fun overlong => none ⟨member, here, overlong⟩
    exact absurd (prints.mp all number among) (Nat.not_le.mpr more)

/-- A label with a quote and a line feed, each of which is escaped. -/
theorem escaped_label_denotes : ∃ report,
    Failure.report ⟨5, ⟨4, 5⟩, "\"\n"⟩ (.ofString "[1,\n2x") .json = .ok report ∧
      report = "\x7b\"expected\": \"\\\"\\n\", \"pos\": 5, \"start\": 4, \"end\": 5, " ++
        "\"line\": 2, \"column\": 1\x7d" ∧
      ('\\' ∈ report.toList ∧ 0x20 ≤ '\\'.toNat) ∧
      Json.Denotes report (.object [("expected", .text "\"\n"), ("pos", .number 5), ("start", .number 4),
        ("end", .number 5), ("line", .number 2), ("column", .number 1)]) := by
  have place : Position.of (.ofString "[1,\n2x") 4 = ⟨2, 1⟩ := by decide
  obtain ⟨report, written, printable, denotes⟩ :=
    (object_denotes_failure ⟨5, ⟨4, 5⟩, "\"\n"⟩ (.ofString "[1,\n2x")).1 (by rw [place]; decide)
  have text : report = _ := Except.ok.inj (written.symm.trans (report_json ..))
  have backslash : '\\' ∈ report.toList := by
    rw [text]
    decide
  refine ⟨report, written, text.trans rfl, ⟨backslash, printable _ backslash⟩, (denotes _).mpr ?_⟩
  simp [place]

/-- A failure at an offset that is written as 4301 ones has no report as an object. -/
theorem overlong_pos_has_no_object :
    let ones : Int := Lexeme.ofDigits (List.replicate 4301 '1')
    Failure.report ⟨ones, ⟨0, 0⟩, "x"⟩ (.ofString "") .json = .error .numberTooLong ∧
      ¬∃ report, Failure.report ⟨ones, ⟨0, 0⟩, "x"⟩ (.ofString "") .json = .ok report := by
  intro ones
  have size : (toString ones.natAbs).length = 4301 := by
    rw [Int.natAbs_natCast, Nat.toString_eq_ofList_toDigits, String.length_ofList,
      Lexeme.toDigits_ofDigits (Lexeme.isNumeral_ones 4300), List.length_replicate]
  have none : Failure.report ⟨ones, ⟨0, 0⟩, "x"⟩ (.ofString "") .json = .error .numberTooLong := by
    rw [report_json, Json.object_of_not_prints]
    refine ⟨("pos", .int ones), by simp [members], ?_⟩
    rw [Json.Scalar.Prints, size]
    decide
  rw [none]
  exact ⟨rfl, nofun⟩

end Report

end RecursiveDescent
