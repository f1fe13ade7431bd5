import RecursiveDescent.Action
import RecursiveDescent.Proofs.Actions
import RecursiveDescent.Proofs.ForwardPatterns

/-! # Parses do not look behind their offset

Offsets are compared with one another and with the end of the source, and with nothing else. So a parse that uses
neither patterns that look behind nor actions that look at spans is the same wherever its text begins: with another
text put before it, all offsets of the result move by the length of that text, and nothing else changes.
-/

namespace RecursiveDescent

/-! ## Results moved -/

def Span.shift (count : Nat) (span : Span) : Span := ⟨count + span.start, count + span.stop⟩

def Result.shift (count : Nat) : Result → Result
  | .success found => .success ⟨count + found.pos, found.span.shift count, found.value⟩
  | .failure missed => .failure ⟨count + missed.pos, missed.span.shift count, missed.expected⟩

/-- What an action does depends on the value alone. -/
def Action.IgnoresSpan (action : Action) : Prop := ∀ value span other, action value span = action value other

/-! ## What is allowed -/

/-- A node that looks at nothing before its offset: its pattern does not look behind, its action ignores the span, its
result is not made by hand, and it refers to known parsers. -/
def Parser.Ahead (known : Address → Prop) : Parser → Prop
  | .pattern tree _ => tree.isForward = true
  | .map _ action => action.IgnoresSpan
  | .fixed _ => False
  | .ref address => known address
  | _ => True

abbrev Parser.LooksAhead (known : Address → Prop) : Parser → Prop := Tree.Every Parser.children (Parser.Ahead known)

/-- A node that stands for one that looks at nothing before its offset. -/
def Expression.Ahead (bindings : Bindings) (known : Address → Prop) : Expression → Prop
  | .pattern flags text _ => ∀ tokens, PatternToken.scan? flags text.toList = some tokens →
      ∀ token ∈ tokens, token.isForward = true
  | .map _ action => action.IgnoresSpan
  | .fixed _ _ => False
  | .existing target => ∀ address, bindings.address target = .ok address → known address
  | _ => True

abbrev Expression.LooksAhead (bindings : Bindings) (known : Address → Prop) : Expression → Prop :=
  Tree.Every Expression.children (Expression.Ahead bindings known)

/-- What looks ahead only stands for what does. -/
theorem Expression.StandsFor.looksAhead {scope : Scope} {known more : Address → Prop} {expression : Expression}
    {tree : Parser} (stands : expression.StandsFor scope tree)
    (ahead : expression.LooksAhead scope.bindings known) (le : ∀ address, known address → more address)
    (rules : ∀ address, scope.grammar.owns address = true → more address) : tree.LooksAhead more := by
  have makes (part : Expression) (here : part.Ahead scope.bindings known) :
      part.Makes scope (Parser.Ahead more) := by
    cases part with
    | pattern flags text label =>
      intro tree compiled
      obtain ⟨tokens, scanned, _⟩ := Option.bind_eq_some_iff.mp compiled
      exact Pattern.isForward_of_compile? scanned (here tokens scanned) compiled
    | whitespace => exact (rfl : Lexeme.whitespaceTree.isForward = true)
    | map child action => exact fun _ => here
    | takeMid opening child closing => exact fun _ _ _ => ⟨trivial, fun _ _ _ => rfl⟩
    | optional child => exact ⟨trivial, fun _ => trivial⟩
    | existing target => exact fun address found => le address (here address found)
    | rule name access =>
      intro member found
      cases member with
      | rule address => exact rules address (Grammar.owns_of_access found)
      | method | table | registry => trivial
    | fixed name result => exact here
    | sequence _ | many _ | observed _ _ _ => exact fun _ => trivial
    | choice _ | sepBy _ _ => exact fun _ _ => trivial
    | _ => trivial
  exact stands.every (ahead.imp makes)

theorem Parser.LooksAhead.mono {known more : Address → Prop} (le : ∀ address, known address → more address)
    {parser : Parser} (ahead : parser.LooksAhead known) : parser.LooksAhead more := by
  refine ahead.imp fun part here => ?_
  cases part with
  | ref address => exact le address here
  | _ => exact here

/-! ## Texts after one another -/

namespace Source

variable (front rest : Source)

theorem clamp_append {pos : Int} (after : 0 ≤ pos) :
    (front ++ rest).clamp (front.size + pos) = front.size + rest.clamp pos := by
  simp only [clamp, append_size]
  omega

theorem slice_append {start stop : Int} (first : 0 ≤ start) (last : 0 ≤ stop) :
    (front ++ rest).slice (front.size + start) (front.size + stop) = rest.slice start stop := by
  have bound_append {pos : Int} (after : 0 ≤ pos) :
      (front ++ rest).bound (front.size + pos) = front.size + rest.bound pos := by
    rw [bound, bound, if_neg (by omega), if_neg (by omega), clamp_append front rest after]
  rw [slice, slice, bound_append first, bound_append last, append_extract]

end Source

/-! ## Lockstep -/

namespace Lockstep

/-- A parse of a text, and one of the same text with another one before it. -/
def moved (front rest : Source) : Lockstep where
  place := fun pos place => 0 ≤ pos ∧ pos ≤ rest.size ∧ place = front.size + pos
  value := Eq
  events := fun _ _ => True
  excused := fun _ => False

variable {front rest : Source}

theorem moved_lawful (front rest : Source) : (moved front rest).Lawful rest (front ++ rest) where
  lt_iff := by
    rintro pos _ later _ ⟨_, _, rfl⟩ ⟨_, _, rfl⟩
    omega
  lt_size_iff := by
    rintro pos _ ⟨_, _, rfl⟩
    rw [Source.append_size]
    omega
  null := rfl
  list same := congrArg Value.list (List.forall₂_eq_eq_eq ▸ same)
  item := by rintro _ _ rfl; rfl
  nil := trivial
  append _ _ := trivial
  visited _ _ _ _ := trivial
  logged _ := trivial

theorem moved_literal (expected : String) :
    (moved front rest).Matches rest (front ++ rest) (Matcher.literal expected) (Matcher.literal expected) := by
  rintro pos _ ⟨after, inside, rfl⟩
  let stop : Int := max pos (min (pos + expected.length) rest.size)
  have stop_eq : max (front.size + pos) (min (front.size + pos + expected.length) (front ++ rest).size) =
      front.size + stop := by
    simp only [Source.append_size, stop]
    omega
  have further : pos ≤ stop ∧ stop ≤ rest.size := by omega
  have here : (moved front rest).place pos (front.size + pos) := ⟨after, inside, rfl⟩
  have there : (moved front rest).place stop (front.size + stop) := ⟨by omega, further.2, rfl⟩
  simp only [Matcher.literal, stop_eq, Source.slice_append front rest after (Int.le_trans after further.1)]
  split
  · exact (moved_lawful front rest).pure (.success there ⟨here, there⟩ rfl)
  · exact (moved_lawful front rest).pure (.failure there ⟨here, there⟩ rfl)

theorem moved_pattern {tree : Pattern} (forward : tree.isForward = true) (label : String) :
    (moved front rest).Matches rest (front ++ rest) (Matcher.pattern tree label) (Matcher.pattern tree label) := by
  rintro pos _ ⟨after, inside, rfl⟩
  have here : (moved front rest).place pos (front.size + pos) := ⟨after, inside, rfl⟩
  simp only [Matcher.pattern, Source.clamp_append front rest after, Pattern.end?_append forward]
  cases matched : tree.end? rest (rest.clamp pos) with
  | none => exact (moved_lawful front rest).pure (.failure here ⟨here, here⟩ rfl)
  | some stop =>
    have within := (Pattern.end?_bounds (rest.clamp_le pos) matched).2
    have there : (moved front rest).place stop ((front.size + stop : Nat) : Int) := ⟨by omega, by omega, by omega⟩
    simp only [Option.map_some, Source.append_extract]
    exact (moved_lawful front rest).pure (.success there ⟨here, there⟩ rfl)

/-- Any run corresponds to itself, if its answers do. -/
theorem moved_refl {run : Run Value} : (moved front rest).Runs Eq run run := by
  obtain ⟨events, outcome⟩ := run
  refine .inr ⟨trivial, ?_⟩
  cases outcome with
  | value answer => exact .value rfl
  | fault cause => exact .fault cause
  | unfinished => exact .unfinished

theorem moved_applied {action : Action} (ignores : action.IgnoresSpan) {value value' : Value} {span span' : Span}
    (same : value = value') : (moved front rest).Runs Eq (action value span) (action value' span') := by
  subst same
  rw [ignores value span span']
  exact moved_refl

/-- A node that looks ahead is run in lockstep. -/
theorem moved_allows {known : Address → Prop} {parser : Parser} (ahead : parser.Ahead known) :
    (moved front rest).Allows rest (front ++ rest) id id known parser := by
  cases parser with
  | literal expected => exact moved_literal expected
  | pattern tree label => exact moved_pattern ahead label
  | integer | float =>
    apply (moved_lawful front rest).matches_map
    · exact fun same _ => moved_applied (fun value span other => rfl) same
    · exact moved_pattern rfl _
  | map child action => exact fun same _ => moved_applied ahead same
  | fixed result => exact ahead.elim
  | ref address => exact ahead
  | _ => trivial

theorem shift_eq_of_spans {span other : Span} (spans : (moved front rest).Spans span other) :
    span.shift front.size = other := by
  obtain ⟨⟨_, _, start⟩, ⟨_, _, stop⟩⟩ := spans
  exact Span.ext start.symm stop.symm

/-- A result in the text that was moved is the result, moved. -/
theorem shift_eq_of_results {result other : Result} (results : (moved front rest).Results result other) :
    result.shift front.size = other := by
  cases results with
  | success pos span value => exact congrArg Result.success (Success.ext pos.2.2.symm (shift_eq_of_spans span) value)
  | failure pos span expected =>
    exact congrArg Result.failure (Failure.ext pos.2.2.symm (shift_eq_of_spans span) expected)

end Lockstep

namespace Grammar

variable {bindings : Bindings} {store final : Store} {grammar : Grammar}
  {definitions : List (String × Expression)}

/-- A rule of a grammar whose definitions look ahead only, and a tree that looks ahead only and may mention these
rules, parse a text in the same way with another text before it, from the offset that is moved by the length of that
text: the one parse comes to an end if and only if the other does, with the same fault, or with the same value or
label at offsets that are moved as well. With no definitions this speaks of trees alone. -/
theorem parses_behind_another_text (within : bindings.Within store) {known : Address → Prop}
    (before : ∀ address body, known address → store.body? address = some body → body.LooksAhead known)
    (each : ∀ definition ∈ definitions, definition.2.LooksAhead bindings known)
    (success : (build bindings store definitions).outcome = .value (final, grammar)) (tree : Parser)
    (built : (∃ name address, grammar.find? name = some address ∧ tree = .ref address) ∨
      ∃ expression : Expression, expression.LooksAhead bindings known ∧
        (expression.parser ⟨final, bindings, grammar⟩).outcome = .value tree)
    (front rest : Source) (pos : Int) (after : 0 ≤ pos) (inside : pos ≤ rest.size) :
    ((∃ run, final.Parses tree rest pos run) ↔
      ∃ run, final.Parses tree (front ++ rest) (front.size + pos) run) ∧
      ∀ run follow, final.Parses tree rest pos run → final.Parses tree (front ++ rest) (front.size + pos) follow →
        follow.outcome = run.outcome.map (Result.shift front.size) := by
  let reach (address : Address) : Prop := known address ∨ grammar.owns address = true
  have stands {expression : Expression} (ahead : expression.LooksAhead bindings known) {tree : Parser}
      (stands : expression.StandsFor ⟨final, bindings, grammar⟩ tree) : tree.LooksAhead reach :=
    stands.looksAhead ahead (fun _ => .inl) fun _ => .inr
  have stored : ∀ address body, reach address → final.body? address = some body → body.LooksAhead reach := by
    refine fun address body => (built_of_build within success).bodies ?_ ?_ ?_ address body
    · exact fun address ahead => ahead.here
    · exact fun address body member stored => (before address body member stored).mono fun _ => .inl
    · exact fun definition member tree => stands (each definition member)
  have ahead : tree.LooksAhead reach := by
    rcases built with ⟨name, address, found, rfl⟩ | ⟨expression, ahead, standing⟩
    · exact Tree.every_of_children (.inr (owns_of_find? found)) (List.forall_mem_nil _)
    · exact stands ahead standing
  have lawful := Lockstep.moved_lawful front rest
  apply Store.parses_correspond
  · intro run follow same
    rw [Run.Finished, Run.Finished, same, not_iff_not, Outcome.map_eq_unfinished]
  · intro limit
    have calls (address : Address) (member : reach address) :=
      lawful.matches_call (fun address body member present =>
        (stored address body member present).imp fun _ => Lockstep.moved_allows) limit member
    have runs : (Lockstep.moved front rest).Runs (Lockstep.moved front rest).Results
        ((tree.withActions id).matcher limit ((final.withActions id).call limit) rest pos)
        ((tree.withActions id).matcher limit ((final.withActions id).call limit) (front ++ rest) (front.size + pos)) :=
      lawful.matches_parser calls (ahead.imp fun _ => Lockstep.moved_allows) pos _ ⟨after, inside, rfl⟩
    rw [Parser.withActions_id, Store.call_withActions_id] at runs
    rcases runs with ⟨_, excused, _⟩ | ⟨_, outcomes⟩
    · exact excused.elim
    · exact (outcomes.mono fun _ _ => Lockstep.shift_eq_of_results).eq_map.symm

/-- Names with commas between them, of which the lengths are found. -/
def identifiers : List (String × Expression) :=
  [("List", .sepBy (.rule "Name" .member) (.literal ",")), ("Name", .map (.pattern {} "[a-z]+" "name") .count)]

theorem identifiers_lookAhead (bindings : Bindings) (known : Address → Prop) :
    ∀ definition ∈ identifiers, definition.2.LooksAhead bindings known := by
  have letters : Expression.LooksAhead bindings known (.pattern {} "[a-z]+" "name") := by
    refine Tree.every_of_children (fun tokens scanned => ?_) (List.forall_mem_nil _)
    have forward : (PatternToken.scan? {} "[a-z]+".toList).all (·.all PatternToken.isForward) = true := by
      decide +kernel
    rw [scanned] at forward
    exact List.all_eq_true.mp forward
  have name : Expression.LooksAhead bindings known (.map (.pattern {} "[a-z]+" "name") .count) :=
    Tree.every_of_children (fun _ _ _ => rfl) (List.forall_mem_singleton.mpr letters)
  have rule : Expression.LooksAhead bindings known (.rule "Name" .member) :=
    Tree.every_of_children trivial (List.forall_mem_nil _)
  have comma : Expression.LooksAhead bindings known (.literal ",") :=
    Tree.every_of_children trivial (List.forall_mem_nil _)
  have several : Expression.LooksAhead bindings known (.sepBy (.rule "Name" .member) (.literal ",")) :=
    Tree.every_of_children trivial (List.forall_mem_cons.mpr ⟨rule, List.forall_mem_singleton.mpr comma⟩)
  exact List.forall_mem_cons.mpr ⟨several, List.forall_mem_singleton.mpr name⟩

/-- After two other characters, the same names are found two characters further on. -/
theorem identifiers_behind_another_text : ∃ final grammar address run follow,
    (build .empty .empty identifiers).outcome = .value (final, grammar) ∧ grammar.find? "List" = some address ∧
      final.Parses (.ref address) (.ofString "ab,c") 0 run ∧
      final.Parses (.ref address) (.ofString "1," ++ .ofString "ab,c") 2 follow ∧
      run.answer?.any (·.isSuccess) = true ∧ follow.outcome = run.outcome.map (Result.shift 2) := by
  obtain ⟨final, grammar, address, success, top, answers⟩ : ∃ final grammar address,
      (build .empty .empty identifiers).outcome = .value (final, grammar) ∧
        grammar.find? "List" = some address ∧
        (final.call 12 address (.ofString "ab,c") 0).answer?.any (·.isSuccess) = true :=
    ⟨_, _, _, rfl, rfl, by decide +kernel⟩
  obtain ⟨found, answered⟩ := Run.exists_success_of_answer? answers
  let run := final.call 12 address (.ofString "ab,c") 0
  have parses : final.Parses (.ref address) (.ofString "ab,c") 0 run :=
    ⟨fun endless => (nomatch answered.symm.trans endless), 12, rfl⟩
  obtain ⟨ends, moves⟩ := parses_behind_another_text within_empty (fun _ _ none => none.elim)
    (identifiers_lookAhead .empty fun _ => False) success (.ref address) (.inl ⟨"List", address, top, rfl⟩)
    (.ofString "1,") (.ofString "ab,c") 0 (by decide) (by decide)
  obtain ⟨follow, followed⟩ := ends.mp ⟨run, parses⟩
  have moved := moves run follow parses followed
  exact ⟨final, grammar, address, run, follow, success, top, parses, followed, answers, moved⟩

end Grammar

end RecursiveDescent
