import RecursiveDescent.Proofs.Answers

/-! # Spans at any offset

Up to the end of a source, results cover what was read. Beyond it there is nothing to read, and a parser stops
where it began; but patterns are attempted at the end of the source, and one that matches the empty text there
falls back to it. The span of a match that fell back is reversed. No other span is, and no span of a failure.
-/

namespace RecursiveDescent

/-- An attempt stops where it began, or falls back to the end of the source if there is a reason. -/
def Source.Stays (source : Source) (reason : Prop) (pos stop : Int) : Prop :=
  stop = pos ∨ reason ∧ stop = source.size

namespace Source.Stays

variable {source : Source} {reason : Prop} {pos middle stop : Int}

theorem refl (source : Source) (reason : Prop) (pos : Int) : source.Stays reason pos pos := .inl rfl

theorem trans (first : source.Stays reason pos middle) (second : source.Stays reason middle stop) :
    source.Stays reason pos stop := by
  rcases second with rfl | fell
  · exact first
  · exact .inr fell

theorem beyond (stays : source.Stays reason pos stop) (outside : source.size ≤ pos) : source.size ≤ stop := by
  rcases stays with rfl | ⟨_, rfl⟩
  · exact outside
  · exact le_refl _

end Source.Stays

/-- Attempts at the end of a source or beyond it stay there or fall back for a reason, and failures span nothing. -/
def Contract.staying (source : Source) (reason : Prop) : Contract where
  applies pos := source.size ≤ pos
  stops := source.Stays reason
  misses pos missed := missed.span = ⟨missed.pos, missed.pos⟩ ∧ source.Stays reason pos missed.pos
  stops_here _ := .refl ..
  stops_later := .trans
  applies_later outside stays := stays.beyond outside
  misses_later moved missed := ⟨missed.1, moved.trans missed.2⟩

namespace Result

variable {source : Source} {reason : Prop} {pos : Int} {result : Result}

/-- What a result says about an attempt at any offset. A success spans what lies between there and where it
stopped, and is reversed only if it fell back from beyond the end, for a reason. No failure is reversed. -/
def Ordered (source : Source) (reason : Prop) (pos : Int) : Result → Prop
  | .success found =>
      found.span = ⟨pos, found.pos⟩ ∧
        (pos ≤ found.pos ∨ reason ∧ source.size < pos ∧ found.pos = source.size)
  | .failure missed => missed.span.start ≤ missed.span.stop

theorem Covers.ordered (covers : result.Covers source pos) : result.Ordered source reason pos := by
  cases result with
  | success found => exact ⟨covers.1, .inl covers.2.1⟩
  | failure missed => exact covers.2.1

theorem Meets.ordered (outside : source.size < pos) (met : result.Meets (.staying source reason) pos) :
    result.Ordered source reason pos := by
  cases result with
  | success found =>
    obtain ⟨span, stopped | ⟨excused, fell⟩⟩ := met
    · exact ⟨span, .inl stopped.ge⟩
    · exact ⟨span, .inr ⟨excused, outside, fell⟩⟩
  | failure missed =>
    simp only [Ordered, met.1]
    exact le_refl _

end Result

/-- A pattern that takes some width matches no empty text. -/
theorem Pattern.no_empty_match {tree : Pattern} (wide : 0 < tree.least) (source : Source) :
    tree.end? source source.size ≠ some source.size := by
  intro matched
  obtain ⟨width, _⟩ := Pattern.end?_bounds (le_refl _) matched
  omega

namespace Matcher

variable {child : Matcher} {source : Source} {reason : Prop} {pos : Int}

theorem stays_literal (expected : String) : (literal expected).Meets (.staying source reason) source := by
  intro pos result outside answered
  have stop : max pos (min (pos + expected.length) source.size) = pos := max_eq_left ((min_le_right _ _).trans outside)
  simp only [literal, stop] at answered
  split at answered
  · cases answered
    exact ⟨rfl, .refl ..⟩
  · cases answered
    exact ⟨rfl, .refl ..⟩

/-- Beyond the end of a source, a pattern is attempted at the end. -/
theorem pattern_beyond (tree : Pattern) (label : String) (outside : source.size ≤ pos) :
    pattern tree label source pos =
      if tree.end? source source.size = some source.size
        then return .success ⟨source.size, ⟨pos, source.size⟩, .text ""⟩
        else return .failure ⟨pos, ⟨pos, pos⟩, label⟩ := by
  have clamped := Source.clamp_of_ge outside
  cases matched : tree.end? source source.size with
  | none => simp only [pattern, clamped, matched, reduceCtorEq, if_false]
  | some stop =>
    obtain ⟨after, within⟩ := Pattern.end?_bounds (le_refl _) matched
    obtain rfl : stop = source.size := by omega
    have empty : source.extract source.size source.size = "" := by
      rw [Source.extract, Array.extract_empty_of_stop_le_start (Nat.le_refl _)]
    simp only [pattern, clamped, matched, empty, if_true]

theorem stays_pattern {tree : Pattern} (label : String)
    (excuse : tree.end? source source.size = some source.size → reason) :
    (pattern tree label).Meets (.staying source reason) source := by
  intro pos result outside answered
  rw [pattern_beyond tree label outside] at answered
  split at answered
  · next matched =>
    cases answered
    exact ⟨rfl, .inr ⟨excuse matched, rfl⟩⟩
  · cases answered
    exact ⟨rfl, .refl ..⟩

/-- The pattern of a lexeme takes some width, so that it never falls back. -/
theorem stays_lexeme {tree : Pattern} (wide : 0 < tree.least) (label : String) (action : Action) :
    (map (pattern tree label) action).Meets (.staying source reason) source :=
  meets_map action (stays_pattern label fun matched => (Pattern.no_empty_match wide source matched).elim)

/-- A strict run reports no reversed span: it begins with the text, and a rest that is left lies ahead. -/
theorem strict_span_le (covers : child.Covers) {result : Result}
    (answered : (strict child source).outcome = .value result) : result.span.start ≤ result.span.stop := by
  obtain ⟨middle, matched, answered⟩ := Run.bind_outcome.mp answered
  have covered := covers source 0 middle (Int.natCast_nonneg _) matched
  cases middle with
  | failure missed => cases answered; exact covered.2.1
  | success found =>
    dsimp only at answered
    split at answered
    · next left =>
      cases answered
      exact left.le
    · cases answered
      simp only [Result.span, covered.1]
      exact covered.2.1

end Matcher

namespace Store

/-- A parser may come to a pattern that matches the empty text at the end of a source. -/
def FallsBack (store : Store) (source : Source) (parser : Parser) : Prop :=
  ∃ tree label, store.Reaches (.pattern tree label) parser ∧ tree.end? source source.size = some source.size

/-- At the end of a source or beyond it, all leaves stay, unless it is a pattern that falls back. -/
theorem leaves_stay (store : Store) (source : Source) (whole : Parser) :
    store.LeavesMeet (.staying source (store.FallsBack source whole)) source whole where
  literal expected _ := Matcher.stays_literal expected
  pattern tree label reached := Matcher.stays_pattern label fun matched => ⟨tree, label, reached, matched⟩
  integer _ := Matcher.stays_lexeme (by decide) _ _
  float _ := Matcher.stays_lexeme (by decide) _ _

end Store

/-- Every result of a standard tree is ordered, at any offset, unless a pattern falls back. -/
theorem Parser.Standard.ordered {store : Store} {actions : Action → Prop} {known : Address → Prop} {parser : Parser}
    (standard : parser.Standard actions known) (closed : store.Standard actions known) {limit : Nat} {source : Source}
    {pos : Int} {result : Result}
    (answered : (parser.matcher limit (store.call limit) source pos).outcome = .value result) :
    result.Ordered source (store.FallsBack source parser) pos := by
  by_cases inside : pos ≤ source.size
  · exact (standard.covers (fun _ => closed.call_covers limit) source pos result inside answered).ordered
  · have outside : source.size < pos := not_le.mp inside
    have leaves := store.leaves_stay source parser
    have stays : (parser.matcher limit (store.call limit)).Meets _ source :=
      standard.meets leaves (fun _ => closed.call_meets leaves limit) .here
    exact (stays pos result outside.le answered).ordered outside

namespace Grammar

variable {bindings : Bindings} {store final : Store} {grammar : Grammar}
  {definitions : List (String × Expression)}

/-- Every success of a rule of a grammar over standard definitions, and of every standard tree that may mention
these rules, spans what lies between the offset of the attempt and the place where it stopped, whatever the
offset. No span is reversed but that of a success that began beyond the end of the source and fell back to it,
for which there is a pattern that matches the empty text at the end. With no definitions this speaks of trees
alone. -/
theorem spans_reversed_only_beyond_end (within : bindings.Within store) {actions : Action → Prop}
    {known : Address → Prop} (middle : actions Matcher.middle) (before : store.Standard actions known)
    (each : ∀ definition ∈ definitions, definition.2.Standard actions bindings known)
    (success : (build bindings store definitions).outcome = .value (final, grammar)) (tree : Parser)
    (resolved : (∃ name address, grammar.find? name = some address ∧ tree = .ref address) ∨
      ∃ expression : Expression, expression.Standard actions bindings known ∧
        (expression.parser ⟨final, bindings, grammar⟩).outcome = .value tree)
    (source : Source) :
    (∀ limit (pos : Int) result, (tree.matcher limit (final.call limit) source pos).outcome = .value result →
      result.Ordered source (final.FallsBack source tree) pos) ∧
    ∀ result, (final.run .strict tree source).outcome = .value result → result.span.start ≤ result.span.stop := by
  have built := built_of_build within success
  have closed := built.standard middle before each
  have standard := (built.standard_confined within middle resolved).1
  have covers : (final.matcher tree).Covers := fun source pos =>
    standard.covers (fun _ => closed.call_covers (final.limit source pos)) source pos
  exact ⟨fun _ _ _ => standard.ordered closed, fun _ => Matcher.strict_span_le covers⟩

/-- Beyond the end of a text, the alias at the top of nested lists fails without a reversed span. -/
theorem nestedLists_ordered : ∃ final grammar address missed,
    (build .empty .empty nestedLists).outcome = .value (final, grammar) ∧
      grammar.find? "Top" = some address ∧
      (final.call 12 address (.ofString "[1,[]]") 9).outcome = .value (.failure missed) ∧
      missed.span.start ≤ missed.span.stop := by
  obtain ⟨final, grammar, address, success, top, beyond⟩ : ∃ final grammar address,
      (build .empty .empty nestedLists).outcome = .value (final, grammar) ∧
        grammar.find? "Top" = some address ∧
        (final.call 12 address (.ofString "[1,[]]") 9).answer?.any (!·.isSuccess) = true :=
    ⟨_, _, _, rfl, rfl, by decide +kernel⟩
  obtain ⟨missed, missing⟩ := Run.exists_failure_of_answer? beyond
  have nothingKnown : Store.empty.Standard (fun _ => True) fun _ => False := fun _ _ member => member.elim
  obtain ⟨ordered, _⟩ := spans_reversed_only_beyond_end within_empty trivial nothingKnown
    (nestedLists_standard fun _ => True) success (.ref address) (.inl ⟨"Top", address, top, rfl⟩)
    (.ofString "[1,[]]")
  exact ⟨final, grammar, address, missed, success, top, missing, ordered 12 9 (.failure missed) missing⟩

/-- One character beyond the empty text, any number of letters are found by falling back: the span is reversed. -/
theorem letters_reversed : ∃ tree found,
    (Expression.pattern {} "a*" "letters").Standard (fun _ => True) .empty (fun _ => False) ∧
      ((Expression.pattern {} "a*" "letters").parser .empty).outcome = .value tree ∧
      (Store.empty.run (.startingAt 1) tree (.ofString "")).outcome = .value (.success found) ∧
      found.pos = 0 ∧ found.span = ⟨1, 0⟩ ∧ ¬found.span.start ≤ found.span.stop := by
  obtain ⟨letters, compiled, matched⟩ : ∃ letters, Pattern.compile? {} "a*" = some letters ∧
      letters.end? (.ofString "") 0 = some 0 := ⟨_, rfl, by decide⟩
  have stands : (Expression.pattern {} "a*" "letters").StandsFor .empty (.pattern letters "letters") :=
    Expression.standsFor_pattern.mpr ⟨letters, compiled, rfl⟩
  have falls : Store.empty.run (.startingAt 1) (.pattern letters "letters") (.ofString "") =
      pure (.success ⟨0, ⟨1, 0⟩, .text ""⟩) :=
    (Matcher.pattern_beyond letters "letters" (by decide)).trans (if_pos matched)
  exact ⟨_, _, .pattern _ _ _, stands, congrArg Run.outcome falls, rfl, rfl, by decide⟩

end Grammar

end RecursiveDescent
