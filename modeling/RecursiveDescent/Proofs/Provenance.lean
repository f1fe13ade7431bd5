import RecursiveDescent.Proofs.Coverage

/-! # Where failures come from

No combinator makes a failure of its own, or changes one. A failure that a parser answers with is that of a leaf
which the parse came to, as the leaf gives it at the offset at which it was tried; so the label is the leaf's own,
and the span begins where the leaf began.
-/

namespace RecursiveDescent

/-- The label with which a leaf reports that it does not match. -/
def Parser.label? : Parser → Option String
  | .literal expected => some expected
  | .pattern _ label => some label
  | .integer => some Lexeme.integerLabel
  | .float => some Lexeme.floatLabel
  | _ => none

/-- One of these leaves gives a failure, when it is tried at some offset from `pos` on. -/
def Failure.StemsFrom (leaves : Parser → Prop) (source : Source) (pos : Int) (missed : Failure) : Prop :=
  ∃ leaf offset, leaves leaf ∧ leaf.label? ≠ none ∧ pos ≤ offset ∧ offset ≤ source.size ∧
    ∀ limit call, leaf.matcher limit call source offset = pure (.failure missed)

namespace Failure.StemsFrom

variable {leaves more : Parser → Prop} {source : Source} {pos later : Int} {missed : Failure}

theorem mono (le : ∀ leaf, leaves leaf → more leaf) (stems : missed.StemsFrom leaves source pos) :
    missed.StemsFrom more source pos := by
  obtain ⟨leaf, offset, among, rest⟩ := stems
  exact ⟨leaf, offset, le leaf among, rest⟩

theorem of_later (le : pos ≤ later) (stems : missed.StemsFrom leaves source later) :
    missed.StemsFrom leaves source pos := by
  obtain ⟨leaf, offset, among, labelled, after, rest⟩ := stems
  exact ⟨leaf, offset, among, labelled, le.trans after, rest⟩

end Failure.StemsFrom

/-- Up to the end of a source, successes cover what was read and failures stem from certain leaves. -/
def Contract.origins (leaves : Parser → Prop) (source : Source) : Contract :=
  { Contract.coverage source with
    misses := fun pos missed => missed.StemsFrom leaves source pos
    misses_later := fun moved stems => stems.of_later moved.1 }

namespace Matcher

variable {child : Matcher} {source : Source} {pos : Int} {leaves more : Parser → Prop} {missed : Failure}

/-- Every failure of a matcher, at an offset that is not beyond the end, stems from one of these leaves. -/
def Traces (leaves : Parser → Prop) (matcher : Matcher) : Prop :=
  ∀ source pos missed, pos ≤ source.size → (matcher source pos).outcome = .value (.failure missed) →
    missed.StemsFrom leaves source pos

theorem Traces.mono (le : ∀ leaf, leaves leaf → more leaf) (traces : child.Traces leaves) : child.Traces more :=
  fun source pos missed inside answered => (traces source pos missed inside answered).mono le

/-- A matcher keeps the contract if it covers what it reads and its failures stem from these leaves. -/
theorem meets_origins (covers : child.Covers) (traces : child.Traces leaves) (source : Source) :
    child.Meets (.origins leaves source) source := by
  intro pos result inside answered
  cases result with
  | success found => exact covers source pos _ inside answered
  | failure missed => exact traces source pos missed inside answered

theorem traces_of_meets (meets : ∀ source, child.Meets (.origins leaves source) source) : child.Traces leaves :=
  fun source pos missed inside answered => meets source pos (.failure missed) inside answered

/-! ## Leaves -/

/-- A literal fails in one way, with itself as the label and from the offset at which it was tried. -/
theorem literal_failure {expected : String}
    (answered : (literal expected source pos).outcome = .value (.failure missed)) :
    literal expected source pos = pure (.failure missed) ∧ missed.expected = expected ∧ missed.span.start = pos := by
  simp only [literal] at answered ⊢
  split_ifs at answered ⊢
  · cases answered
  · cases answered; exact ⟨rfl, rfl, rfl⟩

theorem pattern_failure {tree : Pattern} {label : String}
    (answered : (pattern tree label source pos).outcome = .value (.failure missed)) :
    pattern tree label source pos = pure (.failure missed) ∧ missed.expected = label ∧ missed.span.start = pos := by
  simp only [pattern] at answered ⊢
  split at answered
  · cases answered
  · cases answered; exact ⟨rfl, rfl, rfl⟩

/-- A transformed match fails only as the match itself. -/
theorem map_failure {action : Action} (answered : (map child action source pos).outcome = .value (.failure missed)) :
    (child source pos).outcome = .value (.failure missed) := by
  obtain ⟨result, matched, answered⟩ := Run.bind_outcome.mp answered
  cases result with
  | failure other => cases answered; exact matched
  | success found =>
    obtain ⟨value, _, answered⟩ := Run.bind_outcome.mp answered
    cases answered

/-- The action has no part in a failure, and so the run is that of the child. -/
theorem map_of_failure (action : Action) (failed : child source pos = pure (.failure missed)) :
    map child action source pos = pure (.failure missed) := by
  simp only [map, onSuccess, failed, pure_bind]

end Matcher

/-- A leaf answers with a failure in one way, with its own label and from the offset at which it was tried. -/
theorem Parser.leaf_failure {leaf : Parser} {label : String} (labelled : leaf.label? = some label) {limit : Nat}
    {call : Address → Matcher} {source : Source} {pos : Int} {missed : Failure}
    (answered : (leaf.matcher limit call source pos).outcome = .value (.failure missed)) :
    (∀ limit call, leaf.matcher limit call source pos = pure (.failure missed)) ∧
      missed.expected = label ∧ missed.span.start = pos := by
  cases leaf with
  | literal expected =>
    cases labelled
    obtain ⟨failed, rest⟩ := Matcher.literal_failure answered
    exact ⟨fun _ _ => failed, rest⟩
  | pattern tree label =>
    cases labelled
    obtain ⟨failed, rest⟩ := Matcher.pattern_failure answered
    exact ⟨fun _ _ => failed, rest⟩
  | integer | float =>
    cases labelled
    obtain ⟨failed, rest⟩ := Matcher.pattern_failure (Matcher.map_failure answered)
    exact ⟨fun _ _ => Matcher.map_of_failure _ failed, rest⟩
  | _ => cases labelled

/-! ## Parsers -/

namespace Parser

variable {store : Store} {limit : Nat} {call : Address → Matcher} {actions : Action → Prop}
  {known : Address → Prop} {parser : Parser}

/-- A leaf is where its failures stem from. -/
theorem traces_leaf {label : String} (labelled : parser.label? = some label) :
    (parser.matcher limit call).Traces (store.Reaches · parser) := by
  intro source pos missed inside answered
  obtain ⟨fails, _, _⟩ := leaf_failure labelled answered
  exact ⟨parser, pos, .here, by rw [labelled]; exact Option.some_ne_none _, le_refl _, inside, fails⟩

end Parser

/-- The failures of the leaves that a parser may come to stem from these leaves. -/
theorem Store.leaves_trace (store : Store) (source : Source) (whole : Parser) :
    store.LeavesMeet (.origins (store.Reaches · whole) source) source whole := by
  have leaf {part : Parser} {label : String} (labelled : part.label? = some label) (reached : store.Reaches part whole)
      (covers : (part.matcher 0 (store.call 0)).Covers) :
      (part.matcher 0 (store.call 0)).Meets (.origins (store.Reaches · whole) source) source :=
    Matcher.meets_origins covers ((Parser.traces_leaf labelled).mono fun _ inner => inner.trans reached) source
  exact {
    literal := fun expected reached => leaf rfl reached (Matcher.covers_literal expected)
    pattern := fun tree label reached => leaf rfl reached (Matcher.covers_pattern tree label)
    integer := fun reached => leaf rfl reached (Matcher.covers_lexeme _)
    float := fun reached => leaf rfl reached (Matcher.covers_lexeme _) }

/-- The failures of a standard tree stem from leaves that are reached from it, if those of the calls of known
parsers stem from leaves that are reached through the call. -/
theorem Parser.Standard.traces {store : Store} {limit : Nat} {call : Address → Matcher} {actions : Action → Prop}
    {known : Address → Prop} {parser : Parser} (standard : parser.Standard actions known)
    (covers : ∀ address, known address → (call address).Covers)
    (calls : ∀ address, known address → (call address).Traces (store.Reaches · (.ref address))) :
    (parser.matcher limit call).Traces (store.Reaches · parser) := by
  refine Matcher.traces_of_meets fun source => standard.meets (store.leaves_trace source parser) ?_ .here
  intro address member reached
  exact Matcher.meets_origins (covers address member)
    ((calls address member).mono fun _ inner => inner.trans reached) source

/-- The failures of a call stem from leaves that are reached through it, within any limit. -/
theorem Store.Standard.call_traces {store : Store} {actions : Action → Prop} {known : Address → Prop}
    (standard : store.Standard actions known) (limit : Nat) {address : Address} (member : known address) :
    (store.call limit address).Traces (store.Reaches · (.ref address)) :=
  Matcher.traces_of_meets fun source =>
    standard.call_meets (store.leaves_trace source (.ref address)) limit member .here

namespace Grammar

variable {bindings : Bindings} {store final : Store} {grammar : Grammar}
  {definitions : List (String × Expression)}

/-- A failure that a rule of a grammar over standard definitions answers with, or a standard tree that may mention
these rules, is the very answer of a leaf, in the tree or in a body that is reached from it, when that leaf is run
at some offset from the beginning on. The label is that of the leaf, and the span begins at that offset. With no
definitions this speaks of trees alone. -/
theorem failures_stem_from_leaves (within : bindings.Within store) {known : Address → Prop}
    (before : store.Standard (fun _ => True) known)
    (each : ∀ definition ∈ definitions, definition.2.Standard (fun _ => True) bindings known)
    (success : (build bindings store definitions).outcome = .value (final, grammar)) (tree : Parser)
    (built : (∃ name address, grammar.find? name = some address ∧ tree = .ref address) ∨
      ∃ expression : Expression, expression.Standard (fun _ => True) bindings known ∧
        (expression.parser ⟨final, bindings, grammar⟩).outcome = .value tree)
    (source : Source) (limit : Nat) (pos : Int) (inside : pos ≤ source.size) (missed : Failure)
    (answered : (tree.matcher limit (final.call limit) source pos).outcome = .value (.failure missed)) :
    ∃ leaf offset, final.Reaches leaf tree ∧ pos ≤ offset ∧ offset ≤ source.size ∧
      final.matcher leaf source offset = pure (.failure missed) ∧
      leaf.label? = some missed.expected ∧ missed.span.start = offset := by
  have standardStore := (built_of_build within success).standard trivial before each
  have standard : tree.Standard (fun _ => True) fun address => known address ∨ grammar.owns address = true := by
    rcases built with ⟨name, address, found, rfl⟩ | ⟨expression, standard, stands⟩
    · exact .ref (.inr (owns_of_find? found))
    · exact standard.tree trivial (fun _ => .inl) (fun _ => .inr) stands
  have traces : (tree.matcher limit (final.call limit)).Traces (final.Reaches · tree) :=
    standard.traces (fun _ => standardStore.call_covers limit) fun _ => standardStore.call_traces limit
  obtain ⟨leaf, offset, reached, labelled, after, within, fails⟩ := traces source pos missed inside answered
  obtain ⟨label, named⟩ := Option.ne_none_iff_exists'.mp labelled
  have failed : (leaf.matcher limit (final.call limit) source offset).outcome = .value (.failure missed) := by
    rw [fails]
    rfl
  obtain ⟨_, rfl, starts⟩ := Parser.leaf_failure named failed
  exact ⟨leaf, offset, reached, after, within, fails _ _, named, starts⟩

/-- In a list that is not closed, the failure is that of a literal at the end of the text. -/
theorem nestedLists_failure : ∃ final grammar address leaf missed offset,
    (build .empty .empty nestedLists).outcome = .value (final, grammar) ∧
      grammar.find? "Top" = some address ∧
      (final.call 12 address (.ofString "[1,[]") 0).outcome = .value (.failure missed) ∧
      final.Reaches leaf (.ref address) ∧ 0 ≤ offset ∧ offset ≤ 5 ∧
      final.matcher leaf (.ofString "[1,[]") offset = pure (.failure missed) ∧
      leaf.label? = some missed.expected ∧ missed.span.start = offset := by
  obtain ⟨final, grammar, address, success, top, fails⟩ : ∃ final grammar address,
      (build .empty .empty nestedLists).outcome = .value (final, grammar) ∧
        grammar.find? "Top" = some address ∧
        (final.call 12 address (.ofString "[1,[]") 0).answer?.any (!·.isSuccess) = true :=
    ⟨_, _, _, rfl, rfl, by decide +kernel⟩
  obtain ⟨missed, answered⟩ := Run.exists_failure_of_answer? fails
  obtain ⟨leaf, offset, reached, after, within, fails, labelled, starts⟩ :=
    failures_stem_from_leaves within_empty (fun _ _ member => member.elim) (nestedLists_standard fun _ => True) success
      (.ref address) (.inl ⟨"Top", address, top, rfl⟩) (.ofString "[1,[]") 12 0 (by decide) _ answered
  exact ⟨final, grammar, address, leaf, _, offset, success, top, answered, reached, after, within, fails, labelled,
    starts⟩

end Grammar

end RecursiveDescent
