import Mathlib.Order.Lattice
import Mathlib.Data.Int.Order.Basic
import RecursiveDescent.Proofs.Contracts
import RecursiveDescent.Proofs.PatternBounds

/-! # Results cover what was read

A result of a standard parser covers a part of the source that begins at the offset of the attempt: a
success from there to where it stopped, a failure some part further on that ends where it stopped.
This is a contract, and the leaves keep it.
-/

namespace RecursiveDescent

/-- What a result says about an attempt at an offset. A success spans all that it consumed; a failure
spans a part that lies in the rest of the source, and got to the end of it. -/
def Result.Covers (source : Source) (pos : Int) : Result → Prop
  | .success found => found.span = ⟨pos, found.pos⟩ ∧ pos ≤ found.pos ∧ found.pos ≤ source.size
  | .failure missed =>
      pos ≤ missed.span.start ∧ missed.span.start ≤ missed.span.stop ∧ missed.span.stop ≤ source.size ∧
        missed.pos = missed.span.stop

theorem Result.Covers.of_later {source : Source} {pos later : Int} {missed : Failure} (le : pos ≤ later)
    (covers : (Result.failure missed).Covers source later) : (Result.failure missed).Covers source pos := by
  obtain ⟨starts, ordered, inside, reached⟩ := covers
  exact ⟨le.trans starts, ordered, inside, reached⟩

/-- Attempts that are not beyond the end stop further on, and not beyond the end. -/
def Contract.coverage (source : Source) : Contract where
  applies pos := pos ≤ source.size
  stops pos stop := pos ≤ stop ∧ stop ≤ source.size
  misses pos missed := (Result.failure missed).Covers source pos
  stops_here inside := ⟨le_refl _, inside⟩
  stops_later first second := ⟨first.1.trans second.1, second.2⟩
  applies_later _ moved := moved.2
  misses_later moved covers := covers.of_later moved.1

theorem Result.meets_coverage_iff {source : Source} {pos : Int} {result : Result} :
    result.Meets (.coverage source) pos ↔ result.Covers source pos := by
  cases result <;> exact Iff.rfl

namespace Matcher

variable {child : Matcher} {children : List Matcher} {source : Source} {pos : Int}

def Covers (matcher : Matcher) : Prop :=
  ∀ source pos result, pos ≤ source.size → (matcher source pos).outcome = .value result → result.Covers source pos

theorem covers_iff_meets {matcher : Matcher} :
    matcher.Covers ↔ ∀ source, matcher.Meets (.coverage source) source := by
  simp only [Covers, Meets, Result.meets_coverage_iff]
  rfl

theorem covers_literal (expected : String) : (literal expected).Covers := by
  intro source pos result inside answered
  simp only [literal] at answered
  split at answered
  · cases answered
    exact ⟨rfl, le_max_left _ _, max_le inside (min_le_right _ _)⟩
  · cases answered
    exact ⟨le_refl _, le_max_left _ _, max_le inside (min_le_right _ _), rfl⟩

theorem covers_pattern (tree : Pattern) (label : String) : (pattern tree label).Covers := by
  intro source pos result inside answered
  simp only [pattern] at answered
  split at answered
  · next stop matched =>
    cases answered
    obtain ⟨after, within⟩ := Pattern.end?_bounds (source.clamp_le pos) matched
    refine ⟨rfl, ?_, by dsimp only; omega⟩
    simp only [Source.clamp] at after
    dsimp only
    omega
  · cases answered
    exact ⟨le_refl _, le_refl _, inside, rfl⟩

theorem covers_lexeme {tree : Pattern} {label : String} (action : Action) : (map (pattern tree label) action).Covers :=
  covers_iff_meets.mpr fun source => meets_map action (covers_iff_meets.mp (covers_pattern tree label) source)

/-- A chain of matches stops further on, and a failure in it lies further on. -/
theorem covers_chain (covers : ∀ child ∈ children, child.Covers) (inside : pos ≤ source.size)
    {answer : Except Failure Chain} (answered : (chain source children pos).outcome = .value answer) :
    match answer with
    | .ok all => pos ≤ all.stop ∧ all.stop ≤ source.size
    | .error missed => (Result.failure missed).Covers source pos := by
  have met := meets_chain (fun child member => covers_iff_meets.mp (covers child member) source) inside answered
  cases answer <;> exact met

theorem covers_sequence (covers : ∀ child ∈ children, child.Covers) : (sequence children).Covers :=
  covers_iff_meets.mpr fun source =>
    meets_sequence fun child member => covers_iff_meets.mp (covers child member) source

/-- A strict run succeeds with nothing but the whole source. -/
theorem strict_span (covers : child.Covers) {found : Success}
    (answered : (strict child source).outcome = .value (.success found)) : found.span = ⟨0, source.size⟩ := by
  obtain ⟨result, matched, answered⟩ := Run.bind_outcome.mp answered
  have covered := covers source 0 result (Int.natCast_nonneg _) matched
  cases result with
  | failure missed => cases answered
  | success all =>
    dsimp only at answered
    split at answered
    · cases answered
    · next complete =>
      cases answered
      obtain ⟨span, _, within⟩ := covered
      rw [span, le_antisymm within (not_lt.mp complete)]

end Matcher

/-- All leaves cover what they read. -/
theorem Store.leaves_cover (store : Store) (source : Source) (whole : Parser) :
    store.LeavesMeet (.coverage source) source whole where
  literal expected _ := Matcher.covers_iff_meets.mp (Matcher.covers_literal expected) source
  pattern tree label _ := Matcher.covers_iff_meets.mp (Matcher.covers_pattern tree label) source
  integer _ := Matcher.covers_iff_meets.mp (Matcher.covers_lexeme _) source
  float _ := Matcher.covers_iff_meets.mp (Matcher.covers_lexeme _) source

/-- The matcher of a standard tree covers what it reads, if the calls to known parsers do. -/
theorem Parser.Standard.covers {actions : Action → Prop} {known : Address → Prop} {limit : Nat}
    {call : Address → Matcher} (calls : ∀ address, known address → (call address).Covers) {parser : Parser}
    (standard : parser.Standard actions known) : (parser.matcher limit call).Covers :=
  Matcher.covers_iff_meets.mpr fun source =>
    standard.meets (Store.empty.leaves_cover source parser)
      (fun address member _ => Matcher.covers_iff_meets.mp (calls address member) source) .here

/-- Calls of known parsers cover what they read, within any limit. -/
theorem Store.Standard.call_covers {store : Store} {actions : Action → Prop} {known : Address → Prop}
    (standard : store.Standard actions known) (limit : Nat) {address : Address} (member : known address) :
    (store.call limit address).Covers :=
  Matcher.covers_iff_meets.mpr fun source =>
    standard.call_meets (store.leaves_cover source (.ref address)) limit member .here

namespace Grammar

variable {bindings : Bindings} {store final : Store} {grammar : Grammar}
  {definitions : List (String × Expression)}

/-- Every result of a rule of a grammar over standard definitions, and of every standard tree that may
mention these rules, covers what was read, within any limit; a strict run succeeds only with the whole
source. With no definitions this speaks of trees alone. -/
theorem results_cover_sources (within : bindings.Within store) {actions : Action → Prop} {known : Address → Prop}
    (middle : actions Matcher.middle) (before : store.Standard actions known)
    (each : ∀ definition ∈ definitions, definition.2.Standard actions bindings known)
    (success : (build bindings store definitions).outcome = .value (final, grammar)) (tree : Parser)
    (built : (∃ name address, grammar.find? name = some address ∧ tree = .ref address) ∨
      ∃ expression : Expression, expression.Standard actions bindings known ∧
        (expression.parser ⟨final, bindings, grammar⟩).outcome = .value tree)
    (source : Source) :
    (∀ limit (pos : Int) result, pos ≤ source.size →
      (tree.matcher limit (final.call limit) source pos).outcome = .value result → result.Covers source pos) ∧
    ∀ found, (final.run .strict tree source).outcome = .value (.success found) →
      found.span = ⟨0, source.size⟩ := by
  have standardStore := (built_of_build within success).standard middle before each
  have standard : tree.Standard actions fun address => known address ∨ grammar.owns address = true := by
    rcases built with ⟨name, address, found, rfl⟩ | ⟨expression, standard, stands⟩
    · exact .ref (.inr (owns_of_mem (mem_of_find? found)))
    · exact standard.tree middle (fun _ => .inl) (fun _ => .inr) stands
  have covers (limit : Nat) : (tree.matcher limit (final.call limit)).Covers :=
    standard.covers fun _ member => standardStore.call_covers limit member
  have executed : (final.matcher tree).Covers := fun source pos => covers (final.limit source pos) source pos
  exact ⟨fun limit pos result inside answered => covers limit source pos result inside answered,
    fun found answered => Matcher.strict_span executed answered⟩

/-- The alias at the top of nested lists, tried one character before the text and at its beginning. -/
theorem nestedLists_cover : ∃ final grammar address missed found,
    (build .empty .empty nestedLists).outcome = .value (final, grammar) ∧
      grammar.find? "Top" = some address ∧
      (final.call 12 address (.ofString "[1,[]]") (-1)).outcome = .value missed ∧
      missed.Covers (.ofString "[1,[]]") (-1) ∧
      (final.run .strict (.ref address) (.ofString "[1,[]]")).outcome = .value (.success found) ∧
      found.span = ⟨0, 6⟩ := by
  obtain ⟨final, grammar, address, success, top, before, whole⟩ : ∃ final grammar address,
      (build .empty .empty nestedLists).outcome = .value (final, grammar) ∧
        grammar.find? "Top" = some address ∧
        (final.call 12 address (.ofString "[1,[]]") (-1)).answer?.isSome = true ∧
        (final.run .strict (.ref address) (.ofString "[1,[]]")).answer?.any Result.isSuccess = true :=
    ⟨_, _, _, rfl, rfl, by decide +kernel, by decide +kernel⟩
  obtain ⟨missed, missing⟩ := Run.exists_of_answer? before
  obtain ⟨found, finding⟩ := Run.exists_success_of_answer? whole
  have nothingKnown : Store.empty.Standard (fun _ => True) fun _ => False := fun _ _ member => member.elim
  obtain ⟨covers, spans⟩ := results_cover_sources within_empty trivial nothingKnown
    (nestedLists_standard fun _ => True) success (.ref address) (.inl ⟨"Top", address, top, rfl⟩)
    (.ofString "[1,[]]")
  exact ⟨final, grammar, address, missed, found, success, top, missing,
    covers 12 (-1) missed (by decide) missing, finding, spans found finding⟩

end Grammar

end RecursiveDescent
