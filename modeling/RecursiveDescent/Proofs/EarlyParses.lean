import RecursiveDescent.Proofs.Placeholders

/-! # Early parses

A definition may parse with the rules of its own grammar, of which some are installed by then and the others are
placeholders. What such a parse answers does not depend on the placeholders, since to call one is a fault that no
combinator turns into an answer; so the finished grammar answers the same. And where the parse stops at a
placeholder, that is the first one that it calls.
-/

namespace RecursiveDescent

variable {scope : Scope} {name : String} {access : Access} {source : Source} {pos : Int}

/-- An early parse that answers is the parse of a rule, followed by its report. -/
theorem Scope.parse_of_parseEarly (answered : (scope.parseEarly name access source pos).outcome = .value ()) :
    ∃ address trace result, scope.grammar.find? name = some address ∧
      scope.store.matcher (.ref address) source pos = ⟨trace, .value result⟩ ∧
      scope.parseEarly name access source pos = ⟨trace ++ [.parsedEarly name result], .value ()⟩ := by
  rcases scope.parseEarly_cases name access source pos with ⟨address, found, same⟩ | ⟨cause, _, same⟩
  · rw [same] at answered ⊢
    obtain ⟨result, parsed, _⟩ := Run.bind_outcome.mp answered
    refine ⟨address, _, result, Grammar.find?_of_access found, congrArg (Run.mk _) parsed, ?_⟩
    rw [Run.bind_of_value parsed]
    rfl
  · rw [same] at answered
    cases answered

/-- An early parse that stops at a placeholder logs that at its end, and logs no other. -/
theorem Scope.parseEarly_stopped {pending : String → Prop} {named : String}
    (heeds : (scope.parseEarly name access source pos).Heeds pending)
    (stopped : (scope.parseEarly name access source pos).outcome = .fault (.unpatchedRule named)) :
    pending named ∧ ∃ earlier, (∀ rule, Event.logged (.ruleNotInstalled rule) ∉ earlier) ∧
      (scope.parseEarly name access source pos).events = earlier ++ [.logged (.ruleNotInstalled named)] := by
  generalize scope.parseEarly name access source pos = run at heeds stopped
  cases heeds with
  | undisturbed calm => exact ((calm named).2 stopped).elim
  | stopped waits silent =>
    cases stopped
    exact ⟨waits, _, silent, rfl⟩

namespace Grammar

variable {session : Session} {definitions : List (String × Expression)} {count : Nat}

/-- While a definition of a grammar is resolved, let a rule of that grammar be parsed with. If this answers, and the
grammar can be built in the end, then the rule of the finished grammar gives the same result with the same events.
If it stops at a rule that is not installed, and no action has done so by itself, then that is the rule of this
definition or of a later one, and it is the first such rule that the parse calls: no use of another one has been
logged, and whatever takes the place of all others, the parse is the same. -/
theorem early_parses_final (reachable : session.Reachable fun _ => True) (le : count < definitions.length)
    (answered : (underway session.bindings session.store definitions count).outcome = .value scope) (name : String)
    (access : Access) (source : Source) (pos : Int) :
    (∀ final grammar, (build session.bindings session.store definitions).outcome = .value (final, grammar) →
      (scope.parseEarly name access source pos).outcome = .value () →
        ∃ address trace result, grammar.find? name = some address ∧
          final.matcher (.ref address) source pos = ⟨trace, .value result⟩ ∧
          scope.parseEarly name access source pos = ⟨trace ++ [.parsedEarly name result], .value ()⟩) ∧
      (session.Reachable (Step.Applies Action.Independent) →
        (∀ definition ∈ definitions, definition.2.Applies Action.Independent) →
        ∀ named, (scope.parseEarly name access source pos).outcome = .fault (.unpatchedRule named) →
          Due definitions count named ∧
            (∃ earlier, (∀ rule, Event.logged (.ruleNotInstalled rule) ∉ earlier) ∧
              (scope.parseEarly name access source pos).events = earlier ++ [.logged (.ruleNotInstalled named)]) ∧
            ∀ fuller : Scope, fuller.Completes (· = .unpatchedRule named) scope →
              fuller.parseEarly name access source pos = scope.parseEarly name access source pos) := by
  have within := ((reachable.mono fun step _ => step.applies_all).sound trivial).within
  have underway := underway_spec within (Nat.le_of_lt le) answered
  constructor
  · intro final grammar success parsed
    obtain ⟨address, trace, result, found, parse, same⟩ := Scope.parse_of_parseEarly parsed
    obtain ⟨reached, again, completes⟩ :=
      exists_underway within (Nat.le_of_lt le) (Nat.le_refl _) (build_outcome.mp success)
    obtain rfl : scope = reached := Outcome.value.inj (answered.symm.trans again)
    have rules : grammar = scope.grammar := completes.grammar_eq
    have settled : (scope.store.matcher (.ref address) source pos).Settled fun _ => False := by
      rw [parse]
      trivial
    exact ⟨address, trace, result, rules ▸ found, (completes.matcher_extends _ source pos settled).trans parse, same⟩
  · intro reachable independent named stopped
    have sound := reachable.sound Action.independent_middle
    have closed := underway.closed within Action.independent_middle sound.closed independent
    have heeds :=
      Scope.parseEarly_heeds closed (fun address owned => (underway.owns_iff.mp owned).2) name access source pos
    obtain ⟨due, logged⟩ := Scope.parseEarly_stopped heeds stopped
    refine ⟨due, logged, fun fuller completes => completes.parseEarly_extends name access source pos ?_⟩
    simp only [Run.Settled, stopped]

/-- A list of which the items are parsed with before it is defined. -/
def earlyItems : List (String × Expression) :=
  [("Item", .literal "7"), ("List", .early "Item" .item ⟨#['7']⟩ 0 (.sepBy (.rule "Item" .item) (.literal ",")))]

/-- When the list is defined, its items already give their final result, and the list itself gives none. -/
theorem earlyItems_final : ∃ (scope : Scope) (final : Store) (grammar : Grammar) (address : Address)
    (trace earlier : List Event) (result : Result),
    (underway .empty .empty earlyItems 1).outcome = .value scope ∧
      (build .empty .empty earlyItems).outcome = .value (final, grammar) ∧
      grammar.find? "Item" = some address ∧ final.matcher (.ref address) ⟨#['7']⟩ 0 = ⟨trace, .value result⟩ ∧
      scope.parseEarly "Item" .item ⟨#['7']⟩ 0 = ⟨trace ++ [.parsedEarly "Item" result], .value ()⟩ ∧
      (scope.parseEarly "List" .item ⟨#['7']⟩ 0).events = earlier ++ [.logged (.ruleNotInstalled "List")] ∧
      Due earlyItems 1 "List" := by
  have literal (text : String) : Expression.Applies Action.Independent (.literal text) :=
    Tree.every_of_children trivial (List.forall_mem_nil _)
  have item : Expression.Applies Action.Independent (.rule "Item" .item) :=
    Tree.every_of_children trivial (List.forall_mem_nil _)
  have list : Expression.Applies Action.Independent (.sepBy (.rule "Item" .item) (.literal ",")) :=
    Tree.every_of_children trivial (List.forall_mem_cons.mpr ⟨item, List.forall_mem_singleton.mpr (literal ",")⟩)
  have independent : ∀ definition ∈ earlyItems, definition.2.Applies Action.Independent :=
    List.forall_mem_cons.mpr ⟨literal "7",
      List.forall_mem_singleton.mpr (Tree.every_of_children trivial (List.forall_mem_singleton.mpr list))⟩
  obtain ⟨scope, answered, parsed, stopped⟩ : ∃ scope, (underway .empty .empty earlyItems 1).outcome = .value scope ∧
      (scope.parseEarly "Item" .item ⟨#['7']⟩ 0).outcome = .value () ∧
      (scope.parseEarly "List" .item ⟨#['7']⟩ 0).outcome = .fault (.unpatchedRule "List") := ⟨_, rfl, rfl, rfl⟩
  obtain ⟨final, grammar, success⟩ :
      ∃ final grammar, (build .empty .empty earlyItems).outcome = .value (final, grammar) := ⟨_, _, rfl⟩
  have among : 1 < earlyItems.length := by decide
  have answers := early_parses_final .empty among answered "Item" .item ⟨#['7']⟩ 0
  have stops := early_parses_final .empty among answered "List" .item ⟨#['7']⟩ 0
  obtain ⟨address, trace, result, found, parse, same⟩ := answers.1 final grammar success parsed
  obtain ⟨due, ⟨earlier, _, logged⟩, _⟩ := stops.2 .empty independent "List" stopped
  exact ⟨scope, final, grammar, address, trace, earlier, result, answered, success, found, parse, same, logged, due⟩

end Grammar

end RecursiveDescent
