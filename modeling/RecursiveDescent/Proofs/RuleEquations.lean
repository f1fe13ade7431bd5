import RecursiveDescent.Proofs.Construction

/-! # Rules satisfy their equations

Parsing with a rule of a finished grammar is parsing with its definition, resolved afresh against that
grammar: the same result or fault, and the same events on the way. A call of the rule spends one more
unit of the limit than the definition does, unless the rule copies a parser from elsewhere; so the two
agree as parses, not limit by limit.
-/

namespace RecursiveDescent

namespace Store

variable {store : Store} {address other : Address} {body : Parser}

/-- To parse with a stored parser is to parse with its body. -/
theorem parses_ref_iff (stored : store.body? address = some body) (source : Source) (pos : Int)
    (run : Run Result) : store.Parses (.ref address) source pos run ↔ store.Parses body source pos run := by
  constructor
  · rintro ⟨finished, limit, rfl⟩
    obtain ⟨_, least, _, rfl⟩ := body_of_finished finished
    refine ⟨finished, least, ?_⟩
    simp only [Parser.matcher, call_of_body stored]
  · rintro ⟨finished, limit, rfl⟩
    refine ⟨finished, limit + 1, ?_⟩
    simp only [Parser.matcher, call_of_body stored]

/-- Two addresses with one body parse alike. -/
theorem parses_ref_congr (same : store.body? address = store.body? other) (source : Source) (pos : Int)
    (run : Run Result) : store.Parses (.ref address) source pos run ↔ store.Parses (.ref other) source pos run := by
  cases stored : store.body? other with
  | none =>
    have missing : store.body? address = none := same.trans stored
    simp only [Parses, Parser.matcher, call_of_none stored, call_of_none missing]
  | some body => rw [parses_ref_iff (same.trans stored), parses_ref_iff stored]

end Store

/-- A stored parser that follows a definition parses as what the definition stands for. -/
theorem Scope.Follows.parses_iff {scope : Scope} {address : Address} {definition : Expression}
    (follows : scope.Follows address definition) :
    ∃ tree, definition.StandsFor scope tree ∧ ∀ source pos run,
      scope.store.Parses (.ref address) source pos run ↔ scope.store.Parses tree source pos run := by
  obtain ⟨tree, stands, stored | ⟨other, body, rfl, _, there, here⟩⟩ := follows
  · exact ⟨tree, stands, Store.parses_ref_iff stored⟩
  · exact ⟨.ref other, stands, Store.parses_ref_congr (here.trans there.symm)⟩

namespace Grammar

variable {bindings : Bindings} {store final : Store} {grammar : Grammar}
  {definitions : List (String × Expression)}

/-- Once a grammar is built, each of its rules parses exactly as its definition, resolved in the finished
grammar: the one comes to an end if and only if the other does, with the same outcome and events. -/
theorem rule_parses_iff_definition (within : bindings.Within store) (distinct : (definitions.map (·.1)).Nodup)
    (success : (build bindings store definitions).outcome = .value (final, grammar)) {name : String}
    {definition : Expression} (defined : (name, definition) ∈ definitions) :
    ∃ address tree, grammar.item name = .ok (.rule address) ∧
      (definition.parser ⟨final, bindings, grammar⟩).outcome = .value tree ∧
      ∀ source pos run, final.Parses (.ref address) source pos run ↔ final.Parses tree source pos run := by
  have built := built_of_build within success
  obtain ⟨address, found⟩ := built.find?_of_mem defined
  obtain ⟨tree, stands, parses⟩ := (built.follows_of_defined distinct defined found).parses_iff
  exact ⟨address, tree, by simp only [item, found], stands, parses⟩

/-- The alias of a later rule parses as that rule, and the rules that call each other as their bodies. -/
theorem nestedLists_parses : ∃ final grammar address tree,
    (build .empty .empty nestedLists).outcome = .value (final, grammar) ∧
      ("Top", Expression.rule "List" .member) ∈ nestedLists ∧ grammar.item "Top" = .ok (.rule address) ∧
      ((Expression.rule "List" .member).parser ⟨final, .empty, grammar⟩).outcome = .value tree ∧
      ∀ source pos run, final.Parses (.ref address) source pos run ↔ final.Parses tree source pos run := by
  have defined : ("Top", Expression.rule "List" .member) ∈ nestedLists := List.mem_cons_self ..
  obtain ⟨final, grammar, success⟩ :
      ∃ final grammar, (build .empty .empty nestedLists).outcome = .value (final, grammar) := ⟨_, _, rfl⟩
  obtain ⟨address, tree, parses⟩ :=
    rule_parses_iff_definition within_empty (by decide) success defined
  exact ⟨final, grammar, address, tree, success, defined, parses⟩

end Grammar

end RecursiveDescent
