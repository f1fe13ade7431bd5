import RecursiveDescent.Proofs.Parts

/-! # Stores that differ in addresses only

Where two stores hold the same parsers at different addresses, parses are the same: within every limit, a call
of the one gives the very run that the call at the new address gives in the other. Expressions that ask for no
early parse do not look into the store, so what they stand for is renamed along with what they refer to.
-/

namespace RecursiveDescent

namespace Parser

mutual

/-- A parser with its references led to other addresses. -/
def rename (move : Address → Address) : Parser → Parser
  | .map child action => .map (child.rename move) action
  | .sequence children => .sequence (renameAll move children)
  | .choice first rest => .choice (first.rename move) (renameAll move rest)
  | .many child => .many (child.rename move)
  | .sepBy item separator => .sepBy (item.rename move) (separator.rename move)
  | .observed observer child => .observed observer (child.rename move)
  | .ref address => .ref (move address)
  | leaf => leaf

def renameAll (move : Address → Address) : List Parser → List Parser
  | [] => []
  | child :: rest => child.rename move :: renameAll move rest

end

variable {move : Address → Address}

theorem renameAll_eq_map (move : Address → Address) (children : List Parser) :
    renameAll move children = children.map (rename move) := by
  induction children with
  | nil => rfl
  | cons child rest ih => simp only [renameAll, ih, List.map_cons]

theorem rename_ne_foreign {parser : Parser} (apart : ∀ kind, parser ≠ .foreign kind) (kind : String) :
    parser.rename move ≠ .foreign kind := by
  cases parser with
  | foreign other => exact (apart other rfl).elim
  | _ => simp [rename]

/-- A renamed parser does with calls what the parser does with calls at the new addresses. -/
theorem matcher_rename (limit : Nat) (call : Address → Matcher) (parser : Parser) :
    (parser.rename move).matcher limit call = parser.matcher limit (call ∘ move) := by
  induction parser with
  | literal _ | pattern _ _ | nothing | integer | float | fixed _ | unpatched _ | foreign _ | ref _ => rfl
  | map _ _ ih | many _ ih | observed _ _ ih => simp only [rename, matcher, ih]
  | sepBy _ _ ihItem ihSeparator => simp only [rename, matcher, ihItem, ihSeparator]
  | sequence children ih =>
    simp only [rename, matcher, matchers_eq_map, renameAll_eq_map, List.map_map]
    exact congrArg Matcher.sequence (List.map_congr_left ih)
  | choice first rest ihFirst ihRest =>
    simp only [rename, matcher, matchers_eq_map, renameAll_eq_map, List.map_map, ihFirst]
    exact congrArg (Matcher.choice _) (List.map_congr_left ihRest)

/-- A parser is not changed by a renaming of other addresses than those it refers to. -/
theorem Confined.rename_eq {actions : Action → Prop} {known : Address → Prop} {refusals : Fault → Prop}
    (fixes : ∀ address, known address → move address = address) {parser : Parser}
    (confined : parser.Confined actions known refusals) : parser.rename move = parser := by
  have same {children : List Parser} (each : ∀ child ∈ children, child.rename move = child) :
      renameAll move children = children := by
    rw [renameAll_eq_map]
    exact (List.map_congr_left each).trans (List.map_id _)
  induction parser with
  | literal _ | pattern _ _ | nothing | integer | float | fixed _ | unpatched _ | foreign _ => rfl
  | map child _ ih | many child ih | observed _ child ih =>
    simp only [rename, ih (confined.child (List.mem_singleton_self _))]
  | sepBy item separator ihItem ihSeparator =>
    simp only [rename, ihItem (confined.child (List.mem_cons_self ..)),
      ihSeparator (confined.child (List.mem_cons_of_mem _ (List.mem_singleton_self _)))]
  | sequence children ih =>
    simp only [rename, same fun child member => ih child member (confined.child member)]
  | choice first rest ihFirst ihRest =>
    simp only [rename, ihFirst (confined.child (List.mem_cons_self ..)),
      same fun child member => ihRest child member (confined.child (List.mem_cons_of_mem _ member))]
  | ref address => simp only [rename, fixes address confined.here]

end Parser

namespace Store

/-- Every parser of one store is found in another under a new address, with its references renamed, and where the
one has no parser, the other has none. -/
def Renamed (move : Address → Address) (store other : Store) : Prop :=
  ∀ address, other.body? (move address) = (store.body? address).map (Parser.rename move)

variable {move : Address → Address} {store other : Store}

/-- A call at a new address is the call at the old one. -/
theorem Renamed.call_eq (renamed : store.Renamed move other) (limit : Nat) (address : Address) :
    other.call limit (move address) = store.call limit address := by
  induction limit generalizing address with
  | zero => rfl
  | succ limit ih =>
    cases stored : store.body? address with
    | none =>
      have missing : other.body? (move address) = none := by rw [renamed, stored, Option.map_none]
      rw [call_of_none stored, call_of_none missing]
    | some body =>
      have present : other.body? (move address) = some (body.rename move) := by rw [renamed, stored, Option.map_some]
      have calls : other.call limit ∘ move = store.call limit := funext ih
      rw [call_of_body stored, call_of_body present, Parser.matcher_rename, calls]

/-- A stored parser has the same runs at its new address. -/
theorem Renamed.parses_iff (renamed : store.Renamed move other) (address : Address) (source : Source) (pos : Int)
    (run : Run Result) :
    other.Parses (.ref (move address)) source pos run ↔ store.Parses (.ref address) source pos run := by
  simp only [Parses, Parser.matcher, renamed.call_eq]

/-- In a store of the same size, a stored parser is run in the same way at its new address. -/
theorem Renamed.run_eq (renamed : store.Renamed move other) (size_eq : other.cells.size = store.cells.size)
    (address : Address) (mode : RunMode) (source : Source) :
    other.run mode (.ref (move address)) source = store.run mode (.ref address) source := by
  have same : other.matcher (.ref (move address)) = store.matcher (.ref address) := by
    funext source pos
    simp only [matcher, limit, size_eq, Parser.matcher, renamed.call_eq]
  cases mode <;> simp only [run, same]

end Store

namespace Expression

variable {scope other : Scope} {move : Address → Address}

/-- What a quiet expression stands for is renamed, if all that it may refer to is. -/
theorem StandsFor.rename {expression : Expression} {tree : Parser} (stands : expression.StandsFor scope tree)
    (quiet : expression.Quiet)
    (bound : ∀ target address, scope.bindings.address target = .ok address →
      other.bindings.address target = .ok (move address))
    (rules : ∀ access name address, scope.grammar.access access name = .ok (.rule address) →
      other.grammar.access access name = .ok (.rule (move address))) :
    expression.StandsFor other (tree.rename move) := by
  have all {children : List Expression} {trees : List Parser} (stand : List.Forall₂ (StandsFor scope) children trees)
      (inner : ∀ child ∈ children, ∀ tree, child.StandsFor scope tree → child.StandsFor other (tree.rename move)) :
      List.Forall₂ (StandsFor other) children (Parser.renameAll move trees) := by
    rw [Parser.renameAll_eq_map, List.forall₂_map_right_iff]
    exact ((List.forall₂_and_left _ _).mpr ⟨inner, stand⟩).imp fun _ tree both => both.1 tree both.2
  induction expression generalizing tree with
  | literal _ | nothing | whitespace | integer | float | fixed _ _ =>
    obtain rfl := standsFor_of_pure rfl |>.mp stands
    exact standsFor_of_pure rfl |>.mpr rfl
  | pattern flags text label =>
    obtain ⟨compiled, made, rfl⟩ := standsFor_pattern.mp stands
    exact standsFor_pattern.mpr ⟨compiled, made, rfl⟩
  | map child action ih =>
    obtain ⟨tree, inner, parser, rfl⟩ := standsFor_map.mp stands
    exact standsFor_map.mpr ⟨_, ih inner (quiet.child (List.mem_singleton_self _)), Parser.rename_ne_foreign parser, rfl⟩
  | many child ih =>
    obtain ⟨tree, inner, rfl⟩ := standsFor_many.mp stands
    exact standsFor_many.mpr ⟨_, ih inner (quiet.child (List.mem_singleton_self _)), rfl⟩
  | observed name observer child ih =>
    obtain ⟨tree, inner, rfl⟩ := standsFor_observed.mp stands
    exact standsFor_observed.mpr ⟨_, ih inner (quiet.child (List.mem_singleton_self _)), rfl⟩
  | optional child ih =>
    obtain ⟨tree, inner, rfl⟩ := standsFor_optional.mp stands
    exact standsFor_optional.mpr ⟨_, ih inner (quiet.child (List.mem_singleton_self _)), rfl⟩
  | sequence children ih =>
    obtain ⟨trees, stand, some, rfl⟩ := standsFor_sequence.mp stands
    have stand := all stand fun child member tree stands => ih child member stands (quiet.child member)
    refine standsFor_sequence.mpr ⟨_, stand, ?_, rfl⟩
    rw [Parser.renameAll_eq_map]
    exact fun none => some (List.map_eq_nil_iff.mp none)
  | choice children ih =>
    obtain ⟨first, rest, stand, rfl⟩ := standsFor_choice.mp stands
    exact standsFor_choice.mpr
      ⟨_, _, all stand fun child member tree stands => ih child member stands (quiet.child member), rfl⟩
  | sepBy item separator ihItem ihSeparator =>
    obtain ⟨first, second, item, separator, rfl⟩ := standsFor_sepBy.mp stands
    exact standsFor_sepBy.mpr ⟨_, _, ihItem item (quiet.child (by simp [children])),
      ihSeparator separator (quiet.child (by simp [children])), rfl⟩
  | takeMid opening child closing ihOpening ihChild ihClosing =>
    obtain ⟨first, second, third, opening, child, closing, rfl⟩ := standsFor_takeMid.mp stands
    exact standsFor_takeMid.mpr ⟨_, _, _, ihOpening opening (quiet.child (by simp [children])),
      ihChild child (quiet.child (by simp [children])), ihClosing closing (quiet.child (by simp [children])), rfl⟩
  | existing target =>
    obtain ⟨address, found, rfl⟩ := standsFor_existing.mp stands
    exact standsFor_existing.mpr ⟨_, bound target address found, rfl⟩
  | rule name access =>
    obtain ⟨member, found, rfl⟩ := standsFor_rule.mp stands
    cases member with
    | rule address => exact standsFor_rule.mpr ⟨_, rules access name address found, rfl⟩
    | method | table | registry => exact standsFor_rule.mpr ⟨_, Grammar.access_of_own found nofun _, rfl⟩
  | early name access source pos next => exact (quiet.here name access source pos next rfl).elim
  | foreign value =>
    obtain rfl := standsFor_foreign.mp stands
    exact standsFor_foreign.mpr rfl

end Expression

end RecursiveDescent
