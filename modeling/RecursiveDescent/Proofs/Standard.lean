import RecursiveDescent.Proofs.Construction

/-! # Standard parsers

A parser is standard if no result in it was made by hand. It may refer to parsers in the store; those
must be among the `known` ones, which are standard in their turn. Standard definitions build grammars
whose rules can be added to the known parsers, whatever else the store holds. The actions that standard
parsers apply are of a kind that can be chosen.
-/

namespace RecursiveDescent

/-- Every part of a parser is a leaf or a combinator of the library, or refers to a known parser. A
placeholder is allowed, since its use is a fault and no result. -/
inductive Parser.Standard (actions : Action → Prop) (known : Address → Prop) : Parser → Prop
  | literal (expected : String) : Standard actions known (.literal expected)
  | pattern (tree : Pattern) (label : String) : Standard actions known (.pattern tree label)
  | nothing : Standard actions known .nothing
  | integer : Standard actions known .integer
  | float : Standard actions known .float
  | map {child : Parser} {action : Action} (allowed : actions action) (standard : Standard actions known child) :
      Standard actions known (.map child action)
  | sequence {children : List Parser} (each : ∀ child ∈ children, Standard actions known child) :
      Standard actions known (.sequence children)
  | choice {first : Parser} {rest : List Parser} (standard : Standard actions known first)
      (each : ∀ child ∈ rest, Standard actions known child) : Standard actions known (.choice first rest)
  | many {child : Parser} (standard : Standard actions known child) : Standard actions known (.many child)
  | sepBy {item separator : Parser} (first : Standard actions known item)
      (second : Standard actions known separator) : Standard actions known (.sepBy item separator)
  | observed {child : Parser} (observer : String) (standard : Standard actions known child) :
      Standard actions known (.observed observer child)
  | ref {address : Address} (member : known address) : Standard actions known (.ref address)
  | unpatched (rule : String) : Standard actions known (.unpatched rule)

/-- Every part of an expression is one of the library's, a rule, or a known parser that exists already. A
member that the grammar has of its own is none of these. -/
inductive Expression.Standard (actions : Action → Prop) (bindings : Bindings) (known : Address → Prop) :
    Expression → Prop
  | literal (expected : String) : Standard actions bindings known (.literal expected)
  | pattern (flags : PatternFlags) (text label : String) : Standard actions bindings known (.pattern flags text label)
  | nothing : Standard actions bindings known .nothing
  | whitespace : Standard actions bindings known .whitespace
  | integer : Standard actions bindings known .integer
  | float : Standard actions bindings known .float
  | map {child : Expression} {action : Action} (allowed : actions action)
      (standard : Standard actions bindings known child) : Standard actions bindings known (.map child action)
  | sequence {children : List Expression} (each : ∀ child ∈ children, Standard actions bindings known child) :
      Standard actions bindings known (.sequence children)
  | choice {children : List Expression} (each : ∀ child ∈ children, Standard actions bindings known child) :
      Standard actions bindings known (.choice children)
  | many {child : Expression} (standard : Standard actions bindings known child) :
      Standard actions bindings known (.many child)
  | optional {child : Expression} (standard : Standard actions bindings known child) :
      Standard actions bindings known (.optional child)
  | sepBy {item separator : Expression} (first : Standard actions bindings known item)
      (second : Standard actions bindings known separator) : Standard actions bindings known (.sepBy item separator)
  | takeMid {opening child closing : Expression} (first : Standard actions bindings known opening)
      (second : Standard actions bindings known child) (third : Standard actions bindings known closing) :
      Standard actions bindings known (.takeMid opening child closing)
  | observed {child : Expression} (name : Option String) (observer : String)
      (standard : Standard actions bindings known child) :
      Standard actions bindings known (.observed name observer child)
  | existing {target : Target} (member : ∀ address, bindings.address target = .ok address → known address) :
      Standard actions bindings known (.existing target)
  | rule {name : String} {access : Access} (finds : access.FindsRules name) :
      Standard actions bindings known (.rule name access)
  | early {next : Expression} (name : String) (access : Access) (source : Source) (pos : Int)
      (standard : Standard actions bindings known next) :
      Standard actions bindings known (.early name access source pos next)

def Store.Standard (store : Store) (actions : Action → Prop) (known : Address → Prop) : Prop :=
  ∀ address body, known address → store.body? address = some body → body.Standard actions known

namespace Parser.Standard

variable {actions others : Action → Prop} {known more : Address → Prop}

theorem mono (weaker : ∀ action, actions action → others action) (le : ∀ address, known address → more address)
    {parser : Parser} (standard : parser.Standard actions known) : parser.Standard others more := by
  induction standard with
  | literal expected => exact .literal expected
  | pattern tree label => exact .pattern tree label
  | nothing => exact .nothing
  | integer => exact .integer
  | float => exact .float
  | map allowed _ ih => exact .map (weaker _ allowed) ih
  | sequence _ ih => exact .sequence ih
  | choice _ _ ihFirst ihRest => exact .choice ihFirst ihRest
  | many _ ih => exact .many ih
  | sepBy _ _ ihItem ihSeparator => exact .sepBy ihItem ihSeparator
  | observed observer _ ih => exact .observed observer ih
  | ref member => exact .ref (le _ member)
  | unpatched rule => exact .unpatched rule

theorem optional {child : Parser} (standard : child.Standard actions known) :
    child.optional.Standard actions known :=
  .choice standard (List.forall_mem_singleton.mpr .nothing)

theorem takeMid {opening child closing : Parser} (middle : actions Matcher.middle)
    (first : opening.Standard actions known) (second : child.Standard actions known)
    (third : closing.Standard actions known) : (Parser.takeMid opening child closing).Standard actions known :=
  .map middle (.sequence (List.forall_mem_cons.mpr
    ⟨first, List.forall_mem_cons.mpr ⟨second, List.forall_mem_singleton.mpr third⟩⟩))

end Parser.Standard

theorem Expression.Standard.weaken {actions more : Action → Prop} {bindings : Bindings} {known : Address → Prop}
    (le : ∀ action, actions action → more action) {expression : Expression}
    (standard : expression.Standard actions bindings known) : expression.Standard more bindings known := by
  induction standard with
  | literal expected => exact .literal expected
  | pattern flags text label => exact .pattern flags text label
  | nothing => exact .nothing
  | whitespace => exact .whitespace
  | integer => exact .integer
  | float => exact .float
  | map allowed _ ih => exact .map (le _ allowed) ih
  | sequence _ ih => exact .sequence ih
  | choice _ ih => exact .choice ih
  | many _ ih => exact .many ih
  | optional _ ih => exact .optional ih
  | sepBy _ _ ihItem ihSeparator => exact .sepBy ihItem ihSeparator
  | takeMid _ _ _ ihOpening ihChild ihClosing => exact .takeMid ihOpening ihChild ihClosing
  | observed name observer _ ih => exact .observed name observer ih
  | existing member => exact .existing member
  | rule finds => exact .rule finds
  | early name access source pos _ ih => exact .early name access source pos ih

/-- Every member of the second of two related lists is related to one of the first. -/
theorem exists_of_mem_right {α β : Type} {related : α → β → Prop} {first : List α} {second : List β}
    (all : List.Forall₂ related first second) {b : β} (member : b ∈ second) : ∃ a ∈ first, related a b := by
  induction all with
  | nil => cases member
  | cons here _ ih =>
    rcases List.mem_cons.mp member with rfl | member
    · exact ⟨_, List.mem_cons_self .., here⟩
    · obtain ⟨a, among, relates⟩ := ih member
      exact ⟨a, List.mem_cons_of_mem _ among, relates⟩

/-- Standard expressions stand for standard trees. -/
theorem Expression.Standard.tree {scope : Scope} {actions : Action → Prop} {known more : Address → Prop}
    {expression : Expression} (standard : expression.Standard actions scope.bindings known)
    (middle : actions Matcher.middle) (le : ∀ address, known address → more address)
    (rules : ∀ address, scope.grammar.owns address = true → more address) {body : Parser}
    (stands : expression.StandsFor scope body) : body.Standard actions more := by
  induction standard generalizing body with
  | literal expected => rw [standsFor_literal.mp stands]; exact .literal expected
  | pattern flags text label =>
    obtain ⟨tree, _, rfl⟩ := standsFor_pattern.mp stands
    exact .pattern tree label
  | nothing => rw [standsFor_nothing.mp stands]; exact .nothing
  | whitespace => rw [standsFor_whitespace.mp stands]; exact .pattern _ _
  | integer => rw [standsFor_integer.mp stands]; exact .integer
  | float => rw [standsFor_float.mp stands]; exact .float
  | map allowed _ ih =>
    obtain ⟨tree, child, _, rfl⟩ := standsFor_map.mp stands
    exact .map allowed (ih child)
  | sequence _ ih =>
    obtain ⟨trees, stand, _, rfl⟩ := standsFor_sequence.mp stands
    refine .sequence fun tree member => ?_
    obtain ⟨child, among, here⟩ := exists_of_mem_right stand member
    exact ih child among here
  | choice _ ih =>
    obtain ⟨first, rest, stand, rfl⟩ := standsFor_choice.mp stands
    have each (tree : Parser) (member : tree ∈ first :: rest) : tree.Standard actions more := by
      obtain ⟨child, among, here⟩ := exists_of_mem_right stand member
      exact ih child among here
    exact .choice (each first (List.mem_cons_self ..)) fun tree member => each tree (List.mem_cons_of_mem _ member)
  | many _ ih =>
    obtain ⟨tree, child, rfl⟩ := standsFor_many.mp stands
    exact .many (ih child)
  | optional _ ih =>
    obtain ⟨tree, child, rfl⟩ := standsFor_optional.mp stands
    exact .optional (ih child)
  | sepBy _ _ ihItem ihSeparator =>
    obtain ⟨first, second, item, separator, rfl⟩ := standsFor_sepBy.mp stands
    exact .sepBy (ihItem item) (ihSeparator separator)
  | takeMid _ _ _ ihOpening ihChild ihClosing =>
    obtain ⟨first, second, third, opening, child, closing, rfl⟩ := standsFor_takeMid.mp stands
    exact .takeMid middle (ihOpening opening) (ihChild child) (ihClosing closing)
  | observed name observer _ ih =>
    obtain ⟨tree, child, rfl⟩ := standsFor_observed.mp stands
    exact .observed observer (ih child)
  | existing member =>
    obtain ⟨address, found, rfl⟩ := standsFor_existing.mp stands
    exact .ref (le address (member address found))
  | rule finds =>
    obtain ⟨member, found, rfl⟩ := standsFor_rule.mp stands
    obtain ⟨address, rfl⟩ := finds.exists_address found
    exact .ref (rules address (Grammar.owns_of_access found))
  | early name access source pos _ ih => exact ih (standsFor_early.mp stands).2

namespace Grammar.Built

variable {bindings : Bindings} {store final : Store} {grammar : Grammar}
  {definitions : List (String × Expression)} {actions : Action → Prop} {known : Address → Prop}

/-- Rules with standard definitions may be added to the known parsers. -/
theorem standard (built : Built bindings store definitions final grammar) (middle : actions Matcher.middle)
    (before : store.Standard actions known)
    (each : ∀ definition ∈ definitions, definition.2.Standard actions bindings known) :
    final.Standard actions fun address => known address ∨ grammar.owns address = true := by
  refine fun address body => built.bodies ?_ ?_ ?_ address body
  · intro address standard
    cases standard with
    | ref member => exact member
  · exact fun address body member stored => (before address body member stored).mono (fun _ => id) fun _ => .inl
  · intro definition member tree
    exact (each definition member).tree middle (fun _ => .inl) fun _ => .inr

end Grammar.Built

/-- Nested lists are defined without known parsers. -/
theorem Grammar.nestedLists_standard (actions : Action → Prop) (definition : String × Expression)
    (member : definition ∈ nestedLists) : definition.2.Standard actions .empty fun _ => False := by
  simp only [nestedLists, List.mem_cons, List.not_mem_nil, or_false] at member
  rcases member with rfl | rfl | rfl
  · exact .rule (by decide)
  · exact .takeMid (.literal _) (.sepBy (.rule (by decide)) (.literal _)) (.literal _)
  · refine .choice fun child member => ?_
    simp only [List.mem_cons, List.not_mem_nil, or_false] at member
    rcases member with rfl | rfl
    · exact .rule (by decide)
    · exact .integer

end RecursiveDescent
