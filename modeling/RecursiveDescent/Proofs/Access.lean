import RecursiveDescent.Proofs.Construction

/-! # Members and items

A rule can be looked up as an item of its grammar or as a member. For an item, the rules alone are asked. A member
that belongs to the grammar itself hides the rule of the same name, and a reserved name is never looked up among the
rules. For all other names the two ways find the same parser, so that definitions may refer to a rule in either.
-/

namespace RecursiveDescent

/-! ## Look-ups -/

namespace Grammar

variable {grammar : Grammar} {name : String} {address : Address}

theorem item_of_find? (found : grammar.find? name = some address) : grammar.item name = .ok (.rule address) := by
  simp only [item, found]

/-- A rule is found as a member if and only if its name is not hidden. -/
theorem member_eq_rule_iff (found : grammar.find? name = some address) :
    grammar.member name = .ok (.rule address) ↔ ¬Hidden name := by
  constructor
  · intro here hidden
    exact member_of_hidden hidden address here
  · intro shown
    rw [member_of_shown shown, found, Option.elim_some]

end Grammar

/-! ## Runs that agree where they answer -/

namespace Run

variable {α β : Type} {run other last : Run α}

/-- Two runs are the same, events included, if one of them answers. -/
def Agrees (run other : Run α) : Prop :=
  other.Extends (fun _ => False) run ∧ run.Extends (fun _ => False) other

theorem agrees_refl (run : Run α) : run.Agrees run := ⟨run.extends_refl, run.extends_refl⟩

theorem Agrees.symm (agrees : run.Agrees other) : other.Agrees run := ⟨agrees.2, agrees.1⟩

theorem Agrees.trans (first : run.Agrees other) (second : other.Agrees last) : run.Agrees last :=
  ⟨second.1.trans first.1, first.2.trans second.2⟩

theorem Agrees.bind {next follow : α → Run β} (first : run.Agrees other)
    (second : ∀ answer, (next answer).Agrees (follow answer)) : (run >>= next).Agrees (other >>= follow) :=
  ⟨extends_bind first.1 fun answer _ => (second answer).1, extends_bind first.2 fun answer _ => (second answer).2⟩

theorem Agrees.eq_of_value (agrees : run.Agrees other) {answer : α} (answered : run.outcome = .value answer) :
    other = run :=
  agrees.1 (settled_of_value answered)

theorem Agrees.answers_iff (agrees : run.Agrees other) :
    (∃ answer, run.outcome = .value answer) ↔ ∃ answer, other.outcome = .value answer := by
  constructor
  · rintro ⟨answer, answered⟩
    exact ⟨answer, agrees.eq_of_value answered ▸ answered⟩
  · rintro ⟨answer, answered⟩
    exact ⟨answer, agrees.symm.eq_of_value answered ▸ answered⟩

/-- Look-ups agree if they find the same, or both find nothing. -/
theorem agrees_ofExcept {found sought : Except Fault α} (same : ∀ answer, found = .ok answer ↔ sought = .ok answer) :
    (ofExcept found).Agrees (ofExcept sought) := by
  cases found with
  | ok answer => rw [(same answer).mp rfl]; exact agrees_refl _
  | error cause =>
    cases sought with
    | ok answer => cases (same answer).mpr rfl
    | error other => exact ⟨fun settled => settled.elim, fun settled => settled.elim⟩

end Run

/-! ## Definitions that refer to items -/

/-- The way in which a rule is referred to where items are preferred: a hidden rule as before, others as items. -/
def Access.preferItem (access : Access) (name : String) : Access := if Grammar.Hidden name then access else .item

def Target.asItem : Target → Target
  | .bound name => .bound name
  | .rule grammar name access => .rule grammar name (access.preferItem name)

namespace Expression

mutual

def asItems : Expression → Expression
  | .map child action => .map child.asItems action
  | .sequence children => .sequence (allAsItems children)
  | .choice children => .choice (allAsItems children)
  | .many child => .many child.asItems
  | .optional child => .optional child.asItems
  | .sepBy item separator => .sepBy item.asItems separator.asItems
  | .takeMid opening child closing => .takeMid opening.asItems child.asItems closing.asItems
  | .observed name observer child => .observed name observer child.asItems
  | .existing target => .existing target.asItem
  | .rule name access => .rule name (access.preferItem name)
  | .early name access source pos next => .early name (access.preferItem name) source pos next.asItems
  | leaf => leaf

def allAsItems : List Expression → List Expression
  | [] => []
  | child :: rest => child.asItems :: allAsItems rest

end

end Expression

def Grammar.asItems (definitions : List (String × Expression)) : List (String × Expression) :=
  definitions.map fun definition => (definition.1, definition.2.asItems)

/-- A rule is found with items preferred if and only if it is found as it is referred to. -/
theorem Grammar.access_preferItem (grammar : Grammar) (access : Access) (name : String) (member : Member) :
    grammar.access access name = .ok member ↔ grammar.access (access.preferItem name) name = .ok member := by
  by_cases hidden : Hidden name
  · rw [Access.preferItem, if_pos hidden]
  · rw [Access.preferItem, if_neg hidden]
    cases access with
    | item => rfl
    | member =>
      simp only [Grammar.access, member_of_shown hidden, item]
      cases grammar.find? name <;> simp

theorem Bindings.address_asItem (bindings : Bindings) (target : Target) (address : Address) :
    bindings.address target = .ok address ↔ bindings.address target.asItem = .ok address := by
  cases target with
  | bound name => rfl
  | rule grammar name access =>
    simp only [Target.asItem, Bindings.address, bind, Except.bind]
    cases bindings.grammar grammar with
    | error cause => rfl
    | ok bound =>
      have same := bound.access_preferItem access name
      dsimp only
      cases found : bound.access access name with
      | ok member => rw [(same member).mp found]
      | error cause =>
        cases sought : bound.access (access.preferItem name) name with
        | ok member => rw [(same member).mpr sought] at found; cases found
        | error other => simp

variable {scope : Scope}

theorem Scope.rule_preferItem (name : String) (access : Access) :
    (scope.rule name access).Agrees (scope.rule name (access.preferItem name)) :=
  (Run.agrees_ofExcept (scope.grammar.access_preferItem access name)).bind fun _ => Run.agrees_refl _

theorem Scope.parseEarly_preferItem (name : String) (access : Access) (source : Source) (pos : Int) :
    (scope.parseEarly name access source pos).Agrees
      (scope.parseEarly name (access.preferItem name) source pos) :=
  (Scope.rule_preferItem name access).bind fun _ => Run.agrees_refl _

namespace Expression

theorem resolveAll_asItems {children : List Expression}
    (each : ∀ child ∈ children, (child.resolve scope).Agrees (child.asItems.resolve scope)) :
    (resolveAll scope children).Agrees (resolveAll scope (allAsItems children)) := by
  induction children with
  | nil => exact Run.agrees_refl _
  | cons child rest ih =>
    refine (each child (List.mem_cons_self ..)).bind fun resolved => ?_
    exact (ih fun other member => each other (List.mem_cons_of_mem _ member)).bind fun _ => Run.agrees_refl _

/-- An expression resolves to the same when it refers to items. -/
theorem resolve_asItems (expression : Expression) :
    (expression.resolve scope).Agrees (expression.asItems.resolve scope) := by
  induction expression with
  | literal _ | pattern _ _ _ | nothing | whitespace | integer | float | fixed _ _ | foreign _ =>
    exact Run.agrees_refl _
  | map child _ ih | many child ih | optional child ih | observed _ _ child ih =>
    exact ih.bind fun _ => Run.agrees_refl _
  | sequence children ih | choice children ih => exact (resolveAll_asItems ih).bind fun _ => Run.agrees_refl _
  | sepBy item separator ihItem ihSeparator =>
    exact ihItem.bind fun _ => ihSeparator.bind fun _ => Run.agrees_refl _
  | takeMid opening child closing ihOpening ihChild ihClosing =>
    exact ihOpening.bind fun _ => ihChild.bind fun _ => ihClosing.bind fun _ => Run.agrees_refl _
  | existing target =>
    exact (Run.agrees_ofExcept (scope.bindings.address_asItem target)).bind fun _ => Run.agrees_refl _
  | rule name access => exact Scope.rule_preferItem name access
  | early name access source pos next ih => exact (Scope.parseEarly_preferItem name access source pos).bind fun _ => ih

end Expression

namespace Grammar

variable {bindings : Bindings} {store : Store} {grammar : Grammar} {definitions : List (String × Expression)}

theorem installRules_asItems (rules : List (String × Address)) :
    (installRules bindings grammar definitions rules store).Agrees
      (installRules bindings grammar (asItems definitions) rules store) := by
  induction definitions generalizing rules store with
  | nil => exact Run.agrees_refl _
  | cons definition rest ih =>
    cases rules with
    | nil => exact Run.agrees_refl _
    | cons rule rules =>
      refine (Expression.resolve_asItems definition.2).bind fun resolved => ?_
      exact (Run.agrees_refl _).bind fun store => ih rules

/-- The names and their order are all that the placeholders depend on. -/
theorem build_asItems (bindings : Bindings) (store : Store) (definitions : List (String × Expression)) :
    (build bindings store definitions).Agrees (build bindings store (asItems definitions)) := by
  have names : (asItems definitions).map (·.1) = definitions.map (·.1) := by
    simp only [asItems, List.map_map, Function.comp_def]
  have length : (asItems definitions).length = definitions.length := List.length_map ..
  simp only [build, names, length]
  refine (Run.agrees_refl _).bind fun _ => ?_
  exact (installRules_asItems _).bind fun _ => Run.agrees_refl _

/-- While a grammar is under construction and when it is finished, each of its rules is found as an item, and the
same parser is found as a member, unless the name is hidden; then it is not found as a member at all. So if
definitions are changed in the way in which they refer to rules with names that are not hidden, at whichever places,
the grammar can be built if and only if it could be before, and the whole construction is the same, with the same
events, the same stored parsers and the same rules. -/
theorem members_interchange_with_items (bindings : Bindings) (store : Store)
    (definitions : List (String × Expression)) :
    (∀ grammar : Grammar,
      ((∃ count scope, (underway bindings store definitions count).outcome = .value scope ∧ scope.grammar = grammar) ∨
        ∃ final, (build bindings store definitions).outcome = .value (final, grammar)) →
      ∀ definition ∈ definitions, ∃ address, grammar.item definition.1 = .ok (.rule address) ∧
        (grammar.member definition.1 = .ok (.rule address) ↔ ¬Hidden definition.1)) ∧
    ∀ respelled, asItems respelled = asItems definitions →
      ((∃ built, (build bindings store respelled).outcome = .value built) ↔
        ∃ built, (build bindings store definitions).outcome = .value built) ∧
      ∀ built, (build bindings store definitions).outcome = .value built →
        build bindings store respelled = build bindings store definitions := by
  constructor
  · intro grammar stage definition member
    have named : grammar.names = definitions.map (·.1) := by
      rcases stage with ⟨count, scope, reached, rfl⟩ | ⟨final, success⟩
      · exact names_of_underway reached
      · exact names_of_underway (build_outcome.mp success)
    obtain ⟨address, found⟩ := exists_find?_iff.mpr (named ▸ List.mem_map_of_mem member)
    exact ⟨address, item_of_find? found, member_eq_rule_iff found⟩
  · intro respelled same
    have agrees : (build bindings store definitions).Agrees (build bindings store respelled) := by
      have items := build_asItems bindings store respelled
      rw [same] at items
      exact (build_asItems bindings store definitions).trans items.symm
    exact ⟨agrees.answers_iff.symm, fun built success => agrees.eq_of_value success⟩

/-- Nested lists with some references changed, among them one to a rule that is defined later. -/
def respelledLists : List (String × Expression) :=
  [("Top", .rule "List" .item),
    ("List", .takeMid (.literal "[") (.sepBy (.rule "Item" .member) (.literal ",")) (.literal "]")),
    ("Item", .choice [.rule "Top" .member, .integer])]

/-- Nested lists are built alike, and each rule of theirs is found in both ways. -/
theorem nestedLists_respelled : ∃ final grammar address,
    (build .empty .empty nestedLists).outcome = .value (final, grammar) ∧
      build .empty .empty respelledLists = build .empty .empty nestedLists ∧
      grammar.item "Top" = .ok (.rule address) ∧ grammar.member "Top" = .ok (.rule address) := by
  obtain ⟨final, grammar, success⟩ :
      ∃ final grammar, (build .empty .empty nestedLists).outcome = .value (final, grammar) := ⟨_, _, rfl⟩
  obtain ⟨found, alike⟩ := members_interchange_with_items .empty .empty nestedLists
  obtain ⟨address, item, shown⟩ := found grammar (.inr ⟨final, success⟩) ("Top", .rule "List" .member)
    (List.mem_cons_self ..)
  exact ⟨final, grammar, address, success, (alike respelledLists rfl).2 _ success, item, shown.mpr (by decide)⟩

/-- A letter under every kind of name that is hidden. -/
def hiddenLetters : List (String × Expression) :=
  ["get", "keys", "items", "values", "_rules", "_abc_impl", "__x"].map fun name => (name, .literal "x")

/-- A rule that repeats the letters of a hidden one, which it refers to in a certain way. -/
def repeatedKeys (access : Access) : List (String × Expression) :=
  [("keys", .literal "x"), ("Word", .rule "keys" access)]

/-- Hidden rules are found as items and not as members, and the change of a reference to one of them makes the
construction of a grammar fail. -/
theorem hidden_rules_are_no_members :
    (∃ final grammar, (build .empty .empty hiddenLetters).outcome = .value (final, grammar) ∧
      ∀ rule ∈ grammar.rules, grammar.item rule.1 = .ok (.rule rule.2) ∧
        grammar.member rule.1 ≠ grammar.item rule.1) ∧
    (∃ built, (build .empty .empty (repeatedKeys .item)).outcome = .value built) ∧
    (build .empty .empty (repeatedKeys .member)).outcome = .fault (.invalidRule "Word" "method") := by
  refine ⟨⟨_, _, rfl, by decide⟩, ⟨_, rfl⟩, rfl⟩

end Grammar

end RecursiveDescent
