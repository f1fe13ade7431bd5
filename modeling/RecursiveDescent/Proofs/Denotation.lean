import RecursiveDescent.Proofs.Limits

/-! # What expressions stand for

An expression stands for a tree in a scope if its resolution answers with that tree. The relation is
determined by the children: there is one equivalence for each constructor, so that later proofs follow
the syntax of expressions and never open `Expression.resolve`.
-/

namespace RecursiveDescent

/-! ## Look-ups -/

namespace Grammar

/-- No rule of that name is found as a member: the grammar has a member of its own there, or the name is reserved. -/
def Hidden (name : String) : Prop :=
  name ∈ methodNames ∨ name = tableName ∨ name = registryName ∨ isReserved name = true

instance (name : String) : Decidable (Hidden name) :=
  inferInstanceAs (Decidable (name ∈ methodNames ∨ name = tableName ∨ name = registryName ∨ isReserved name = true))

variable {grammar : Grammar} {name : String}

/-- A name that is not hidden is looked up among the rules. -/
theorem member_of_shown (shown : ¬Hidden name) :
    grammar.member name =
      (grammar.find? name).elim (.error (.unknownRule name grammar.names)) fun address => .ok (.rule address) := by
  simp only [Hidden, not_or] at shown
  obtain ⟨noMethod, noTable, noRegistry, free⟩ := shown
  cases found : grammar.find? name <;>
    simp only [member, List.contains_iff_mem, if_neg noMethod, if_neg noTable, if_neg noRegistry, if_neg free, found,
      Option.elim]

/-- A hidden name is found as a member of another kind, or refused. -/
theorem member_of_hidden (hidden : Hidden name) (address : Address) : grammar.member name ≠ .ok (.rule address) := by
  intro found
  simp only [member, List.contains_iff_mem] at found
  split_ifs at found with isMethod isTable isRegistry reserved
  · cases found
  · cases found
  · cases found
  · rcases hidden with here | here | here | here
    · exact isMethod here
    · exact isTable here
    · exact isRegistry here
    · exact reserved here

/-- What belongs to one grammar itself belongs to every other one. -/
theorem access_of_own {access : Access} {member : Member} (found : grammar.access access name = .ok member)
    (own : ∀ address, member ≠ .rule address) (other : Grammar) : other.access access name = .ok member := by
  cases access with
  | member =>
    simp only [Grammar.access, Grammar.member] at found ⊢
    split_ifs at found ⊢
    · exact found
    · exact found
    · exact found
    · split at found <;> cases found
      exact (own _ rfl).elim
  | item =>
    simp only [Grammar.access, item] at found
    split at found <;> cases found
    exact (own _ rfl).elim

end Grammar

/-- A reference finds rules only, and nothing that belongs to the grammar itself. -/
def Access.FindsRules (access : Access) (name : String) : Prop := access = .member → ¬Grammar.Hidden name

instance (access : Access) (name : String) : Decidable (access.FindsRules name) :=
  inferInstanceAs (Decidable (access = .member → ¬Grammar.Hidden name))

theorem Access.FindsRules.exists_address {access : Access} {name : String} (finds : access.FindsRules name)
    {grammar : Grammar} {member : Member} (found : grammar.access access name = .ok member) :
    ∃ address, member = .rule address := by
  cases access with
  | member =>
    simp only [Grammar.access, Grammar.member_of_shown (finds rfl)] at found
    cases sought : grammar.find? name <;> rw [sought] at found <;> cases found
    exact ⟨_, rfl⟩
  | item =>
    simp only [Grammar.access, Grammar.item] at found
    split at found <;> cases found
    exact ⟨_, rfl⟩

/-! ## Trees -/

def Member.tree : Member → Parser
  | .rule address => .ref address
  | other => .foreign other.kind

/-- Neither a reference nor something that is no parser. -/
def Parser.IsNode : Parser → Prop
  | .ref _ | .foreign _ => False
  | _ => True

namespace Expression

/-- In a scope, an expression resolves to that tree. -/
def StandsFor (scope : Scope) (expression : Expression) (body : Parser) : Prop :=
  (expression.parser scope).outcome = .value body

variable {scope : Scope} {body : Parser}

theorem standsFor_iff_resolve {expression : Expression} :
    expression.StandsFor scope body ↔ ∃ resolved, (expression.resolve scope).outcome = .value resolved ∧
      body = resolved.tree := by
  simp only [StandsFor, parser, Run.bind_outcome, Run.pure_outcome, Outcome.value.injEq, @eq_comm _ body]

/-- A node that makes a new parser of its parts stands for what it makes of them. -/
theorem standsFor_of_resolve {α : Type} {expression : Expression} {parts : Run α} {name : α → Option String}
    {tree : α → Parser}
    (resolved : expression.resolve scope = parts >>= fun part => pure (.fresh (name part) (tree part))) :
    expression.StandsFor scope body ↔ ∃ part, parts.outcome = .value part ∧ body = tree part := by
  simp only [standsFor_iff_resolve, resolved, Run.bind_outcome, Run.pure_outcome, Outcome.value.injEq]
  constructor
  · rintro ⟨_, ⟨part, answered, rfl⟩, rfl⟩
    exact ⟨part, answered, rfl⟩
  · rintro ⟨part, answered, rfl⟩
    exact ⟨_, ⟨part, answered, rfl⟩, rfl⟩

theorem standsFor_of_pure {expression : Expression} {name : Option String} {tree : Parser}
    (resolved : expression.resolve scope = pure (.fresh name tree)) :
    expression.StandsFor scope body ↔ body = tree := by
  have whole : expression.resolve scope =
      (pure () : Run Unit) >>= fun _ => pure (.fresh name tree) := by rw [resolved, pure_bind]
  simp [standsFor_of_resolve whole]

/-! ## Leaves -/

@[simp] theorem standsFor_literal {expected : String} :
    (literal expected).StandsFor scope body ↔ body = .literal expected :=
  standsFor_of_pure rfl

@[simp] theorem standsFor_pattern {flags : PatternFlags} {text label : String} :
    (pattern flags text label).StandsFor scope body ↔
      ∃ tree, Pattern.compile? flags text = some tree ∧ body = .pattern tree label := by
  have resolved : (pattern flags text label).resolve scope =
      compile flags text >>= fun tree => pure (.fresh (some label) (.pattern tree label)) := rfl
  rw [standsFor_of_resolve resolved]
  cases compiled : Pattern.compile? flags text <;> simp [compile, compiled, Run.stop]

@[simp] theorem standsFor_nothing : nothing.StandsFor scope body ↔ body = .nothing :=
  standsFor_of_pure rfl

@[simp] theorem standsFor_whitespace : whitespace.StandsFor scope body ↔ body = .whitespace :=
  standsFor_of_pure rfl

@[simp] theorem standsFor_integer : integer.StandsFor scope body ↔ body = .integer :=
  standsFor_of_pure rfl

@[simp] theorem standsFor_float : float.StandsFor scope body ↔ body = .float :=
  standsFor_of_pure rfl

@[simp] theorem standsFor_fixed {name : Option String} {result : Result} :
    (fixed name result).StandsFor scope body ↔ body = .fixed result :=
  standsFor_of_pure rfl

@[simp] theorem standsFor_foreign {value : Value} :
    (foreign value).StandsFor scope body ↔ body = .foreign value.kind := by
  have resolved : (foreign value).resolve scope = pure (.foreign value.kind) := rfl
  simp [standsFor_iff_resolve, resolved, Resolved.tree]

@[simp] theorem standsFor_existing {target : Target} :
    (existing target).StandsFor scope body ↔
      ∃ address, scope.bindings.address target = .ok address ∧ body = .ref address := by
  have resolved : (existing target).resolve scope =
      Run.ofExcept (scope.bindings.address target) >>= fun address => pure (.existing address) := rfl
  simp [standsFor_iff_resolve, resolved, Resolved.tree]

@[simp] theorem standsFor_rule {name : String} {access : Access} :
    (rule name access).StandsFor scope body ↔
      ∃ member, scope.grammar.access access name = .ok member ∧ body = member.tree := by
  have resolved : (rule name access).resolve scope = scope.rule name access := rfl
  simp only [standsFor_iff_resolve, resolved, Scope.rule, Run.bind_outcome, Run.ofExcept_outcome]
  constructor
  · rintro ⟨_, ⟨member, found, answered⟩, rfl⟩
    cases member <;> cases answered <;> exact ⟨_, found, rfl⟩
  · rintro ⟨member, found, rfl⟩
    cases member <;> exact ⟨_, ⟨_, found, rfl⟩, rfl⟩

/-! ## Nodes -/

/-- The members of a list are resolved one by one. -/
theorem resolveAll_iff {children : List Expression} {trees : List Parser} :
    (resolveAll scope children).outcome = .value trees ↔ List.Forall₂ (StandsFor scope) children trees := by
  induction children generalizing trees with
  | nil =>
    have unfolded : resolveAll scope [] = pure [] := rfl
    simp [unfolded, eq_comm]
  | cons child rest ih =>
    have unfolded : resolveAll scope (child :: rest) =
        child.parser scope >>= fun tree => resolveAll scope rest >>= fun trees => pure (tree :: trees) := by
      simp only [parser, bind_assoc, pure_bind]
      rfl
    simp only [unfolded, Run.bind_outcome, ih, Run.pure_outcome, Outcome.value.injEq, List.forall₂_cons_left_iff]
    constructor
    · rintro ⟨tree, stands, others, stand, rfl⟩
      exact ⟨tree, others, stands, stand, rfl⟩
    · rintro ⟨tree, others, stands, stand, rfl⟩
      exact ⟨tree, stands, others, stand, rfl⟩

@[simp] theorem standsFor_sequence {children : List Expression} :
    (sequence children).StandsFor scope body ↔
      ∃ trees, List.Forall₂ (StandsFor scope) children trees ∧ trees ≠ [] ∧ body = .sequence trees := by
  have resolved : (sequence children).resolve scope =
      (resolveAll scope children >>= sequenceOf) >>= fun tree => pure (.fresh (some "sequence") tree) := by
    rw [bind_assoc]
    rfl
  simp only [standsFor_of_resolve resolved, Run.bind_outcome, resolveAll_iff]
  constructor
  · rintro ⟨_, ⟨trees, stand, made⟩, rfl⟩
    cases trees with
    | nil => cases made
    | cons first rest => cases made; exact ⟨_, stand, List.cons_ne_nil _ _, rfl⟩
  · rintro ⟨trees, stand, some, rfl⟩
    cases trees with
    | nil => exact (some rfl).elim
    | cons first rest => exact ⟨_, ⟨_, stand, rfl⟩, rfl⟩

@[simp] theorem standsFor_choice {children : List Expression} :
    (choice children).StandsFor scope body ↔
      ∃ first rest, List.Forall₂ (StandsFor scope) children (first :: rest) ∧ body = .choice first rest := by
  have resolved : (choice children).resolve scope =
      (resolveAll scope children >>= choiceOf) >>= fun tree => pure (.fresh (some "choice") tree) := by
    rw [bind_assoc]
    rfl
  simp only [standsFor_of_resolve resolved, Run.bind_outcome, resolveAll_iff]
  constructor
  · rintro ⟨_, ⟨trees, stand, made⟩, rfl⟩
    cases trees with
    | nil => cases made
    | cons first rest => cases made; exact ⟨first, rest, stand, rfl⟩
  · rintro ⟨first, rest, stand, rfl⟩
    exact ⟨_, ⟨_, stand, rfl⟩, rfl⟩

@[simp] theorem standsFor_many {child : Expression} :
    (many child).StandsFor scope body ↔ ∃ tree, child.StandsFor scope tree ∧ body = .many tree := by
  have resolved : (many child).resolve scope =
      child.parser scope >>= fun tree => pure (.fresh (some "many") (.many tree)) := by
    simp only [parser, bind_assoc, pure_bind]
    rfl
  exact standsFor_of_resolve resolved

@[simp] theorem standsFor_optional {child : Expression} :
    (optional child).StandsFor scope body ↔ ∃ tree, child.StandsFor scope tree ∧ body = .optional tree := by
  have resolved : (optional child).resolve scope =
      child.parser scope >>= fun tree => pure (.fresh (some "choice") (.optional tree)) := by
    simp only [parser, bind_assoc, pure_bind]
    rfl
  exact standsFor_of_resolve resolved

@[simp] theorem standsFor_observed {name : Option String} {observer : String} {child : Expression} :
    (observed name observer child).StandsFor scope body ↔
      ∃ tree, child.StandsFor scope tree ∧ body = .observed observer tree := by
  have resolved : (observed name observer child).resolve scope =
      child.parser scope >>= fun tree => pure (.fresh name (.observed observer tree)) := by
    simp only [parser, bind_assoc, pure_bind]
    rfl
  exact standsFor_of_resolve resolved

@[simp] theorem standsFor_sepBy {item separator : Expression} :
    (sepBy item separator).StandsFor scope body ↔
      ∃ first second, item.StandsFor scope first ∧ separator.StandsFor scope second ∧
        body = .sepBy first second := by
  have resolved : (sepBy item separator).resolve scope =
      (do return (← item.parser scope, ← separator.parser scope)) >>= fun parts =>
        pure (.fresh (some "sep_by") (.sepBy parts.1 parts.2)) := by
    simp only [parser, bind_assoc, pure_bind]
    rfl
  rw [standsFor_of_resolve resolved]
  simp [StandsFor]

@[simp] theorem standsFor_takeMid {opening child closing : Expression} :
    (takeMid opening child closing).StandsFor scope body ↔
      ∃ first second third, opening.StandsFor scope first ∧ child.StandsFor scope second ∧
        closing.StandsFor scope third ∧ body = .takeMid first second third := by
  have resolved : (takeMid opening child closing).resolve scope =
      (do return (← opening.parser scope, ← child.parser scope, ← closing.parser scope)) >>= fun parts =>
        pure (.fresh (some "sequence") (.takeMid parts.1 parts.2.1 parts.2.2)) := by
    simp only [parser, bind_assoc, pure_bind]
    rfl
  rw [standsFor_of_resolve resolved]
  simp [StandsFor, and_assoc]

/-- After an early parse that answers, an expression stands for what comes next. -/
theorem standsFor_early {name : String} {access : Access} {source : Source} {pos : Int} {next : Expression} :
    (early name access source pos next).StandsFor scope body ↔
      (scope.parseEarly name access source pos).outcome = .value () ∧ next.StandsFor scope body := by
  have unfolded : (early name access source pos next).parser scope =
      scope.parseEarly name access source pos >>= fun _ => next.parser scope := by
    simp only [parser, ← bind_assoc]
    rfl
  simp only [StandsFor, unfolded, Run.bind_outcome]
  constructor
  · rintro ⟨_, parsed, stands⟩
    exact ⟨parsed, stands⟩
  · rintro ⟨parsed, stands⟩
    exact ⟨(), parsed, stands⟩

/-! ## What has a name -/

/-- The tree of a map, whatever its child turns out to be. -/
theorem standsFor_map_only {child : Expression} {action : Action} (stands : (map child action).StandsFor scope body) :
    ∃ resolved name, (child.resolve scope).outcome = .value resolved ∧
      (scope.nameOf resolved).outcome = .value name ∧ body = .map resolved.tree action := by
  have resolved : (map child action).resolve scope =
      (do
        let resolved ← child.resolve scope
        return (← scope.nameOf resolved, resolved.tree)) >>= fun used => pure (.fresh used.1 (.map used.2 action)) := by
    simp only [bind_assoc, pure_bind]
    rfl
  obtain ⟨_, answered, rfl⟩ := (standsFor_of_resolve resolved).mp stands
  obtain ⟨found, child, named⟩ := Run.bind_outcome.mp answered
  obtain ⟨name, answers, same⟩ := Run.bind_outcome.mp named
  cases same
  exact ⟨found, name, child, answers, rfl⟩

/-- A new parser is a leaf or a combinator. -/
theorem fresh_isNode {expression : Expression} {name : Option String}
    (made : (expression.resolve scope).outcome = .value (.fresh name body)) : body.IsNode := by
  have stands : expression.StandsFor scope body := standsFor_iff_resolve.mpr ⟨_, made, rfl⟩
  cases body with
  | ref _ | foreign _ =>
    induction expression with
    | map child action =>
      obtain ⟨_, _, _, _, same⟩ := standsFor_map_only stands
      cases same
    | existing target =>
      obtain ⟨_, _, made⟩ := Run.bind_outcome.mp made
      cases made
    | rule name access =>
      obtain ⟨member, _, made⟩ := Run.bind_outcome.mp made
      cases member <;> cases made
    | early name access source pos next ih =>
      obtain ⟨_, _, made⟩ := Run.bind_outcome.mp made
      exact ih made (standsFor_early.mp stands).2
    | foreign value => cases made
    | _ => simp [Parser.whitespace, Parser.optional, Parser.takeMid] at stands
  | _ => trivial

/-- A map needs a child that is a parser, for its name. -/
@[simp] theorem standsFor_map {child : Expression} {action : Action} :
    (map child action).StandsFor scope body ↔
      ∃ tree, child.StandsFor scope tree ∧ (∀ kind, tree ≠ .foreign kind) ∧ body = .map tree action := by
  constructor
  · intro stands
    obtain ⟨resolved, name, answered, named, rfl⟩ := standsFor_map_only stands
    refine ⟨_, standsFor_iff_resolve.mpr ⟨_, answered, rfl⟩, fun kind => ?_, rfl⟩
    cases resolved with
    | existing address => exact nofun
    | fresh label tree => rintro rfl; exact fresh_isNode answered
    | foreign other => cases named
  · rintro ⟨tree, stands, parser, rfl⟩
    obtain ⟨resolved, answered, rfl⟩ := standsFor_iff_resolve.mp stands
    refine standsFor_iff_resolve.mpr ?_
    obtain ⟨name, named⟩ : ∃ name, (scope.nameOf resolved).outcome = .value name := by
      cases resolved with
      | existing address => exact ⟨_, rfl⟩
      | fresh label tree => exact ⟨_, rfl⟩
      | foreign kind => exact (parser kind rfl).elim
    exact ⟨_, Run.bind_outcome.mpr ⟨_, answered, Run.bind_outcome.mpr ⟨name, named, rfl⟩⟩, rfl⟩

end Expression

end RecursiveDescent
