import RecursiveDescent.Proofs.Standard

/-! # Parts of parsers and of expressions

Parsers and expressions are trees, and many conditions on them speak of every node. A condition on single
nodes is all that has to be defined then: `Tree.Every` asks it of a whole tree. A parser is confined if its
nodes apply actions of one kind only, refer to known parsers, and refuse calls with faults of one kind only;
trees that expressions stand for are confined, with no rule pending.
-/

namespace RecursiveDescent

/-- A fault is no use of a rule that is not installed, or that of a pending rule. -/
def Fault.Waits (pending : String → Prop) (cause : Fault) : Prop := ∀ rule, cause = .unpatchedRule rule → pending rule

theorem Fault.Waits.mono {pending later : String → Prop} (still : ∀ rule, pending rule → later rule) (cause : Fault)
    (waits : cause.Waits pending) : cause.Waits later :=
  fun rule same => still rule (waits rule same)

/-! ## Trees, given by the children of each node -/

namespace Tree

variable {α : Type} {children : α → List α} {holds more : α → Prop} {whole : α}

/-- One tree occurs within another, or is the same. -/
inductive Part (children : α → List α) (part : α) : α → Prop
  | whole : Part children part part
  | within {child whole : α} (member : child ∈ children whole) (inner : Part children part child) :
      Part children part whole

def Every (children : α → List α) (holds : α → Prop) (whole : α) : Prop :=
  ∀ part, Part children part whole → holds part

theorem Every.here (every : Every children holds whole) : holds whole := every whole .whole

theorem Every.child {child : α} (every : Every children holds whole) (member : child ∈ children whole) :
    Every children holds child :=
  fun part inner => every part (.within member inner)

/-- A property holds of every part if it holds of the whole and of every part of each child. -/
theorem every_of_children (here : holds whole) (below : ∀ child ∈ children whole, Every children holds child) :
    Every children holds whole := by
  intro part within
  cases within with
  | whole => exact here
  | within member inner => exact below _ member part inner

theorem Every.imp (le : ∀ part, holds part → more part) (every : Every children holds whole) :
    Every children more whole :=
  fun part within => le part (every part within)

end Tree

namespace Parser

def children : Parser → List Parser
  | .map child _ | .many child | .observed _ child => [child]
  | .sequence children => children
  | .choice first rest => first :: rest
  | .sepBy item separator => [item, separator]
  | _ => []

/-- The parsers of a store that a node refers to are known, its action is of a kind, and so is the fault with
which it refuses every call. -/
def Allowed (actions : Action → Prop) (known : Address → Prop) (refusals : Fault → Prop) : Parser → Prop
  | .map _ action => actions action
  | .ref address => known address
  | .unpatched rule => refusals (.unpatchedRule rule)
  | .foreign kind => refusals (.notAParser kind "parse")
  | _ => True

abbrev Confined (actions : Action → Prop) (known : Address → Prop) (refusals : Fault → Prop) : Parser → Prop :=
  Tree.Every children (Allowed actions known refusals)

/-- Nothing is asked of a parser. -/
theorem confined_all (parser : Parser) : parser.Confined (fun _ => True) (fun _ => True) fun _ => True := by
  intro part _
  cases part <;> trivial

variable {actions : Action → Prop} {known more : Address → Prop} {refusals later : Fault → Prop}

theorem Allowed.mono (le : ∀ address, known address → more address) (still : ∀ cause, refusals cause → later cause)
    {parser : Parser} (allowed : parser.Allowed actions known refusals) : parser.Allowed actions more later := by
  cases parser with
  | ref address => exact le address allowed
  | unpatched rule => exact still _ allowed
  | foreign kind => exact still _ allowed
  | _ => exact allowed

theorem Confined.mono (le : ∀ address, known address → more address) (still : ∀ cause, refusals cause → later cause)
    {parser : Parser} (confined : parser.Confined actions known refusals) : parser.Confined actions more later :=
  confined.imp fun _ => Allowed.mono le still

end Parser

namespace Expression

def children : Expression → List Expression
  | .map child _ | .many child | .optional child | .observed _ _ child | .early _ _ _ _ child => [child]
  | .sequence children | .choice children => children
  | .sepBy item separator => [item, separator]
  | .takeMid opening child closing => [opening, child, closing]
  | _ => []

/-- What holds of every expression if it holds of its children holds of all expressions. -/
theorem of_children {motive : Expression → Prop}
    (step : ∀ whole, (∀ child ∈ whole.children, motive child) → motive whole) (expression : Expression) :
    motive expression := by
  induction expression with
  | literal _ | pattern _ _ _ | nothing | whitespace | integer | float | fixed _ _ | existing _ | rule _ _
  | foreign _ =>
    exact step _ (List.forall_mem_nil _)
  | map _ _ ih | many _ ih | optional _ ih | observed _ _ _ ih | early _ _ _ _ _ ih =>
    exact step _ (List.forall_mem_singleton.mpr ih)
  | sequence _ ih | choice _ ih => exact step _ ih
  | sepBy _ _ ihItem ihSeparator =>
    exact step _ (List.forall_mem_cons.mpr ⟨ihItem, List.forall_mem_singleton.mpr ihSeparator⟩)
  | takeMid _ _ _ ihOpening ihChild ihClosing =>
    exact step _ (List.forall_mem_cons.mpr
      ⟨ihOpening, List.forall_mem_cons.mpr ⟨ihChild, List.forall_mem_singleton.mpr ihClosing⟩⟩)

/-- The action of a node, if it has one, is of a kind. -/
def Allowed (actions : Action → Prop) : Expression → Prop
  | .map _ action => actions action
  | _ => True

abbrev Applies (actions : Action → Prop) : Expression → Prop := Tree.Every children (Allowed actions)

/-- An expression asks for no parse while the grammar is under construction. -/
abbrev Quiet : Expression → Prop := Tree.Every children fun part =>
  ∀ name access source pos next, part ≠ .early name access source pos next

theorem applies_all (expression : Expression) : expression.Applies fun _ => True := by
  intro part _
  cases part <;> trivial

variable {scope : Scope} {actions : Action → Prop} {known : Address → Prop}

/-- Whatever a node of an expression makes in a scope, of whichever parts, has a property. -/
def Makes (scope : Scope) (holds : Parser → Prop) : Expression → Prop
  | .literal expected => holds (.literal expected)
  | .pattern flags text label => ∀ tree, Pattern.compile? flags text = some tree → holds (.pattern tree label)
  | .nothing => holds .nothing
  | .whitespace => holds .whitespace
  | .integer => holds .integer
  | .float => holds .float
  | .map _ action => ∀ child, holds (.map child action)
  | .sequence _ => ∀ children, holds (.sequence children)
  | .choice _ => ∀ first rest, holds (.choice first rest)
  | .many _ => ∀ child, holds (.many child)
  | .optional _ => holds .nothing ∧ ∀ child, holds (.optional child)
  | .sepBy _ _ => ∀ item separator, holds (.sepBy item separator)
  | .takeMid _ _ _ => ∀ opening child closing,
      holds (.sequence [opening, child, closing]) ∧ holds (.takeMid opening child closing)
  | .fixed _ result => holds (.fixed result)
  | .observed _ observer _ => ∀ child, holds (.observed observer child)
  | .existing target => ∀ address, scope.bindings.address target = .ok address → holds (.ref address)
  | .rule name access => ∀ member, scope.grammar.access access name = .ok member → holds member.tree
  | .early _ _ _ _ _ => True
  | .foreign value => holds (.foreign value.kind)

/-- If what each node of an expression makes has a property, so has every part of the tree that it stands for. -/
theorem StandsFor.every {holds : Parser → Prop} {expression : Expression} {body : Parser}
    (stands : expression.StandsFor scope body) (makes : Tree.Every children (Makes scope holds) expression) :
    Tree.Every Parser.children holds body := by
  let Inner (expression : Expression) : Prop := ∀ {tree : Parser}, expression.StandsFor scope tree →
    Tree.Every children (Makes scope holds) expression → Tree.Every Parser.children holds tree
  have all {whole : Expression} {trees : List Parser} (makes : Tree.Every children (Makes scope holds) whole)
      (stand : List.Forall₂ (StandsFor scope) whole.children trees) (inner : ∀ child ∈ whole.children, Inner child)
      (tree : Parser) (member : tree ∈ trees) : Tree.Every Parser.children holds tree := by
    obtain ⟨child, among, stands⟩ := exists_of_mem_right stand member
    exact inner child among stands (makes.child among)
  induction expression generalizing body with
  | literal _ | nothing | whitespace | integer | float | fixed _ _ =>
    obtain rfl := standsFor_of_pure rfl |>.mp stands
    exact Tree.every_of_children makes.here (List.forall_mem_nil _)
  | pattern flags text label =>
    obtain ⟨tree, compiled, rfl⟩ := standsFor_pattern.mp stands
    exact Tree.every_of_children (makes.here tree compiled) (List.forall_mem_nil _)
  | map child action ih =>
    obtain ⟨tree, child, _, rfl⟩ := standsFor_map.mp stands
    exact Tree.every_of_children (makes.here _) (all makes (.cons child .nil) (List.forall_mem_singleton.mpr ih))
  | sequence children ih =>
    obtain ⟨trees, stand, _, rfl⟩ := standsFor_sequence.mp stands
    exact Tree.every_of_children (makes.here _) (all makes stand ih)
  | choice children ih =>
    obtain ⟨first, rest, stand, rfl⟩ := standsFor_choice.mp stands
    exact Tree.every_of_children (makes.here _ _) (all makes stand ih)
  | many child ih =>
    obtain ⟨tree, child, rfl⟩ := standsFor_many.mp stands
    exact Tree.every_of_children (makes.here _) (all makes (.cons child .nil) (List.forall_mem_singleton.mpr ih))
  | observed name observer child ih =>
    obtain ⟨tree, child, rfl⟩ := standsFor_observed.mp stands
    exact Tree.every_of_children (makes.here _) (all makes (.cons child .nil) (List.forall_mem_singleton.mpr ih))
  | optional child ih =>
    obtain ⟨tree, child, rfl⟩ := standsFor_optional.mp stands
    have empty : Tree.Every Parser.children holds .nothing :=
      Tree.every_of_children makes.here.1 (List.forall_mem_nil _)
    exact Tree.every_of_children (makes.here.2 tree) (List.forall_mem_cons.mpr
      ⟨ih child (makes.child (List.mem_singleton_self _)), List.forall_mem_singleton.mpr empty⟩)
  | sepBy item separator ihItem ihSeparator =>
    obtain ⟨first, second, item, separator, rfl⟩ := standsFor_sepBy.mp stands
    exact Tree.every_of_children (makes.here _ _) (all makes (.cons item (.cons separator .nil))
      (List.forall_mem_cons.mpr ⟨ihItem, List.forall_mem_singleton.mpr ihSeparator⟩))
  | takeMid opening child closing ihOpening ihChild ihClosing =>
    obtain ⟨first, second, third, opening, child, closing, rfl⟩ := standsFor_takeMid.mp stands
    obtain ⟨inner, outer⟩ := makes.here first second third
    have three : Tree.Every Parser.children holds (.sequence [first, second, third]) :=
      Tree.every_of_children inner (all makes (.cons opening (.cons child (.cons closing .nil)))
        (List.forall_mem_cons.mpr ⟨ihOpening, List.forall_mem_cons.mpr ⟨ihChild,
          List.forall_mem_singleton.mpr ihClosing⟩⟩))
    exact Tree.every_of_children outer (List.forall_mem_singleton.mpr three)
  | existing target =>
    obtain ⟨address, found, rfl⟩ := standsFor_existing.mp stands
    exact Tree.every_of_children (makes.here address found) (List.forall_mem_nil _)
  | rule name access =>
    obtain ⟨member, found, rfl⟩ := standsFor_rule.mp stands
    refine Tree.every_of_children (makes.here member found) ?_
    cases member <;> exact List.forall_mem_nil _
  | early name access source pos next ih =>
    exact ih (standsFor_early.mp stands).2 (makes.child (List.mem_singleton_self _))
  | foreign value =>
    obtain rfl := standsFor_foreign.mp stands
    exact Tree.every_of_children makes.here (List.forall_mem_nil _)

/-- The tree that an expression stands for is confined to what the expression applies, to the parsers that are
bound, and to the rules of the grammar. It has no placeholders of its own. -/
theorem StandsFor.confined {expression : Expression} {body : Parser} (stands : expression.StandsFor scope body)
    (applies : expression.Applies actions) (middle : actions Matcher.middle)
    (bound : ∀ target address, scope.bindings.address target = .ok address → known address)
    (rules : ∀ address, scope.grammar.owns address = true → known address) :
    body.Confined actions known (Fault.Waits fun _ => False) := by
  have foreign (kind : String) : (Parser.foreign kind).Allowed actions known (Fault.Waits fun _ => False) := nofun
  have makes (part : Expression) (allowed : part.Allowed actions) :
      part.Makes scope (Parser.Allowed actions known (Fault.Waits fun _ => False)) := by
    cases part with
    | map child action => exact fun _ => allowed
    | takeMid opening child closing => exact fun _ _ _ => ⟨trivial, middle⟩
    | optional child => exact ⟨trivial, fun _ => trivial⟩
    | existing target => exact bound target
    | rule name access =>
      intro member found
      cases member with
      | rule address => exact rules address (Grammar.owns_of_access found)
      | method | table | registry => exact foreign _
    | foreign value => exact foreign _
    | pattern flags text label => exact fun _ _ => trivial
    | sequence _ | many _ | observed _ _ _ => exact fun _ => trivial
    | choice _ | sepBy _ _ => exact fun _ _ => trivial
    | _ => trivial
  exact stands.every (applies.imp makes)

end Expression

/-- The definitions of nested lists apply no actions and ask for no early parse. -/
theorem Grammar.nestedLists_plain {actions : Action → Prop} :
    ∀ {definition : String × Expression}, definition ∈ nestedLists →
    definition.2.Applies actions ∧ definition.2.Quiet := by
  let plain (part : Expression) : Prop :=
    part.Allowed actions ∧ ∀ name access source pos next, part ≠ .early name access source pos next
  have leaf {part : Expression} (here : plain part) (none : part.children = []) :
      Tree.Every Expression.children plain part :=
    Tree.every_of_children here (none ▸ List.forall_mem_nil _)
  have rule (name : String) (access : Access) : Tree.Every Expression.children plain (.rule name access) :=
    leaf ⟨trivial, nofun⟩ rfl
  have literal (text : String) : Tree.Every Expression.children plain (.literal text) := leaf ⟨trivial, nofun⟩ rfl
  have two {first second : Expression} (here : Tree.Every Expression.children plain first)
      (there : Tree.Every Expression.children plain second) :
      ∀ child ∈ [first, second], Tree.Every Expression.children plain child :=
    List.forall_mem_cons.mpr ⟨here, List.forall_mem_singleton.mpr there⟩
  have items : Tree.Every Expression.children plain (.sepBy (.rule "Item" .member) (.literal ",")) :=
    Tree.every_of_children ⟨trivial, nofun⟩ (two (rule _ _) (literal _))
  have list : Tree.Every Expression.children plain (.takeMid (.literal "[") _ (.literal "]")) :=
    Tree.every_of_children ⟨trivial, nofun⟩ (List.forall_mem_cons.mpr ⟨literal _, two items (literal _)⟩)
  have item : Tree.Every Expression.children plain (.choice [.rule "Top" .item, .integer]) :=
    Tree.every_of_children ⟨trivial, nofun⟩ (two (rule _ _) (leaf ⟨trivial, nofun⟩ rfl))
  have every : ∀ definition ∈ nestedLists, Tree.Every Expression.children plain definition.2 :=
    List.forall_mem_cons.mpr ⟨rule _ _, List.forall_mem_cons.mpr ⟨list, List.forall_mem_singleton.mpr item⟩⟩
  intro definition member
  exact ⟨(every definition member).imp fun _ => And.left, (every definition member).imp fun _ => And.right⟩

/-! ## Stores -/

def Store.mapBodies (store : Store) (change : Parser → Parser) : Store :=
  { store with cells := store.cells.map fun cell =>
      { cell with behaviour := { cell.behaviour with body := change cell.behaviour.body } } }

@[simp] theorem Store.mapBodies_body? (store : Store) (change : Parser → Parser) (address : Address) :
    (store.mapBodies change).body? address = (store.body? address).map change := by
  simp only [body?, mapBodies, Array.getElem?_map, Option.map_map]
  rfl

def Store.Confined (store : Store) (actions : Action → Prop) (known : Address → Prop) (refusals : Fault → Prop) :
    Prop :=
  ∀ address body, known address → store.body? address = some body → body.Confined actions known refusals

/-- The actions in a store are of a kind, all references in it lead to stored parsers, and only pending rules
have placeholders. -/
abbrev Store.Closed (store : Store) (actions : Action → Prop) (pending : String → Prop) : Prop :=
  store.Confined actions (· < store.cells.size) (Fault.Waits pending)

/-- A rule is due while a definition is resolved: it is the rule of that definition, or of a later one. -/
def Grammar.Due (definitions : List (String × Expression)) (count : Nat) (rule : String) : Prop :=
  ∃ index, count ≤ index ∧ (definitions.map (·.1))[index]? = some rule

/-- While a grammar is under construction, no placeholders are left but those of the rules whose definitions
have not been installed yet. -/
theorem Grammar.Underway.closed {bindings : Bindings} {store : Store} {definitions : List (String × Expression)}
    {count : Nat} {scope : Scope} (underway : Underway bindings store definitions count scope)
    (within : bindings.Within store) {actions : Action → Prop} (middle : actions Matcher.middle)
    (before : store.Closed actions fun _ => False)
    (applies : ∀ definition ∈ definitions, definition.2.Applies actions) :
    scope.store.Closed actions (Due definitions count) := by
  have grown : store.cells.size ≤ scope.store.cells.size := underway.size_eq ▸ Nat.le_add_right _ _
  have old {address : Address} {body : Parser} (inside : address < store.cells.size)
      (stored : scope.store.body? address = some body) :
      body.Confined actions (· < scope.store.cells.size) (Fault.Waits (Due definitions count)) :=
    (before address body inside (underway.kept address inside ▸ stored)).mono
      (fun _ inside => Nat.lt_of_lt_of_le inside grown) (Fault.Waits.mono fun _ => False.elim)
  intro address body inside stored
  rcases Nat.lt_or_ge address store.cells.size with earlier | added
  · exact old earlier stored
  obtain ⟨index, rfl⟩ := Nat.exists_eq_add_of_le added
  have among : index < definitions.length := Nat.lt_of_add_lt_add_left (underway.size_eq ▸ inside)
  have here := List.getElem?_eq_getElem among
  rcases Nat.lt_or_ge index count with done | waits
  · obtain ⟨tree, made, stands, installed, there⟩ := underway.installed done here
    obtain rfl := Option.some.inj (there.symm.trans stored)
    have confined : tree.Confined actions (· < scope.store.cells.size) (Fault.Waits (Due definitions count)) :=
      (stands.confined (applies _ (List.getElem_mem among)) middle (underway.within within)
        fun other owned => (underway.owns_iff.mp owned).2).mono (fun _ => id)
        (Fault.Waits.mono fun _ => False.elim)
    cases tree with
    | ref other =>
      simp only [Scope.installed?] at installed
      split at installed
      · cases installed; exact confined
      · next outside =>
        have earlier : other < store.cells.size := by
          by_contra after
          exact outside (underway.owns_iff.mpr ⟨Nat.not_lt.mp after, Store.body?_of_lt installed⟩)
        exact old earlier installed
    | foreign kind => cases installed
    | _ => cases installed; exact confined
  · obtain rfl := Option.some.inj ((underway.waiting waits here).symm.trans stored)
    refine Tree.every_of_children ?_ (List.forall_mem_nil _)
    rintro _ ⟨⟩
    exact ⟨index, waits, by rw [List.getElem?_map, here]; rfl⟩

end RecursiveDescent
