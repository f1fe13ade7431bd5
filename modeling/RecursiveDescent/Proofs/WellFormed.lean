import RecursiveDescent.Proofs.Access
import RecursiveDescent.Proofs.Parts
import RecursiveDescent.Proofs.RunProperties

/-! # Well-formed definitions

Whether definitions make a grammar can be told from them and from the names of the rules. An expression is put
together from left to right, each part after its own parts. The first part that offends stops the construction with
its fault; if there is none, the expression stands for a parser. Definitions are taken in their order, so the first
one with a defect decides, and what comes after it has no influence.
-/

namespace RecursiveDescent

/-! ## Runs that are decided beforehand -/

namespace Run

variable {α β : Type} {accepts : α → Prop} {permits : β → Prop} {run : Run α} {next : α → Run β}
  {first second cause? : Option Fault}

/-- A run stops with a fault that is known beforehand or, if there is none, gives an answer. No events occur. -/
def Decided (accepts : α → Prop) (cause? : Option Fault) (run : Run α) : Prop :=
  match cause? with
  | some cause => run = stop cause
  | none => ∃ answer, accepts answer ∧ run = pure answer

theorem Decided.bind (decided : run.Decided accepts first)
    (continued : ∀ answer, accepts answer → (next answer).Decided permits second) :
    (run >>= next).Decided permits (first.or second) := by
  cases first with
  | some cause =>
    obtain rfl : run = stop cause := decided
    exact stop_bind cause next
  | none =>
    obtain ⟨answer, accepted, rfl⟩ := decided
    rw [pure_bind, Option.none_or]
    exact continued answer accepted

/-- Nothing but the first run can fail. -/
theorem Decided.bind_answer (decided : run.Decided accepts cause?)
    (answers : ∀ answer, accepts answer → (next answer).Decided permits none) :
    (run >>= next).Decided permits cause? := by
  simpa only [Option.or_none] using decided.bind answers

/-- The first run cannot fail. -/
theorem Decided.answer_bind (answers : run.Decided accepts none)
    (continued : ∀ answer, accepts answer → (next answer).Decided permits cause?) :
    (run >>= next).Decided permits cause? :=
  answers.bind continued

end Run

/-! ## The parts of an expression, in order -/

namespace Expression

mutual

/-- The parts of an expression as they are put together: from left to right, each after its own parts. -/
def inOrder : Expression → List Expression
  | .map child action => child.inOrder ++ [.map child action]
  | .sequence children => allInOrder children ++ [.sequence children]
  | .choice children => allInOrder children ++ [.choice children]
  | .many child => child.inOrder ++ [.many child]
  | .optional child => child.inOrder ++ [.optional child]
  | .sepBy item separator => item.inOrder ++ separator.inOrder ++ [.sepBy item separator]
  | .takeMid opening child closing =>
      opening.inOrder ++ child.inOrder ++ closing.inOrder ++ [.takeMid opening child closing]
  | .observed name observer child => child.inOrder ++ [.observed name observer child]
  | .early name access source pos next => next.inOrder ++ [.early name access source pos next]
  | leaf => [leaf]

def allInOrder : List Expression → List Expression
  | [] => []
  | child :: rest => child.inOrder ++ allInOrder rest

end

theorem allInOrder_eq_flatMap (children : List Expression) : allInOrder children = children.flatMap inOrder := by
  induction children with
  | nil => rfl
  | cons child rest ih => rw [allInOrder, ih, List.flatMap_cons]

/-- The parts of the children come first, and the whole comes last. -/
theorem inOrder_eq (expression : Expression) :
    expression.inOrder = expression.children.flatMap inOrder ++ [expression] := by
  cases expression <;> simp [inOrder, children, allInOrder_eq_flatMap]

theorem mem_inOrder {part whole : Expression} : part ∈ whole.inOrder ↔ Tree.Part children part whole := by
  constructor
  · induction whole using of_children with
    | step whole ih =>
      intro member
      rw [inOrder_eq, List.mem_append, List.mem_flatMap, List.mem_singleton] at member
      rcases member with ⟨child, among, within⟩ | rfl
      · exact .within among (ih child among within)
      · exact .whole
  · intro within
    induction within with
    | whole =>
      rw [inOrder_eq]
      exact List.mem_append_right _ (List.mem_singleton_self _)
    | within among _ ih =>
      rw [inOrder_eq]
      exact List.mem_append_left _ (List.mem_flatMap.mpr ⟨_, among, ih⟩)

theorem every_iff_inOrder {holds : Expression → Prop} {whole : Expression} :
    Tree.Every children holds whole ↔ ∀ part ∈ whole.inOrder, holds part := by
  simp only [mem_inOrder, Tree.Every]

end Expression

/-! ## Offences -/

/-- What is found first in a list is found at its head or, failing that, in the rest. -/
theorem findSome?_cons_eq_or {α β : Type} (f : α → Option β) (first : α) (rest : List α) :
    (first :: rest).findSome? f = (f first).or (rest.findSome? f) := by
  rw [← List.singleton_append, List.findSome?_append, List.findSome?_singleton]

/-- The fault of a look-up that finds no rule of a name among those that there are. -/
def Access.missing (names : List String) (name : String) : Access → Fault
  | .member => .unknownRule name names
  | .item => .missingKey name

namespace Expression

variable {bindings : Bindings} {names : List String} {scope : Scope}

/-- The fault that a part is to blame for, when its own parts are all right. -/
def offence? (bindings : Bindings) (names : List String) : Expression → Option Fault
  | .pattern flags text _ => if (Pattern.compile? flags text).isSome then none else some .malformedPattern
  | .sequence [] => some (.emptyCombinator "sequence")
  | .choice [] => some (.emptyCombinator "choice")
  | .rule name access => if name ∈ names then none else some (access.missing names name)
  | .existing target =>
      match bindings.address target with
      | .ok _ => none
      | .error cause => some cause
  | _ => none

def firstOffence? (bindings : Bindings) (names : List String) (expression : Expression) : Option Fault :=
  expression.inOrder.findSome? (offence? bindings names)

/-- A part does not offend: its pattern compiles, it has a child if it needs one, and the rule or the parser that
it refers to exists. -/
def Acceptable (bindings : Bindings) (names : List String) : Expression → Prop
  | .pattern flags text _ => ∃ tree, Pattern.compile? flags text = some tree
  | .sequence children | .choice children => children ≠ []
  | .rule name _ => name ∈ names
  | .existing target => ∃ address, bindings.address target = .ok address
  | _ => True

theorem offence?_eq_none_iff {part : Expression} :
    part.offence? bindings names = none ↔ part.Acceptable bindings names := by
  cases part with
  | pattern flags text label => simp [offence?, Acceptable, Option.isSome_iff_exists]
  | sequence children => cases children <;> simp [offence?, Acceptable]
  | choice children => cases children <;> simp [offence?, Acceptable]
  | rule name access => simp [offence?, Acceptable]
  | existing target => cases found : bindings.address target <;> simp [offence?, Acceptable, found]
  | _ => simp [offence?, Acceptable]

/-- No offence is the use of a rule that is not installed. -/
theorem other_of_offence? {part : Expression} {cause : Fault} (offends : part.offence? bindings names = some cause) :
    cause.Other := by
  cases part with
  | pattern flags text label =>
    simp only [offence?] at offends
    split at offends
    all_goals cases offends
    simp
  | sequence children | choice children =>
    cases children
    all_goals cases offends
    simp
  | rule name access =>
    simp only [offence?] at offends
    split at offends
    all_goals cases offends
    cases access <;> simp [Access.missing]
  | existing target =>
    simp only [offence?] at offends
    split at offends
    · cases offends
    · next failed =>
      cases offends
      exact Bindings.other_of_address failed
  | _ => cases offends

theorem firstOffence?_eq_none_iff {expression : Expression} :
    expression.firstOffence? bindings names = none ↔ Tree.Every children (Acceptable bindings names) expression := by
  simp only [firstOffence?, List.findSome?_eq_none_iff, offence?_eq_none_iff, every_iff_inOrder]

/-- The first offence is that of the first child with an offence, if there is one, or else that of the whole. -/
theorem firstOffence?_eq (whole : Expression) :
    whole.firstOffence? bindings names =
      (whole.children.findSome? (firstOffence? bindings names)).or (whole.offence? bindings names) := by
  have each (children : List Expression) : (children.flatMap inOrder).findSome? (offence? bindings names) =
      children.findSome? (firstOffence? bindings names) := by
    induction children with
    | nil => rfl
    | cons child rest ih =>
      rw [List.flatMap_cons, List.findSome?_append, ih, findSome?_cons_eq_or, firstOffence?]
  rw [firstOffence?, inOrder_eq, List.findSome?_append, each, List.findSome?_singleton]

/-- A part asks for no early parse, refers to no hidden member, and is no mere value. -/
def Ordinary : Expression → Prop
  | .early _ _ _ _ _ | .foreign _ => False
  | .rule name .member | .existing (.rule _ name .member) => ¬Grammar.Hidden name
  | _ => True

end Expression

def Resolved.IsParser : Resolved → Prop
  | .foreign _ => False
  | _ => True

open Resolved (IsParser)

section Resolution

variable {scope : Scope}

theorem Scope.nameOf_decided {resolved : Resolved} (parser : resolved.IsParser) :
    (scope.nameOf resolved).Decided (fun _ => True) none := by
  cases resolved with
  | existing address => exact ⟨_, trivial, rfl⟩
  | fresh name body => exact ⟨_, trivial, rfl⟩
  | foreign kind => exact parser.elim

theorem Scope.rule_decided {name : String} {access : Access} (shown : (Expression.rule name access).Ordinary) :
    (scope.rule name access).Decided IsParser
      ((Expression.rule name access).offence? scope.bindings scope.grammar.names) := by
  have looked : scope.grammar.access access name =
      (scope.grammar.find? name).elim (.error (access.missing scope.grammar.names name)) fun address =>
        .ok (.rule address) := by
    cases access with
    | member => exact Grammar.member_of_shown shown
    | item =>
      cases found : scope.grammar.find? name <;>
        simp only [Grammar.access, Grammar.item, found, Option.elim, Access.missing]
  rw [Scope.rule, looked, Expression.offence?]
  cases found : scope.grammar.find? name with
  | none =>
    have unnamed : name ∉ scope.grammar.names := by
      rw [← Grammar.exists_find?_iff, found]
      simp
    rw [if_neg unnamed]
    rfl
  | some address =>
    rw [if_pos (Grammar.exists_find?_iff.mp ⟨address, found⟩)]
    exact ⟨.existing address, trivial, rfl⟩

namespace Expression

theorem resolveAll_decided {children : List Expression}
    (each : ∀ child ∈ children, (child.resolve scope).Decided IsParser
      (child.firstOffence? scope.bindings scope.grammar.names)) :
    (resolveAll scope children).Decided (fun trees => trees.length = children.length)
      (children.findSome? (firstOffence? scope.bindings scope.grammar.names)) := by
  induction children with
  | nil => exact ⟨[], rfl, rfl⟩
  | cons child rest ih =>
    rw [findSome?_cons_eq_or]
    refine (each child (List.mem_cons_self ..)).bind fun _ _ => ?_
    refine (ih fun other member => each other (List.mem_cons_of_mem _ member)).bind_answer fun trees complete => ?_
    exact ⟨_, congrArg (· + 1) complete, rfl⟩

/-- An expression of ordinary parts stands for a parser, unless one of its parts offends; then the fault is that of
the first one. -/
theorem resolve_decided (scope : Scope) {expression : Expression}
    (ordinary : Tree.Every children Ordinary expression) :
    (expression.resolve scope).Decided IsParser
      (expression.firstOffence? scope.bindings scope.grammar.names) := by
  -- In each case the children come first and the node itself last, so that the faults line up with `firstOffence?_eq`.
  have made (name : Option String) (body : Parser) :
      (pure (.fresh name body) : Run Resolved).Decided IsParser none := ⟨.fresh name body, trivial, rfl⟩
  induction expression with
  | literal _ | nothing | whitespace | integer | float | fixed _ _ => exact made _ _
  | pattern flags text label =>
    rw [firstOffence?_eq]
    simp only [resolve, compile, children, List.findSome?_nil, Option.none_or, offence?]
    cases Pattern.compile? flags text with
    | none => rfl
    | some tree => exact made _ _
  | map child _ ih =>
    rw [firstOffence?_eq]
    simp only [resolve, children, List.findSome?_singleton, offence?, Option.or_none]
    refine (ih (ordinary.child (List.mem_singleton_self _))).bind_answer fun resolved parser => ?_
    exact (scope.nameOf_decided parser).answer_bind fun _ _ => made _ _
  | many child ih | optional child ih | observed _ _ child ih =>
    rw [firstOffence?_eq]
    simp only [resolve, children, List.findSome?_singleton, offence?, Option.or_none]
    exact (ih (ordinary.child (List.mem_singleton_self _))).bind_answer fun _ _ => made _ _
  | sequence children ih | choice children ih =>
    rw [firstOffence?_eq]
    refine (resolveAll_decided fun child member => ih child member (ordinary.child member)).bind
      fun trees complete => ?_
    cases children with
    | nil =>
      obtain rfl := List.length_eq_zero_iff.mp complete
      rfl
    | cons first rest =>
      obtain ⟨tree, trees, rfl⟩ := List.exists_cons_of_length_eq_add_one complete
      exact made _ _
  | sepBy item separator ihItem ihSeparator =>
    rw [firstOffence?_eq]
    simp only [resolve, children, findSome?_cons_eq_or, List.findSome?_nil, offence?, Option.or_none]
    refine (ihItem (ordinary.child (List.mem_cons_self ..))).bind fun _ _ => ?_
    exact (ihSeparator (ordinary.child (List.mem_cons_of_mem _ (List.mem_singleton_self _)))).bind_answer
      fun _ _ => made _ _
  | takeMid opening child closing ihOpening ihChild ihClosing =>
    rw [firstOffence?_eq]
    simp only [resolve, children, findSome?_cons_eq_or, List.findSome?_nil, offence?, Option.or_none]
    refine (ihOpening (ordinary.child (by simp [children]))).bind fun _ _ => ?_
    refine (ihChild (ordinary.child (by simp [children]))).bind fun _ _ => ?_
    exact (ihClosing (ordinary.child (by simp [children]))).bind_answer fun _ _ => made _ _
  | existing target =>
    rw [firstOffence?_eq]
    simp only [resolve, children, List.findSome?_nil, Option.none_or, offence?]
    cases scope.bindings.address target with
    | ok address => exact ⟨.existing address, trivial, rfl⟩
    | error cause => rfl
  | rule name access => rw [firstOffence?_eq]; exact Scope.rule_decided ordinary.here
  | early name access source pos next ih => exact ordinary.here.elim
  | foreign value => exact ordinary.here.elim

end Expression

end Resolution

/-! ## Definitions -/

namespace Expression

/-- A definition can be judged by the names of the rules: it asks for no early parse and refers to no hidden member.
A value, which is no parser, may be the whole definition, but is no part of another one. -/
def Admissible (definition : Expression) : Prop :=
  (∃ value, definition = .foreign value) ∨ Tree.Every children Ordinary definition

/-- A definition stands for a parser: none of its parts offends, and it is no mere value. -/
structure WellFormed (bindings : Bindings) (names : List String) (definition : Expression) : Prop where
  parts : Tree.Every children (Acceptable bindings names) definition
  parser : ∀ value, definition ≠ .foreign value

def misfit? (rule : String) : Expression → Option Fault
  | .foreign value => some (.invalidRule rule value.kind)
  | _ => none

end Expression

namespace Grammar

variable {bindings : Bindings} {names : List String} {grammar : Grammar} {store : Store}
  {definition : String × Expression} {definitions others : List (String × Expression)}

/-- The fault of a definition: that of the first part that offends or, if there is none, that it is no parser. -/
def defect? (bindings : Bindings) (names : List String) (definition : String × Expression) : Option Fault :=
  (definition.2.firstOffence? bindings names).or (definition.2.misfit? definition.1)

theorem defect?_eq_none_iff : defect? bindings names definition = none ↔ definition.2.WellFormed bindings names := by
  rw [defect?, Option.or_eq_none_iff, Expression.firstOffence?_eq_none_iff]
  constructor
  · rintro ⟨parts, parser⟩
    refine ⟨parts, fun value same => ?_⟩
    rw [same] at parser
    cases parser
  · rintro ⟨parts, parser⟩
    refine ⟨parts, ?_⟩
    cases same : definition.2 with
    | foreign value => exact (parser value same).elim
    | _ => rfl

/-- No defect is the use of a rule that is not installed. -/
theorem other_of_defect? {cause : Fault} (defect : defect? bindings names definition = some cause) : cause.Other := by
  rcases Option.or_eq_some_iff.mp defect with offence | ⟨_, misfit⟩
  · obtain ⟨part, _, offends⟩ := List.exists_of_findSome?_eq_some offence
    exact Expression.other_of_offence? offends
  · cases same : definition.2 with
    | foreign value =>
      rw [same] at misfit
      cases misfit
      simp
    | _ =>
      rw [same] at misfit
      cases misfit

/-- The rule of an admissible definition is installed, unless there is a defect. -/
theorem definition_decided (admissible : definition.2.Admissible) (address : Address) :
    (definition.2.resolve ⟨store, bindings, grammar⟩ >>=
      installRule grammar store definition.1 address).Decided (fun _ => True)
        (defect? bindings grammar.names definition) := by
  obtain ⟨rule, expression⟩ := definition
  rcases admissible with ⟨value, rfl⟩ | ordinary
  · rfl
  have installs (resolved : Resolved) (parser : resolved.IsParser) :
      (installRule grammar store rule address resolved).Decided (fun _ => True) none := by
    cases resolved with
    | fresh name body => exact ⟨_, trivial, rfl⟩
    | existing other =>
      simp only [installRule]
      split <;> exact ⟨_, trivial, rfl⟩
    | foreign kind => exact parser.elim
  have parser : expression.misfit? rule = none := by
    cases expression with
    | foreign value => exact ordinary.here.elim
    | _ => rfl
  rw [defect?, parser, Option.or_none]
  exact (Expression.resolve_decided ⟨store, bindings, grammar⟩ ordinary).bind_answer installs

/-- Definitions are installed in their order, unless there is a defect; then the fault is that of the first one. -/
theorem installRules_decided (admissible : ∀ definition ∈ definitions, definition.2.Admissible)
    {rules : List (String × Address)} (enough : definitions.length ≤ rules.length) :
    (installRules bindings grammar definitions rules store).Decided (fun _ => True)
      (definitions.findSome? (defect? bindings grammar.names)) := by
  induction definitions generalizing rules store with
  | nil => exact ⟨store, trivial, rfl⟩
  | cons definition rest ih =>
    cases rules with
    | nil => cases enough
    | cons rule rules =>
      rw [findSome?_cons_eq_or, installRules, ← bind_assoc]
      refine (definition_decided (admissible _ (List.mem_cons_self ..)) rule.2).bind fun store _ => ?_
      exact ih (fun other member => admissible other (List.mem_cons_of_mem _ member)) (Nat.le_of_succ_le_succ enough)

/-- Whatever definitions follow, the first ones are installed, unless there is a defect among them. -/
theorem underway_decided (bindings : Bindings) (store : Store)
    (admissible : ∀ definition ∈ definitions, definition.2.Admissible) (others : List (String × Expression)) :
    (underway bindings store (definitions ++ others) definitions.length).Decided (fun _ => True)
      (definitions.findSome? (defect? bindings ((definitions ++ others).map (·.1)))) := by
  have enough : definitions.length ≤ (reserve ((definitions ++ others).map (·.1)) store).2.length := by
    rw [reserve_rules, List.length_zipIdx, List.length_map, List.length_append]
    exact Nat.le_add_right _ _
  rw [← reserve_names ((definitions ++ others).map (·.1)) store, underway, List.take_left]
  exact (installRules_decided admissible enough).bind_answer fun _ _ => ⟨_, trivial, rfl⟩

/-- A construction that has stopped goes on no further. -/
theorem underway_of_stop {count more : Nat} {cause : Fault} (le : count ≤ more) (all : more ≤ definitions.length)
    (stopped : underway bindings store definitions count = .stop cause) :
    underway bindings store definitions more = .stop cause := by
  induction le with
  | refl => exact stopped
  | step _ ih =>
    rw [underway_succ (List.getElem?_eq_getElem all), ih (Nat.le_of_succ_le all), Run.stop_bind]

/-- Without defects, the construction comes to its end. -/
theorem build_of_no_defect (admissible : ∀ definition ∈ definitions, definition.2.Admissible)
    (fine : definitions.findSome? (defect? bindings (definitions.map (·.1))) = none) :
    ∃ built, (build bindings store definitions).outcome = .value built := by
  have decided := underway_decided bindings store admissible []
  rw [List.append_nil, fine] at decided
  obtain ⟨scope, _, answered⟩ := decided
  rw [build_eq, answered]
  exact ⟨_, rfl⟩

/-- A definition is the first one with a defect, and those before it are well-formed. -/
structure FirstDefect (bindings : Bindings) (definitions before : List (String × Expression))
    (definition : String × Expression) (later : List (String × Expression)) (cause : Fault) : Prop where
  split : definitions = before ++ definition :: later
  fine : ∀ earlier ∈ before, earlier.2.WellFormed bindings (definitions.map (·.1))
  defect : defect? bindings (definitions.map (·.1)) definition = some cause

theorem exists_firstDefect
    (unfit : ¬∀ definition ∈ definitions, definition.2.WellFormed bindings (definitions.map (·.1))) :
    ∃ before definition later cause, FirstDefect bindings definitions before definition later cause := by
  simp only [← defect?_eq_none_iff, ← List.findSome?_eq_none_iff] at unfit
  obtain ⟨cause, found⟩ := Option.ne_none_iff_exists'.mp unfit
  obtain ⟨before, definition, later, split, defect, fine⟩ := List.findSome?_eq_some_iff.mp found
  exact ⟨before, definition, later, cause, split, fun earlier member => defect?_eq_none_iff.mp (fine earlier member),
    defect⟩

namespace FirstDefect

variable {before later : List (String × Expression)} {cause : Fault}

theorem findSome?_eq (first : FirstDefect bindings definitions before definition later cause) :
    (before ++ [definition]).findSome? (defect? bindings (definitions.map (·.1))) = some cause := by
  have fine : before.findSome? (defect? bindings (definitions.map (·.1))) = none :=
    List.findSome?_eq_none_iff.mpr fun earlier member => defect?_eq_none_iff.mpr (first.fine earlier member)
  rw [List.findSome?_append, fine, List.findSome?_singleton, first.defect, Option.none_or]

/-- The first defect stops the construction, whatever definitions follow for the rules after it. -/
theorem build_eq (first : FirstDefect bindings definitions before definition later cause)
    (admissible : ∀ definition ∈ definitions, definition.2.Admissible) (same : others.map (·.1) = later.map (·.1)) :
    build bindings store (before ++ definition :: others) =
      ⟨[.logged (.buildingGrammar definitions.length)], .fault cause⟩ := by
  have names : (before ++ definition :: others).map (·.1) = definitions.map (·.1) := by
    simp only [first.split, List.map_append, List.map_cons, same]
  have length : (before ++ definition :: others).length = definitions.length := by
    simpa only [List.length_map] using congrArg List.length names
  have judged : ∀ earlier ∈ before ++ [definition], earlier.2.Admissible := by
    intro earlier member
    refine admissible earlier ?_
    rw [first.split, List.append_cons]
    exact List.mem_append_left _ member
  have stopped : underway bindings store (before ++ definition :: others) (before ++ [definition]).length =
      .stop cause := by
    have decided := underway_decided bindings store judged others
    rw [← List.append_cons, names, first.findSome?_eq] at decided
    exact decided
  have le : (before ++ [definition]).length ≤ (before ++ definition :: others).length := by simp
  rw [Grammar.build_eq, underway_of_stop le (Nat.le_refl _) stopped, length]
  rfl

theorem build_fault (first : FirstDefect bindings definitions before definition later cause)
    (admissible : ∀ definition ∈ definitions, definition.2.Admissible) :
    (build bindings store definitions).outcome = .fault cause := by
  conv_lhs => rw [first.split, first.build_eq admissible rfl]

end FirstDefect

/-- Definitions that can be judged by the names of their rules make a grammar if and only if all of them are
well-formed, and its rules have their names then, in their order. If some are not, the first of these stops the
construction with its defect, and it does so whatever stands in the place of the definitions after it, so that those
are not looked at. The use of a rule that is not installed is never the fault. -/
theorem builds_iff_wellFormed (bindings : Bindings) (store : Store) (definitions : List (String × Expression))
    (admissible : ∀ definition ∈ definitions, definition.2.Admissible) :
    ((∃ built, (build bindings store definitions).outcome = .value built) ↔
      ∀ definition ∈ definitions, definition.2.WellFormed bindings (definitions.map (·.1))) ∧
    (∀ final grammar, (build bindings store definitions).outcome = .value (final, grammar) →
      grammar.names = definitions.map (·.1)) ∧
    ((¬∀ definition ∈ definitions, definition.2.WellFormed bindings (definitions.map (·.1))) →
      ∃ before definition later cause, FirstDefect bindings definitions before definition later cause ∧
        ∀ others, others.map (·.1) = later.map (·.1) →
          build bindings store (before ++ definition :: others) =
            ⟨[.logged (.buildingGrammar definitions.length)], .fault cause⟩) ∧
    ∀ rule, (build bindings store definitions).outcome ≠ .fault (.unpatchedRule rule) := by
  have fit (wellFormed : ∀ definition ∈ definitions, definition.2.WellFormed bindings (definitions.map (·.1))) :
      ∃ built, (build bindings store definitions).outcome = .value built :=
    build_of_no_defect admissible (List.findSome?_eq_none_iff.mpr fun definition member =>
      defect?_eq_none_iff.mpr (wellFormed definition member))
  refine ⟨⟨?_, fit⟩, fun final grammar success => names_of_underway (build_outcome.mp success), fun unfit => ?_, ?_⟩
  · rintro ⟨built, success⟩
    by_contra unfit
    obtain ⟨before, definition, later, cause, first⟩ := exists_firstDefect unfit
    rw [first.build_fault admissible] at success
    cases success
  · obtain ⟨before, definition, later, cause, first⟩ := exists_firstDefect unfit
    exact ⟨before, definition, later, cause, first, fun others same => first.build_eq admissible same⟩
  · intro rule stopped
    by_cases wellFormed : ∀ definition ∈ definitions, definition.2.WellFormed bindings (definitions.map (·.1))
    · obtain ⟨built, success⟩ := fit wellFormed
      rw [success] at stopped
      cases stopped
    · obtain ⟨before, definition, later, cause, first⟩ := exists_firstDefect wellFormed
      rw [first.build_fault admissible] at stopped
      cases stopped
      exact other_of_defect? first.defect rfl

/-- Nested lists with three mistakes: a misspelled name, a choice between nothing, and an open parenthesis. -/
def misspelledLists : List (String × Expression) :=
  [("Top", .rule "List" .member),
    ("List", .takeMid (.literal "[") (.sepBy (.rule "Itme" .item) (.choice [])) (.literal "]")),
    ("Item", .pattern {} "(" "item")]

/-- Of the three mistakes, the misspelled name is reported. -/
theorem misspelledLists_refused :
    (∀ definition ∈ misspelledLists, definition.2.Admissible) ∧
    (¬∃ built, (build .empty .empty misspelledLists).outcome = .value built) ∧
    ∃ before definition later, FirstDefect .empty misspelledLists before definition later (.missingKey "Itme") ∧
      ∀ others, others.map (·.1) = later.map (·.1) →
        build .empty .empty (before ++ definition :: others) =
          ⟨[.logged (.buildingGrammar 3)], .fault (.missingKey "Itme")⟩ := by
  have admissible : ∀ definition ∈ misspelledLists, definition.2.Admissible := by
    refine fun definition member => .inr (Expression.every_iff_inOrder.mpr ?_)
    simp only [misspelledLists, List.mem_cons, List.not_mem_nil, or_false] at member
    have shown : ¬Hidden "List" := by decide
    rcases member with rfl | rfl | rfl <;> simp [Expression.inOrder, Expression.allInOrder, Expression.Ordinary, shown]
  have refused : (build .empty .empty misspelledLists).outcome = .fault (.missingKey "Itme") := rfl
  obtain ⟨fits, _, first, _⟩ := builds_iff_wellFormed .empty .empty misspelledLists admissible
  have fails : ¬∃ built, (build .empty .empty misspelledLists).outcome = .value built := by
    rintro ⟨built, success⟩
    rw [refused] at success
    cases success
  obtain ⟨before, definition, later, cause, defect, stops⟩ := first fun fit => fails (fits.mpr fit)
  have same := (defect.build_fault admissible).symm.trans refused
  cases same
  exact ⟨admissible, fails, before, definition, later, defect, stops⟩

end Grammar

end RecursiveDescent
