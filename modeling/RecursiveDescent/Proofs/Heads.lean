import RecursiveDescent.Proofs.Coverage

/-! # What a parser calls first

A parser surely consumes if none of its successes is empty, by its form alone. The heads of a parser are
the stored parsers that it may call at the offset where it begins, which are those before the first part
that surely consumes. Of what is stored already, it may be known that it surely consumes.
-/

namespace RecursiveDescent

namespace Parser

/-- By its form, a parser moves on whenever it succeeds; so do the calls of `sure` addresses. -/
inductive Consumes (sure : Address → Prop) : Parser → Prop
  | literal {expected : String} (some : expected ≠ "") : Consumes sure (.literal expected)
  | pattern {tree : Pattern} (wide : 0 < tree.least) (label : String) : Consumes sure (.pattern tree label)
  | integer : Consumes sure .integer
  | float : Consumes sure .float
  | map {child : Parser} (action : Action) (consumes : Consumes sure child) : Consumes sure (.map child action)
  | sequence {children : List Parser} {child : Parser} (member : child ∈ children)
      (consumes : Consumes sure child) : Consumes sure (.sequence children)
  | choice {first : Parser} {rest : List Parser} (consumes : Consumes sure first)
      (each : ∀ child ∈ rest, Consumes sure child) : Consumes sure (.choice first rest)
  | observed {child : Parser} (observer : String) (consumes : Consumes sure child) :
      Consumes sure (.observed observer child)
  | ref {address : Address} (member : sure address) : Consumes sure (.ref address)

mutual

/-- A parser may call what is stored at an address before anything was consumed. -/
inductive Head (sure : Address → Prop) : Parser → Address → Prop
  | ref (address : Address) : Head sure (.ref address) address
  | map {child : Parser} {address : Address} (action : Action) (head : Head sure child address) :
      Head sure (.map child action) address
  | sequence {children : List Parser} {address : Address} (head : HeadOfAll sure children address) :
      Head sure (.sequence children) address
  | first {first : Parser} {address : Address} (rest : List Parser) (head : Head sure first address) :
      Head sure (.choice first rest) address
  | other {child : Parser} {rest : List Parser} {address : Address} (first : Parser) (member : child ∈ rest)
      (head : Head sure child address) : Head sure (.choice first rest) address
  | many {child : Parser} {address : Address} (head : Head sure child address) : Head sure (.many child) address
  | item {item : Parser} {address : Address} (separator : Parser) (head : Head sure item address) :
      Head sure (.sepBy item separator) address
  | separator {item separator : Parser} {address : Address} (idle : ¬item.Consumes sure)
      (head : Head sure separator address) : Head sure (.sepBy item separator) address
  | observed {child : Parser} {address : Address} (observer : String) (head : Head sure child address) :
      Head sure (.observed observer child) address

inductive HeadOfAll (sure : Address → Prop) : List Parser → Address → Prop
  | here {child : Parser} {address : Address} (rest : List Parser) (head : Head sure child address) :
      HeadOfAll sure (child :: rest) address
  | later {child : Parser} {rest : List Parser} {address : Address} (idle : ¬child.Consumes sure)
      (head : HeadOfAll sure rest address) : HeadOfAll sure (child :: rest) address

end

end Parser

/-! ## Consuming parsers move on -/

namespace Matcher

variable {child first second : Matcher} {children rest : List Matcher}

/-- A success at an offset that is not beyond the end stops further on. -/
def Moves (matcher : Matcher) : Prop :=
  ∀ source pos found, pos ≤ source.size → (matcher source pos).outcome = .value (.success found) → pos < found.pos

theorem moves_literal {expected : String} (some : expected ≠ "") : (literal expected).Moves := by
  intro source pos found inside answered
  simp only [literal] at answered
  split at answered
  · next same =>
    cases answered
    refine lt_of_le_of_ne (le_max_left _ _) fun still => some ?_
    dsimp only at still
    rw [← still] at same
    rw [← same, Source.slice, Source.extract, Array.extract_empty_of_stop_le_start (Nat.le_refl _)]
  · cases answered

theorem moves_pattern {tree : Pattern} (wide : 0 < tree.least) (label : String) : (pattern tree label).Moves := by
  intro source pos found inside answered
  simp only [pattern] at answered
  split at answered
  · next stop matched =>
    cases answered
    obtain ⟨after, _⟩ := Pattern.end?_bounds (source.clamp_le pos) matched
    simp only [Source.clamp] at after
    dsimp only
    omega
  · cases answered

theorem moves_map (action : Action) (moves : child.Moves) : (map child action).Moves := by
  intro source pos found inside answered
  obtain ⟨middle, matched, answered⟩ := Run.bind_outcome.mp answered
  cases middle with
  | failure missed => cases answered
  | success before =>
    obtain ⟨value, _, answered⟩ := Run.bind_outcome.mp answered
    cases answered
    exact moves source pos before inside matched

theorem moves_observed (observer : String) (moves : child.Moves) : (observed observer child).Moves := by
  intro source pos found inside answered
  obtain ⟨_, _, matched⟩ := Run.bind_outcome.mp answered
  exact moves source pos found inside matched

/-- A chain with a part that moves on does so, since none of the other parts moves backwards. -/
theorem moves_chain {source : Source} {pos : Int} (covers : ∀ other ∈ children, other.Covers)
    (member : child ∈ children) (moves : child.Moves) (inside : pos ≤ source.size) {all : Chain}
    (answered : (chain source children pos).outcome = .value (.ok all)) : pos < all.stop := by
  induction children generalizing pos all with
  | nil => cases member
  | cons first rest ih =>
    obtain ⟨result, matched, answered⟩ := Run.bind_outcome.mp answered
    have covered := covers first (List.mem_cons_self ..) source pos result inside matched
    cases result with
    | failure missed => cases answered
    | success found =>
      obtain ⟨_, moved, within⟩ := covered
      obtain ⟨tail, others, answered⟩ := Run.bind_outcome.mp answered
      cases tail with
      | error missed => cases answered
      | ok chained =>
        cases answered
        have coversRest (other : Matcher) (among : other ∈ rest) : other.Covers :=
          covers other (List.mem_cons_of_mem _ among)
        rcases List.mem_cons.mp member with rfl | member
        · exact (moves source pos found inside matched).trans_le (covers_chain coversRest within others).1
        · have further : pos < chained.stop := moved.trans_lt (ih coversRest member within others)
          exact further

theorem moves_sequence (covers : ∀ other ∈ children, other.Covers) (member : child ∈ children)
    (moves : child.Moves) : (sequence children).Moves := by
  intro source pos found inside answered
  obtain ⟨tail, matched, answered⟩ := Run.bind_outcome.mp answered
  cases tail with
  | error missed => cases answered
  | ok all => cases answered; exact moves_chain covers member moves inside matched

theorem moves_orElse (movesFirst : first.Moves) (movesSecond : second.Moves) : (orElse first second).Moves := by
  intro source pos found inside answered
  obtain ⟨tried, matched, answered⟩ := Run.bind_outcome.mp answered
  cases tried with
  | success found => cases answered; exact movesFirst source pos _ inside matched
  | failure missed =>
    obtain ⟨other, matched, answered⟩ := Run.bind_outcome.mp answered
    cases other with
    | success found => cases answered; exact movesSecond source pos _ inside matched
    | failure last => cases answered

theorem moves_choice (movesFirst : first.Moves) (moves : ∀ child ∈ rest, child.Moves) : (choice first rest).Moves := by
  induction rest generalizing first with
  | nil => exact movesFirst
  | cons second rest ih =>
    exact ih (moves_orElse movesFirst (moves second (List.mem_cons_self ..)))
      fun child member => moves child (List.mem_cons_of_mem _ member)

end Matcher

/-- The matcher of a tree that surely consumes moves on, if the calls of `sure` addresses do. -/
theorem Parser.Consumes.moves {actions : Action → Prop} {known sure : Address → Prop} {limit : Nat}
    {call : Address → Matcher} (covers : ∀ address, known address → (call address).Covers)
    (moves : ∀ address, sure address → (call address).Moves) {parser : Parser}
    (standard : parser.Standard actions known) (consumes : parser.Consumes sure) :
    (parser.matcher limit call).Moves := by
  induction consumes with
  | literal some => exact Matcher.moves_literal some
  | pattern wide label => exact Matcher.moves_pattern wide label
  | integer | float => exact Matcher.moves_map _ (Matcher.moves_pattern (by decide) _)
  | map action _ ih => cases standard with | map _ standard => exact Matcher.moves_map action (ih standard)
  | sequence member _ ih =>
    cases standard with
    | sequence each =>
      simp only [matcher, matchers_eq_map]
      refine Matcher.moves_sequence ?_ (List.mem_map_of_mem member) (ih (each _ member))
      exact List.forall_mem_map.mpr fun child among => (each child among).covers covers
  | choice _ _ ihFirst ihRest =>
    cases standard with
    | choice standard each =>
      simp only [matcher, matchers_eq_map]
      apply Matcher.moves_choice (ihFirst standard)
      exact List.forall_mem_map.mpr fun child among => ihRest child among (each child among)
  | observed observer _ ih =>
    cases standard with | observed _ standard => exact Matcher.moves_observed observer (ih standard)
  | ref member => exact moves _ member

def Store.Sure (store : Store) (sure : Address → Prop) : Prop :=
  ∀ address, sure address → ∃ body, store.body? address = some body ∧ body.Consumes sure

/-- Calls of `sure` addresses move on, within any limit. -/
theorem Store.Sure.call_moves {store : Store} {actions : Action → Prop} {known sure : Address → Prop}
    (certain : store.Sure sure) (standard : store.Standard actions known)
    (le : ∀ address, sure address → known address) (limit : Nat) {address : Address} (member : sure address) :
    (store.call limit address).Moves := by
  induction limit generalizing address with
  | zero => rintro source pos found _ ⟨⟩
  | succ limit ih =>
    obtain ⟨body, stored, consumes⟩ := certain address member
    rw [call_of_body stored]
    exact consumes.moves (fun _ member => standard.call_covers limit member) (fun _ member => ih member)
      (standard address body (le address member) stored)

/-! ## Heads of parsers and of expressions -/

/-- What is called first by a chain is called first by one of its members. -/
theorem Parser.HeadOfAll.exists_member {sure : Address → Prop} {children : List Parser} {address : Address}
    (heads : HeadOfAll sure children address) : ∃ child ∈ children, child.Head sure address := by
  induction children with
  | nil => cases heads
  | cons child rest ih =>
    cases heads with
    | here _ head => exact ⟨child, List.mem_cons_self .., head⟩
    | later _ heads =>
      obtain ⟨other, member, head⟩ := ih heads
      exact ⟨other, List.mem_cons_of_mem _ member, head⟩

/-- A standard parser first calls known parsers. -/
theorem Parser.Standard.known_of_head {actions : Action → Prop} {known sure : Address → Prop} {parser : Parser}
    (standard : parser.Standard actions known) {address : Address} (head : parser.Head sure address) :
    known address := by
  induction standard with
  | literal | pattern | nothing | integer | float | unpatched => cases head
  | map _ _ ih => cases head with | map _ head => exact ih head
  | sequence _ ih =>
    cases head with
    | sequence heads =>
      obtain ⟨child, member, head⟩ := heads.exists_member
      exact ih child member head
  | choice _ _ ihFirst ihRest =>
    cases head with
    | first _ head => exact ihFirst head
    | other _ member head => exact ihRest _ member head
  | many _ ih => cases head with | many head => exact ih head
  | sepBy _ _ ihItem ihSeparator =>
    cases head with
    | item _ head => exact ihItem head
    | separator _ head => exact ihSeparator head
  | observed _ _ ih => cases head with | observed _ head => exact ih head
  | ref member => cases head; exact member

/-- An address is that of a rule with one of the names, or of a parser that exists already. -/
def Scope.Names (scope : Scope) (names : List String) (address : Address) : Prop :=
  (∃ name ∈ names, scope.grammar.find? name = some address) ∨ ∃ target, scope.bindings.address target = .ok address

theorem Scope.Names.mono {scope : Scope} {less more : List String} {address : Address}
    (names : scope.Names less address) (subset : less ⊆ more) : scope.Names more address := by
  rcases names with ⟨name, listed, found⟩ | outside
  · exact .inl ⟨name, subset listed, found⟩
  · exact .inr outside

namespace Expression

section Heads

variable (bindings : Bindings) (sure : Address → Bool)

mutual

/-- Whether an expression surely consumes: a text that is not empty, a number or white space, a choice of
such, and a sequence with one such. Of what exists already, the addresses tell. -/
def consumes : Expression → Bool
  | .literal expected => expected != ""
  | .whitespace | .integer | .float => true
  | .map child _ | .observed _ _ child | .early _ _ _ _ child => child.consumes
  | .sequence children => someConsume children
  | .choice children => allConsume children
  | .takeMid opening child closing => opening.consumes || child.consumes || closing.consumes
  | .existing target =>
      match bindings.address target with
      | .ok address => sure address
      | .error _ => false
  | _ => false

def someConsume : List Expression → Bool
  | [] => false
  | child :: rest => child.consumes || someConsume rest

def allConsume : List Expression → Bool
  | [] => true
  | child :: rest => child.consumes && allConsume rest

end

mutual

/-- The rules that an expression may call at the offset where it begins. -/
def heads : Expression → List String
  | .map child _ | .many child | .optional child | .observed _ _ child | .early _ _ _ _ child => child.heads
  | .sequence children => headsInOrder children
  | .choice children => headsOfEach children
  | .sepBy item separator => item.heads ++ if item.consumes bindings sure then [] else separator.heads
  | .takeMid opening child closing =>
      opening.heads ++ if opening.consumes bindings sure then [] else
        child.heads ++ if child.consumes bindings sure then [] else closing.heads
  | .rule name _ => [name]
  | _ => []

/-- The heads of expressions up to and including the first that surely consumes. -/
def headsInOrder : List Expression → List String
  | [] => []
  | child :: rest => child.heads ++ if child.consumes bindings sure then [] else headsInOrder rest

def headsOfEach : List Expression → List String
  | [] => []
  | child :: rest => child.heads ++ headsOfEach rest

end

end Heads

variable {scope : Scope} {sure : Address → Bool}

theorem someConsume_iff {bindings : Bindings} {children : List Expression} :
    someConsume bindings sure children = true ↔ ∃ child ∈ children, child.consumes bindings sure = true := by
  induction children with
  | nil => simp [someConsume]
  | cons child rest ih => simp [someConsume, ih]

theorem allConsume_iff {bindings : Bindings} {children : List Expression} :
    allConsume bindings sure children = true ↔ ∀ child ∈ children, child.consumes bindings sure = true := by
  induction children with
  | nil => simp [allConsume]
  | cons child rest ih => simp [allConsume, ih]

theorem mem_headsOfEach {bindings : Bindings} {children : List Expression} {name : String} :
    name ∈ headsOfEach bindings sure children ↔ ∃ child ∈ children, name ∈ child.heads bindings sure := by
  induction children with
  | nil => simp [headsOfEach]
  | cons child rest ih => simp [headsOfEach, ih]

/-- What surely consumes stands for a tree that does. -/
theorem StandsFor.consumes {expression : Expression} {body : Parser} (stands : expression.StandsFor scope body)
    (certain : expression.consumes scope.bindings sure = true) : body.Consumes (sure · = true) := by
  induction expression generalizing body with
  | literal expected =>
    rw [standsFor_literal.mp stands]
    exact .literal (bne_iff_ne.mp certain)
  | whitespace => rw [standsFor_whitespace.mp stands]; exact .pattern (by decide) _
  | integer => rw [standsFor_integer.mp stands]; exact .integer
  | float => rw [standsFor_float.mp stands]; exact .float
  | map child action ih =>
    obtain ⟨tree, child, _, rfl⟩ := standsFor_map.mp stands
    exact .map action (ih child certain)
  | sequence children ih =>
    obtain ⟨trees, stand, _, rfl⟩ := standsFor_sequence.mp stands
    obtain ⟨child, member, certain⟩ := someConsume_iff.mp certain
    obtain ⟨tree, among, stands⟩ := exists_of_mem_right stand.flip member
    exact .sequence among (ih child member stands certain)
  | choice children ih =>
    obtain ⟨first, rest, stand, rfl⟩ := standsFor_choice.mp stands
    have each (tree : Parser) (member : tree ∈ first :: rest) : tree.Consumes (sure · = true) := by
      obtain ⟨child, among, stands⟩ := exists_of_mem_right stand member
      exact ih child among stands (allConsume_iff.mp certain child among)
    exact .choice (each first (List.mem_cons_self ..)) fun tree member => each tree (List.mem_cons_of_mem _ member)
  | takeMid opening child closing ihOpening ihChild ihClosing =>
    obtain ⟨first, second, third, standsFirst, standsSecond, standsThird, rfl⟩ := standsFor_takeMid.mp stands
    simp only [Expression.consumes, Bool.or_eq_true] at certain
    rcases certain with (certain | certain) | certain
    · exact .map _ (.sequence (by simp) (ihOpening standsFirst certain))
    · exact .map _ (.sequence (by simp) (ihChild standsSecond certain))
    · exact .map _ (.sequence (by simp) (ihClosing standsThird certain))
  | observed name observer child ih =>
    obtain ⟨tree, child, rfl⟩ := standsFor_observed.mp stands
    exact .observed observer (ih child certain)
  | existing target =>
    obtain ⟨address, found, rfl⟩ := standsFor_existing.mp stands
    simp only [Expression.consumes, found] at certain
    exact .ref certain
  | early name access source pos next ih => exact ih (standsFor_early.mp stands).2 certain
  | pattern | nothing | many | optional | sepBy | fixed | rule | foreign => cases certain

/-- The heads of a list of trees are those of the expressions, if this is so for each member. -/
theorem headsInOrder_of_trees {children : List Expression} {trees : List Parser} {address : Address}
    (stand : List.Forall₂ (StandsFor scope) children trees)
    (each : ∀ child ∈ children, ∀ {tree : Parser}, child.StandsFor scope tree → tree.Head (sure · = true) address →
      scope.Names (child.heads scope.bindings sure) address)
    (heads : Parser.HeadOfAll (sure · = true) trees address) :
    scope.Names (headsInOrder scope.bindings sure children) address := by
  induction stand with
  | nil => cases heads
  | @cons child tree children trees stands _ ih =>
    cases heads with
    | here _ head =>
      have names := each child (List.mem_cons_self ..) stands head
      exact names.mono (List.subset_append_left ..)
    | later idle heads =>
      have names := ih (fun other member => each other (List.mem_cons_of_mem _ member)) heads
      have notSure : ¬child.consumes scope.bindings sure = true := fun certain => idle (stands.consumes certain)
      rw [headsInOrder, if_neg notSure]
      exact names.mono (List.subset_append_right ..)

/-- The heads of the tree that an expression stands for are the heads of the expression, as rules of the
grammar, and parsers that exist already. -/
theorem StandsFor.head {expression : Expression} {body : Parser} {address : Address}
    (stands : expression.StandsFor scope body) (head : body.Head (sure · = true) address) :
    scope.Names (expression.heads scope.bindings sure) address := by
  induction expression generalizing body with
  | map child action ih =>
    obtain ⟨tree, child, _, rfl⟩ := standsFor_map.mp stands
    cases head with | map _ head => exact ih child head
  | sequence children ih =>
    obtain ⟨trees, stand, _, rfl⟩ := standsFor_sequence.mp stands
    cases head with | sequence heads => exact headsInOrder_of_trees stand ih heads
  | choice children ih =>
    obtain ⟨first, rest, stand, rfl⟩ := standsFor_choice.mp stands
    obtain ⟨tree, among, head⟩ : ∃ tree ∈ first :: rest, tree.Head (sure · = true) address := by
      cases head with
      | first _ head => exact ⟨_, List.mem_cons_self .., head⟩
      | other _ member head => exact ⟨_, List.mem_cons_of_mem _ member, head⟩
    obtain ⟨child, member, stands⟩ := exists_of_mem_right stand among
    exact (ih child member stands head).mono fun name listed => mem_headsOfEach.mpr ⟨child, member, listed⟩
  | many child ih =>
    obtain ⟨tree, child, rfl⟩ := standsFor_many.mp stands
    cases head with | many head => exact ih child head
  | optional child ih =>
    obtain ⟨tree, child, rfl⟩ := standsFor_optional.mp stands
    cases head with
    | first _ head => exact ih child head
    | other _ member head =>
      obtain rfl := List.mem_singleton.mp member
      cases head
  | observed name observer child ih =>
    obtain ⟨tree, child, rfl⟩ := standsFor_observed.mp stands
    cases head with | observed _ head => exact ih child head
  | sepBy item separator ihItem ihSeparator =>
    obtain ⟨first, second, standsItem, standsSeparator, rfl⟩ := standsFor_sepBy.mp stands
    cases head with
    | item _ head => exact (ihItem standsItem head).mono (List.subset_append_left ..)
    | separator idle head =>
      have notSure : ¬item.consumes scope.bindings sure = true := fun certain => idle (standsItem.consumes certain)
      rw [heads, if_neg notSure]
      exact (ihSeparator standsSeparator head).mono (List.subset_append_right ..)
  | takeMid opening child closing ihOpening ihChild ihClosing =>
    obtain ⟨first, second, third, standsFirst, standsSecond, standsThird, rfl⟩ := standsFor_takeMid.mp stands
    have same : (takeMid opening child closing).heads scope.bindings sure =
        headsInOrder scope.bindings sure [opening, child, closing] := by
      simp only [heads, headsInOrder, ite_self, List.append_nil]
    rw [same]
    cases head with
    | map _ head =>
      cases head with
      | sequence heads =>
        refine headsInOrder_of_trees (.cons standsFirst (.cons standsSecond (.cons standsThird .nil))) ?_ heads
        intro other member tree here head
        simp only [List.mem_cons, List.not_mem_nil, or_false] at member
        rcases member with rfl | rfl | rfl
        · exact ihOpening here head
        · exact ihChild here head
        · exact ihClosing here head
  | existing target =>
    obtain ⟨other, found, rfl⟩ := standsFor_existing.mp stands
    cases head
    exact .inr ⟨target, found⟩
  | rule name access =>
    obtain ⟨member, found, rfl⟩ := standsFor_rule.mp stands
    cases member <;> cases head
    exact .inl ⟨name, List.mem_singleton_self _, Grammar.find?_of_access found⟩
  | early name access source pos next ih => exact ih (standsFor_early.mp stands).2 head
  | pattern flags text label =>
    obtain ⟨tree, _, rfl⟩ := standsFor_pattern.mp stands
    cases head
  | foreign value =>
    obtain rfl := standsFor_foreign.mp stands
    cases head
  | literal _ | nothing | whitespace | integer | float | fixed _ _ =>
    obtain rfl := standsFor_of_pure rfl |>.mp stands
    cases head

end Expression

end RecursiveDescent
