import RecursiveDescent.Proofs.Parts

/-! # Properties that runs keep

Many properties of runs are kept when one run follows another: that its faults are of some kind, or that
certain events do not occur in it. A parse and the resolution of an expression are put together from their
smallest steps in no other way, so such a property holds of them if it holds of each step. The two
inductions here, on parsers and on expressions, serve all such properties.
-/

namespace RecursiveDescent

namespace Run

variable {α β : Type}

/-- A property of runs that holds where nothing happens, and is kept when one run follows another. -/
structure Lasting (holds : ∀ {α : Type}, Run α → Prop) : Prop where
  pure : ∀ {α : Type} (answer : α), holds (pure answer : Run α)
  unfinished : ∀ {α : Type}, holds (unfinished : Run α)
  bind : ∀ {α β : Type} {run : Run α} {next : α → Run β}, holds run → (∀ answer, holds (next answer)) →
    holds (run >>= next)

/-- What follows a run has to have the property only where it begins with an answer of that run. -/
theorem Lasting.bind_of_value {holds : ∀ {α : Type}, Run α → Prop} (lasting : Lasting holds) {run : Run α}
    {next : α → Run β} (first : holds run) (second : ∀ answer, run.outcome = .value answer → holds (next answer)) :
    holds (run >>= next) := by
  obtain ⟨events, outcome⟩ := run
  have stays (later : Run β) (after : holds later) : holds ((⟨events, outcome⟩ : Run α) >>= fun _ => later) :=
    lasting.bind first fun _ => after
  cases outcome with
  | value answer => exact stays (next answer) (second answer rfl)
  | fault cause => exact stays .unfinished lasting.unfinished
  | unfinished => exact stays .unfinished lasting.unfinished

def Permits (permitted : Fault → Prop) (run : Run α) : Prop :=
  ∀ cause, run.outcome = .fault cause → permitted cause

theorem permits_lasting (permitted : Fault → Prop) : Lasting (Permits permitted) where
  pure _ _ := nofun
  unfinished _ := nofun
  bind {_ _ run next} first second := by
    intro cause stopped
    obtain ⟨events, outcome⟩ := run
    cases outcome with
    | value answer => exact second answer cause stopped
    | fault other => cases stopped; exact first _ rfl
    | unfinished => cases stopped

end Run

/-! ## Parses -/

namespace Matcher

variable {holds : ∀ {α : Type}, Run α → Prop} {source : Source} {child item separator first second : Matcher}
  {children rest : List Matcher}

def Keeps (holds : ∀ {α : Type}, Run α → Prop) (source : Source) (matcher : Matcher) : Prop :=
  ∀ pos, holds (matcher source pos)

variable (lasting : Run.Lasting holds)
include lasting

theorem keeps_literal (expected : String) : (literal expected).Keeps holds source := by
  intro pos
  simp only [literal]
  split <;> exact lasting.pure _

theorem keeps_pattern (tree : Pattern) (label : String) : (pattern tree label).Keeps holds source := by
  intro pos
  simp only [pattern]
  split <;> exact lasting.pure _

theorem keeps_map {action : Action} (keeps : child.Keeps holds source)
    (applied : ∀ value span, holds (action value span)) : (map child action).Keeps holds source := by
  intro pos
  apply lasting.bind (keeps pos)
  intro result
  cases result with
  | failure missed => exact lasting.pure _
  | success found => exact lasting.bind (applied _ _) fun _ => lasting.pure _

theorem keeps_observed {observer : String} (visited : ∀ pos, holds (Run.emit (.visited observer pos)))
    (keeps : child.Keeps holds source) : (observed observer child).Keeps holds source :=
  fun pos => lasting.bind (visited pos) fun _ => keeps pos

theorem keeps_chain (keeps : ∀ child ∈ children, child.Keeps holds source) (pos : Int) :
    holds (chain source children pos) := by
  induction children generalizing pos with
  | nil => exact lasting.pure _
  | cons child rest ih =>
    apply lasting.bind (keeps child (List.mem_cons_self ..) pos)
    intro result
    cases result with
    | failure missed => exact lasting.pure _
    | success found =>
      apply lasting.bind (ih (fun other member => keeps other (List.mem_cons_of_mem _ member)) found.pos)
      intro tail
      cases tail <;> exact lasting.pure _

theorem keeps_sequence (keeps : ∀ child ∈ children, child.Keeps holds source) :
    (sequence children).Keeps holds source := by
  intro pos
  apply lasting.bind (keeps_chain lasting keeps pos)
  intro tail
  cases tail <;> exact lasting.pure _

theorem keeps_orElse (keepsFirst : first.Keeps holds source) (keepsSecond : second.Keeps holds source) :
    (orElse first second).Keeps holds source := by
  intro pos
  apply lasting.bind (keepsFirst pos)
  intro result
  cases result with
  | success found => exact lasting.pure _
  | failure missed =>
    apply lasting.bind (keepsSecond pos)
    intro other
    cases other <;> exact lasting.pure _

theorem keeps_choice (keepsFirst : first.Keeps holds source) (keeps : ∀ child ∈ rest, child.Keeps holds source) :
    (choice first rest).Keeps holds source := by
  induction rest generalizing first with
  | nil => exact keepsFirst
  | cons second rest ih =>
    exact ih (keeps_orElse lasting keepsFirst (keeps second (List.mem_cons_self ..)))
      fun child member => keeps child (List.mem_cons_of_mem _ member)

theorem keeps_rounds (keeps : child.Keeps holds source) (limit : Nat) (pos : Int) :
    holds (rounds child source limit pos) := by
  induction limit generalizing pos with
  | zero => exact lasting.unfinished
  | succ limit ih =>
    simp only [rounds]
    split
    · apply lasting.bind (keeps pos)
      intro result
      cases result with
      | failure missed => exact lasting.pure _
      | success found =>
        dsimp only
        split
        · exact lasting.pure _
        · exact lasting.bind (ih found.pos) fun _ => lasting.pure _
    · exact lasting.pure _

theorem keeps_many (keeps : child.Keeps holds source) (limit : Nat) : (many limit child).Keeps holds source :=
  fun pos => lasting.bind (keeps_rounds lasting keeps limit pos) fun _ => lasting.pure _

theorem keeps_sepBy (keepsItem : item.Keeps holds source) (keepsSeparator : separator.Keeps holds source)
    (limit : Nat) : (sepBy limit item separator).Keeps holds source := by
  intro pos
  apply lasting.bind (keepsItem pos)
  intro result
  cases result with
  | failure missed => exact lasting.pure _
  | success head =>
    have pair : (sequence [separator, item]).Keeps holds source :=
      keeps_sequence lasting (List.forall_mem_cons.mpr ⟨keepsSeparator, List.forall_mem_singleton.mpr keepsItem⟩)
    exact lasting.bind (keeps_rounds lasting pair limit head.pos) fun _ => lasting.pure _

end Matcher

/-- A lasting property holds of the steps that a parse consists of: actions of a kind, reports of calls,
integer literals, and refusals of a kind. -/
structure Run.Basic (holds : ∀ {α : Type}, Run α → Prop) (source : Source) (actions : Action → Prop)
    (refusals : Fault → Prop) : Prop extends Run.Lasting holds where
  applied : ∀ {action : Action}, actions action → ∀ value span, holds (action value span)
  visited : ∀ observer pos, holds (Run.emit (.visited observer pos))
  integers : Lexeme.integer.Keeps holds source
  placeholders : ∀ {rule : String}, refusals (.unpatchedRule rule) → (Parser.reportUnpatched rule).Keeps holds source
  rejects : ∀ {kind : String}, refusals (.notAParser kind "parse") → (Parser.reject kind).Keeps holds source

section Parses

variable {holds : ∀ {α : Type}, Run α → Prop} {source : Source} {actions : Action → Prop} {known : Address → Prop}
  {refusals : Fault → Prop}

/-- The matcher of a confined parser keeps a property, if calls of known parsers do. -/
theorem Parser.Confined.keeps (basic : Run.Basic holds source actions refusals) {limit : Nat} {call : Address → Matcher}
    (calls : ∀ address, known address → (call address).Keeps holds source) {parser : Parser}
    (confined : parser.Confined actions known refusals) : (parser.matcher limit call).Keeps holds source := by
  have lasting := basic.toLasting
  induction parser with
  | literal expected => exact Matcher.keeps_literal lasting expected
  | pattern tree label => exact Matcher.keeps_pattern lasting tree label
  | nothing | fixed result => exact fun _ => lasting.pure _
  | integer => exact basic.integers
  | float =>
    refine Matcher.keeps_map lasting (Matcher.keeps_pattern lasting _ _) fun value span => ?_
    cases value <;> exact lasting.pure _
  | map child action ih =>
    exact Matcher.keeps_map lasting (ih (confined.child (List.mem_singleton_self _))) (basic.applied confined.here)
  | sequence children ih =>
    simp only [matcher, matchers_eq_map]
    exact Matcher.keeps_sequence lasting
      (List.forall_mem_map.mpr fun child member => ih child member (confined.child member))
  | choice first rest ihFirst ihRest =>
    simp only [matcher, matchers_eq_map]
    exact Matcher.keeps_choice lasting (ihFirst (confined.child (List.mem_cons_self ..)))
      (List.forall_mem_map.mpr fun child member =>
        ihRest child member (confined.child (List.mem_cons_of_mem _ member)))
  | many child ih => exact Matcher.keeps_many lasting (ih (confined.child (List.mem_singleton_self _))) limit
  | sepBy item separator ihItem ihSeparator =>
    exact Matcher.keeps_sepBy lasting (ihItem (confined.child (List.mem_cons_self ..)))
      (ihSeparator (confined.child (List.mem_cons_of_mem _ (List.mem_singleton_self _)))) limit
  | observed observer child ih =>
    exact Matcher.keeps_observed lasting (basic.visited observer) (ih (confined.child (List.mem_singleton_self _)))
  | ref address => exact calls address confined.here
  | unpatched rule => exact basic.placeholders confined.here
  | foreign kind => exact basic.rejects confined.here

/-- Calls of known parsers keep a property, within any limit. -/
theorem Store.Confined.call_keeps {store : Store} (confined : store.Confined actions known refusals)
    (basic : Run.Basic holds source actions refusals) (limit : Nat) {address : Address} (member : known address) :
    (store.call limit address).Keeps holds source := by
  induction limit generalizing address with
  | zero => exact fun _ => basic.unfinished
  | succ limit ih =>
    cases stored : store.body? address with
    | none => rw [call_of_none stored]; exact fun _ => basic.unfinished
    | some body =>
      rw [call_of_body stored]
      exact (confined address body member stored).keeps basic fun _ known => ih known

end Parses

/-! ## Look-ups and resolution -/

/-- A fault is another one than the use of a rule that is not installed. -/
def Fault.Other (cause : Fault) : Prop := cause.errorClass ≠ .unpatchedRule

@[simp]
theorem Fault.other_iff {cause : Fault} : cause.Other ↔ ∀ rule, cause ≠ .unpatchedRule rule := by
  cases cause <;> simp [Other, errorClass]

theorem Grammar.other_of_access {grammar : Grammar} {access : Access} {name : String} {cause : Fault}
    (failed : grammar.access access name = .error cause) : cause.Other := by
  cases access with
  | member =>
    simp only [Grammar.access, member] at failed
    repeat' split at failed
    all_goals cases failed
    all_goals simp
  | item =>
    simp only [Grammar.access, item] at failed
    split at failed
    all_goals cases failed
    simp

theorem Bindings.other_of_grammar {bindings : Bindings} {name : String} {cause : Fault}
    (failed : bindings.grammar name = .error cause) : cause.Other := by
  simp only [grammar] at failed
  split at failed
  all_goals cases failed
  simp

theorem Bindings.other_of_address {bindings : Bindings} {target : Target} {cause : Fault}
    (failed : bindings.address target = .error cause) : cause.Other := by
  cases target with
  | bound name =>
    simp only [address] at failed
    split at failed
    all_goals cases failed
    simp
  | rule grammar name access =>
    simp only [address, bind, Except.bind] at failed
    cases found : bindings.grammar grammar with
    | error other =>
      rw [found] at failed
      cases failed
      exact other_of_grammar found
    | ok bound =>
      rw [found] at failed
      dsimp only at failed
      cases member : bound.access access name with
      | error other =>
        rw [member] at failed
        cases failed
        exact Grammar.other_of_access member
      | ok member' =>
        rw [member] at failed
        cases member'
        all_goals cases failed
        all_goals simp

/-- A lasting property holds of a look-up, if it holds where the look-up fails. -/
theorem Run.Lasting.ofExcept {α : Type} {holds : ∀ {α : Type}, Run α → Prop} (lasting : Run.Lasting holds)
    {found : Except Fault α} (stops : ∀ cause, found = .error cause → holds (Run.stop cause : Run α)) :
    holds (Run.ofExcept found) := by
  cases found with
  | ok answer => exact lasting.pure answer
  | error cause => exact stops cause rfl

section Resolution

variable {holds : ∀ {α : Type}, Run α → Prop} (lasting : Run.Lasting holds)
  (stops : ∀ {α : Type} {cause : Fault}, cause.Other → holds (Run.stop cause : Run α)) {scope : Scope}
include lasting stops

theorem Scope.nameOf_keeps (resolved : Resolved) : holds (scope.nameOf resolved) := by
  cases resolved with
  | existing address => exact lasting.pure _
  | fresh name body => exact lasting.pure _
  | foreign kind => exact stops (by simp)

theorem Scope.rule_keeps (name : String) (access : Access) : holds (scope.rule name access) := by
  refine lasting.bind (lasting.ofExcept fun cause failed => stops (Grammar.other_of_access failed)) fun member => ?_
  cases member <;> exact lasting.pure _

namespace Expression

/-- The early parse that a node asks for has a property. -/
def EarlyParse (holds : ∀ {α : Type}, Run α → Prop) (scope : Scope) : Expression → Prop
  | .early name access source pos _ => holds (scope.parseEarly name access source pos)
  | _ => True

omit stops in
theorem resolveAll_keeps {children : List Expression} (each : ∀ child ∈ children, holds (child.resolve scope)) :
    holds (resolveAll scope children) := by
  induction children with
  | nil => exact lasting.pure _
  | cons child rest ih =>
    refine lasting.bind (each child (List.mem_cons_self ..)) fun resolved => ?_
    exact lasting.bind (ih fun other member => each other (List.mem_cons_of_mem _ member)) fun _ => lasting.pure _

/-- The resolution of an expression has a property that all its early parses have, and every fault but the use
of a rule that is not installed. -/
theorem resolve_keeps {expression : Expression} (early : Tree.Every children (EarlyParse holds scope) expression) :
    holds (expression.resolve scope) := by
  induction expression with
  | literal _ | nothing | whitespace | integer | float | fixed _ _ | foreign _ => exact lasting.pure _
  | pattern flags text label =>
    have compiled : holds (compile flags text) := by
      simp only [compile]
      split
      · exact lasting.pure _
      · exact stops (by simp)
    exact lasting.bind compiled fun _ => lasting.pure _
  | map child _ ih =>
    refine lasting.bind (ih (early.child (List.mem_singleton_self _))) fun resolved => ?_
    exact lasting.bind (scope.nameOf_keeps lasting stops resolved) fun _ => lasting.pure _
  | many child ih | optional child ih | observed _ _ child ih =>
    exact lasting.bind (ih (early.child (List.mem_singleton_self _))) fun _ => lasting.pure _
  | sequence children ih =>
    refine lasting.bind (resolveAll_keeps lasting fun child member => ih child member (early.child member))
      fun trees => lasting.bind ?_ fun _ => lasting.pure _
    cases trees with
    | nil => exact stops (by simp)
    | cons first rest => exact lasting.pure _
  | choice children ih =>
    refine lasting.bind (resolveAll_keeps lasting fun child member => ih child member (early.child member))
      fun trees => lasting.bind ?_ fun _ => lasting.pure _
    cases trees with
    | nil => exact stops (by simp)
    | cons first rest => exact lasting.pure _
  | sepBy item separator ihItem ihSeparator =>
    refine lasting.bind (ihItem (early.child (by simp [children]))) fun _ => ?_
    exact lasting.bind (ihSeparator (early.child (by simp [children]))) fun _ => lasting.pure _
  | takeMid opening child closing ihOpening ihChild ihClosing =>
    refine lasting.bind (ihOpening (early.child (by simp [children]))) fun _ => ?_
    refine lasting.bind (ihChild (early.child (by simp [children]))) fun _ => ?_
    exact lasting.bind (ihClosing (early.child (by simp [children]))) fun _ => lasting.pure _
  | existing target =>
    exact lasting.bind (lasting.ofExcept fun cause failed => stops (Bindings.other_of_address failed))
      fun _ => lasting.pure _
  | rule name access => exact scope.rule_keeps lasting stops name access
  | early name access source pos next ih =>
    exact lasting.bind early.here fun _ => ih (early.child (List.mem_singleton_self _))

end Expression

end Resolution

end RecursiveDescent
