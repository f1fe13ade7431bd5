import RecursiveDescent.Proofs.PatternTexts
import RecursiveDescent.Proofs.RunProperties
import RecursiveDescent.Proofs.Sessions
import RecursiveDescent.Proofs.Termination

/-! # Parses answer, unless an integer is too long

A mismatch is an answer, and nothing else stops a parse over standard definitions whose actions return: there
are no placeholders left to call, no combinator looks for an item that a value does not have, and conversions of
matched numerals succeed, with one exception. An integer literal has no bound in length, but its conversion has;
so there is one fault with which such a parse can stop, and sources that have it.
-/

namespace RecursiveDescent

/-! ## Values that combinators look into -/

namespace Matcher

variable {child item separator : Matcher} {children : List Matcher} {source : Source} {pos : Int}

theorem chain_length {all : Chain} (answered : (chain source children pos).outcome = .value (.ok all)) :
    all.values.length = children.length := by
  induction children generalizing pos all with
  | nil => cases answered; rfl
  | cons child rest ih =>
    obtain ⟨result, _, answered⟩ := Run.bind_outcome.mp answered
    cases result with
    | failure missed => cases answered
    | success found =>
      obtain ⟨tail, others, answered⟩ := Run.bind_outcome.mp answered
      cases tail with
      | error missed => cases answered
      | ok chained => cases answered; exact congrArg (· + 1) (ih others)

/-- The value of a sequence is a list with one item for each child, so that the second of three can be taken. -/
theorem sequence_value {found : Success}
    (answered : (sequence children source pos).outcome = .value (.success found)) :
    ∃ values, found.value = .list values ∧ values.length = children.length := by
  obtain ⟨tail, chained, answered⟩ := Run.bind_outcome.mp answered
  cases tail with
  | error missed => cases answered
  | ok all => cases answered; exact ⟨_, rfl, chain_length chained⟩

/-- The values that a loop collects are values of its child. -/
theorem rounds_values {holds : Value → Prop}
    (each : ∀ pos found, (child source pos).outcome = .value (.success found) → holds found.value) {limit : Nat}
    {all : Chain} (answered : (rounds child source limit pos).outcome = .value all) :
    ∀ value ∈ all.values, holds value := by
  induction limit generalizing pos all with
  | zero => cases answered
  | succ limit ih =>
    rw [rounds] at answered
    split at answered
    · obtain ⟨result, matched, answered⟩ := Run.bind_outcome.mp answered
      cases result with
      | failure missed => cases answered; exact List.forall_mem_nil _
      | success found =>
        dsimp only at answered
        split at answered
        · cases answered; exact List.forall_mem_nil _
        · obtain ⟨tail, others, answered⟩ := Run.bind_outcome.mp answered
          cases answered
          exact List.forall_mem_cons.mpr ⟨each pos found matched, ih others⟩
    · cases answered; exact List.forall_mem_nil _

/-- In a list with separators, the values that the loop collects are pairs, so that the second can be taken. -/
theorem sepBy_pairs {limit : Nat} {all : Chain}
    (answered : (rounds (sequence [separator, item]) source limit pos).outcome = .value all) :
    ∀ value ∈ all.values, ∃ first second, value = .list [first, second] := by
  refine rounds_values (fun pos found matched => ?_) answered
  obtain ⟨values, same, length⟩ := sequence_value matched
  obtain ⟨first, second, rfl⟩ := List.length_eq_two.mp length
  exact ⟨first, second, same⟩

end Matcher

/-! ## Actions that return -/

def Action.Returns (action : Action) : Prop := ∀ value span, ∃ answer, (action value span).outcome = .value answer

theorem Action.Returns.finishes {action : Action} (returns : action.Returns) : action.Finishes := by
  intro value span ended
  obtain ⟨answer, answered⟩ := returns value span
  rw [answered] at ended
  cases ended

theorem Action.returns_middle : Action.Returns Matcher.middle := fun _ _ => ⟨_, rfl⟩

/-! ## Integers that are too long -/

/-- A fault tells of a numeral in the source that has more digits than are converted. -/
def Fault.Overlong (source : Source) (cause : Fault) : Prop :=
  ∃ digits, Lexeme.IsNumeral digits ∧ digits <:+: source.chars.toList ∧ digitLimit < digits.length ∧
    cause = .literalTooLong digits.length

namespace Lexeme

variable {source : Source} {pos : Int}

/-- An integer literal stops a run only where it is too long. -/
theorem overlong_of_fault {cause : Fault} (stopped : (integer source pos).outcome = .fault cause) :
    cause.Overlong source := by
  rcases Run.bind_fault.mp stopped with stopped | ⟨result, answered, stopped⟩
  · simp only [Matcher.pattern] at stopped
    split at stopped <;> cases stopped
  simp only [Matcher.pattern] at answered
  split at answered
  · next stop matched =>
    cases answered
    rcases Run.bind_fault.mp stopped with stopped | ⟨_, _, stopped⟩
    · obtain ⟨negative, digits, after, split, numeral, rfl⟩ := numeral_of_end? matched
      rw [reading, Source.extract_of_rest split, readInteger_eq numeral.unsigned] at stopped
      split_ifs at stopped with long
      · cases stopped
        refine ⟨digits, numeral, ?_, long, rfl⟩
        have within : digits <:+: source.rest (source.clamp pos) := ⟨minus negative, after, split.symm⟩
        exact within.trans (List.drop_suffix _ _).isInfix
    · cases stopped
  · cases answered
    cases stopped

/-- The literal that consists of so many ones, where that is too many, is not read. -/
theorem integer_overlong {count : Nat} (long : Fault.digitLimit < count) :
    integer ⟨(List.replicate count '1').toArray⟩ 0 = .stop (.literalTooLong count) := by
  have numeral : IsNumeral (List.replicate count '1') := by
    cases count with
    | zero => exact absurd long (Nat.not_lt_zero _)
    | succ count => exact isNumeral_ones count
  let source : Source := ⟨(List.replicate count '1').toArray⟩
  have reads : (Matcher.pattern integerTree integerLabel).Reads source
      ((minus false ++ List.replicate count '1') ++ []) []
      (.text (.ofList (minus false ++ List.replicate count '1'))) :=
    Matcher.reads_pattern integerLabel fun start here =>
      integer_end? (here.trans (List.append_assoc ..)) numeral (.inr rfl)
  have whole : source.chars.toList = (minus false ++ List.replicate count '1') ++ [] := by simp [source, minus]
  have begins : source.offset ((minus false ++ List.replicate count '1') ++ []) = 0 := by
    rw [Source.offset, ← whole, Source.size, Array.length_toList, Int.sub_self]
  have matched := reads.succeeds (whole ▸ List.suffix_refl _)
  rw [begins] at matched
  have refused : reading readInteger (.text (.ofList (minus false ++ List.replicate count '1')))
      ⟨0, source.offset []⟩ = .stop (.literalTooLong count) := by
    rw [reading, readInteger_eq numeral.unsigned, List.length_replicate, if_pos long]
  simp only [integer, Matcher.map, Matcher.onSuccess, matched, pure_bind, refused, Run.stop_bind, source]

end Lexeme

/-- Parses with actions that return, and without placeholders, stop at integers that are too long only. -/
theorem Run.overlong_basic (source : Source) :
    Basic (Permits (Fault.Overlong source)) source Action.Returns fun _ => False where
  toLasting := permits_lasting _
  applied returns value span cause stopped := by
    obtain ⟨answer, answered⟩ := returns value span
    rw [answered] at stopped
    cases stopped
  visited _ _ _ := nofun
  integers _ _ := Lexeme.overlong_of_fault
  placeholders := False.elim
  rejects := False.elim

/-! ## Standard parsers without placeholders -/

/-- The placeholders among standard parsers are all that refuses calls. -/
theorem Parser.Standard.confined {actions : Action → Prop} {known : Address → Prop} {parser : Parser}
    (standard : parser.Standard actions known) :
    parser.Confined actions known fun cause => ∃ rule, cause = .unpatchedRule rule := by
  induction standard with
  | literal _ | pattern _ _ | nothing | integer | float =>
    exact Tree.every_of_children trivial (List.forall_mem_nil _)
  | unpatched rule => exact Tree.every_of_children ⟨rule, rfl⟩ (List.forall_mem_nil _)
  | map allowed _ ih => exact Tree.every_of_children allowed (List.forall_mem_singleton.mpr ih)
  | sequence _ ih => exact Tree.every_of_children trivial ih
  | choice _ _ ihFirst ihRest => exact Tree.every_of_children trivial (List.forall_mem_cons.mpr ⟨ihFirst, ihRest⟩)
  | many _ ih | observed _ _ ih => exact Tree.every_of_children trivial (List.forall_mem_singleton.mpr ih)
  | sepBy _ _ ihItem ihSeparator =>
    exact Tree.every_of_children trivial
      (List.forall_mem_cons.mpr ⟨ihItem, List.forall_mem_singleton.mpr ihSeparator⟩)
  | ref member => exact Tree.every_of_children member (List.forall_mem_nil _)

/-- Standard parsers without placeholders refuse no call. -/
theorem Parser.Standard.confined_of_waits {actions others : Action → Prop} {known more : Address → Prop}
    {parser : Parser} (standard : parser.Standard actions known)
    (waits : parser.Confined others more (Fault.Waits fun _ => False)) :
    parser.Confined actions known fun _ => False := by
  intro part within
  have here := standard.confined part within
  have there := waits part within
  cases part with
  | unpatched rule => exact there rule rfl
  | foreign kind =>
    obtain ⟨rule, same⟩ := here
    cases same
  | _ => exact here

namespace Grammar

variable {session : Session} {final : Store} {grammar : Grammar} {definitions : List (String × Expression)}
  {known : Address → Prop} {sure : Address → Bool} {earlier : Address → Nat}

/-- What a parse in the scope of a finished grammar may begin with, a rule or what a standard expression stands for,
is a standard tree without placeholders. -/
theorem Built.standard_confined {bindings : Bindings} {store : Store} {actions : Action → Prop}
    (built : Built bindings store definitions final grammar) (within : bindings.Within store)
    (middle : actions Matcher.middle) {tree : Parser}
    (resolved : (∃ name address, grammar.find? name = some address ∧ tree = .ref address) ∨
      ∃ expression : Expression, expression.Standard actions bindings known ∧
        (expression.parser ⟨final, bindings, grammar⟩).outcome = .value tree) :
    tree.Standard actions (fun address => known address ∨ grammar.owns address = true) ∧
      tree.Confined actions (fun address => known address ∨ grammar.owns address = true) fun _ => False := by
  rcases resolved with ⟨name, address, found, rfl⟩ | ⟨expression, standard, stands⟩
  · have owned := owns_of_mem (mem_of_find? found)
    exact ⟨.ref (.inr owned), Tree.every_of_children (.inr owned) (List.forall_mem_nil _)⟩
  · have standard : tree.Standard actions fun address => known address ∨ grammar.owns address = true :=
      standard.tree middle (fun _ => .inl) (fun _ => .inr) stands
    have grown : store.cells.size ≤ final.cells.size := built.size_eq ▸ Nat.le_add_right _ _
    have placed : tree.Confined (fun _ => True) (· < final.cells.size) (Fault.Waits fun _ => False) :=
      Expression.StandsFor.confined stands expression.applies_all trivial
        (fun target address found => Nat.lt_of_lt_of_le (within target address found) grown)
        fun address owned => (built.owns_iff.mp owned).2
    exact ⟨standard, standard.confined_of_waits placed⟩

/-- A parse over standard definitions without left recursion, the actions of which return, comes to an end: it
answers with a result, unless it stops at a numeral with more digits than are converted. This holds of every
rule, and of every standard tree that may mention rules; with no definitions it speaks of trees alone. -/
theorem answers_unless_overlong (reachable : session.Reachable fun _ => True)
    (before : session.store.Ranked known (sure · = true) earlier)
    (returning : session.store.Standard Action.Returns known)
    (each : ∀ definition ∈ definitions, definition.2.Standard Action.Returns session.bindings known)
    (success : (build session.bindings session.store definitions).outcome = .value (final, grammar))
    (rank : String → Nat)
    (lower : ∀ definition ∈ definitions, ∀ name ∈ definition.2.heads session.bindings sure,
      rank name < rank definition.1)
    (tree : Parser)
    (resolved : (∃ name address, grammar.find? name = some address ∧ tree = .ref address) ∨
      ∃ expression : Expression, expression.Standard Action.Returns session.bindings known ∧
        (expression.parser ⟨final, session.bindings, grammar⟩).outcome = .value tree)
    (source : Source) (pos : Int) (inside : pos ≤ source.size) :
    ∃ run, final.Parses tree source pos run ∧
      ((∃ result, run.outcome = .value result) ∨ ∃ cause, run.outcome = .fault cause ∧ cause.Overlong source) := by
  have sound := (reachable.mono fun step _ => step.applies_all).sound trivial
  have built := built_of_build sound.within success
  have finishing : ∀ definition ∈ definitions, definition.2.Standard Action.Finishes session.bindings known :=
    fun definition member => (each definition member).weaken fun _ => Action.Returns.finishes
  have closed : final.Closed (fun _ => True) fun _ => False :=
    sound.closed_of_build trivial (fun definition _ => definition.2.applies_all) success
  have standard := built.standard Action.returns_middle returning each
  have calm : final.Confined Action.Returns (fun address => known address ∨ grammar.owns address = true)
      fun _ => False :=
    fun address body member stored => (standard address body member stored).confined_of_waits
      (closed address body (Store.body?_of_lt stored) stored)
  obtain ⟨standardTree, confined⟩ := built.standard_confined sound.within Action.returns_middle resolved
  have finishes := standardTree.mono (fun _ => Action.Returns.finishes) fun _ => id
  obtain ⟨ranks, before, bound⟩ := before.bounded
  have ended : (final.matcher tree source pos).Finished :=
    (built.ranked sound.within before finishing lower bound).finished finishes inside
  have stops : Run.Permits (Fault.Overlong source) (final.matcher tree source pos) :=
    confined.keeps (Run.overlong_basic source)
      (fun address member => calm.call_keeps (Run.overlong_basic source) _ member) pos
  refine ⟨_, Store.parses_of_finished ended, ?_⟩
  cases outcome : (final.matcher tree source pos).outcome with
  | value result => exact .inl ⟨result, rfl⟩
  | fault cause => exact .inr ⟨cause, rfl, stops cause outcome⟩
  | unfinished => exact (ended outcome).elim

/-- A list that is not closed is a mismatch, which is an answer. -/
theorem nestedLists_answer : ∃ final grammar address run,
    (build .empty .empty nestedLists).outcome = .value (final, grammar) ∧
      grammar.find? "Top" = some address ∧ final.Parses (.ref address) (.ofString "[1,[]") 0 run ∧
      ((∃ result, run.outcome = .value result) ∨
        ∃ cause, run.outcome = .fault cause ∧ cause.Overlong (.ofString "[1,[]")) := by
  obtain ⟨final, grammar, address, success, top⟩ : ∃ final grammar address,
      (build .empty .empty nestedLists).outcome = .value (final, grammar) ∧ grammar.find? "Top" = some address :=
    ⟨_, _, _, rfl, rfl⟩
  obtain ⟨rank, lower⟩ := nestedLists_ranked
  obtain ⟨run, parses, answers⟩ := answers_unless_overlong .empty Store.empty.ranked_none (fun _ _ => False.elim)
    (nestedLists_standard _) success rank lower (.ref address) (.inl ⟨"Top", address, top, rfl⟩) (.ofString "[1,[]") 0
    (by decide)
  exact ⟨final, grammar, address, run, success, top, parses, answers⟩

/-- The integer that is written as 4301 ones has no answer, neither a match nor a mismatch. -/
theorem ones_have_no_answer :
    (Expression.integer.parser .empty).outcome = .value .integer ∧
      Store.empty.Parses .integer ⟨(List.replicate 4301 '1').toArray⟩ 0 (.stop (.literalTooLong 4301)) ∧
      ¬∃ result, (Store.empty.matcher .integer ⟨(List.replicate 4301 '1').toArray⟩ 0).outcome = .value result := by
  have stops : Lexeme.integer ⟨(List.replicate 4301 '1').toArray⟩ 0 = .stop (.literalTooLong 4301) :=
    Lexeme.integer_overlong (by decide)
  refine ⟨rfl, ⟨nofun, 0, stops⟩, ?_⟩
  rintro ⟨result, answered⟩
  change (Lexeme.integer ⟨(List.replicate 4301 '1').toArray⟩ 0).outcome = .value result at answered
  rw [stops] at answered
  cases answered

end Grammar

end RecursiveDescent
