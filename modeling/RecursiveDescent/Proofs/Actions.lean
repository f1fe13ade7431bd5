import RecursiveDescent.Proofs.Lockstep
import RecursiveDescent.Proofs.Reachability

/-! # Parsers with other actions

`Parser.withActions` changes the actions of a parser and leaves everything else. Two such changes of one parser are
run in lockstep, on one source or on two, where the actions that they make of each action are, and the leaves are.
-/

namespace RecursiveDescent

namespace Parser

mutual

/-- A parser with its actions changed. -/
def withActions (change : Action → Action) : Parser → Parser
  | .map child action => .map (child.withActions change) (change action)
  | .sequence children => .sequence (allWithActions change children)
  | .choice first rest => .choice (first.withActions change) (allWithActions change rest)
  | .many child => .many (child.withActions change)
  | .sepBy item separator => .sepBy (item.withActions change) (separator.withActions change)
  | .observed observer child => .observed observer (child.withActions change)
  | leaf => leaf

def allWithActions (change : Action → Action) : List Parser → List Parser
  | [] => []
  | child :: rest => child.withActions change :: allWithActions change rest

end

variable {change : Action → Action}

theorem allWithActions_eq_map (change : Action → Action) (children : List Parser) :
    allWithActions change children = children.map (withActions change) := by
  induction children with
  | nil => rfl
  | cons child rest ih => simp only [allWithActions, ih, List.map_cons]

theorem withActions_ne_foreign {parser : Parser} (apart : ∀ kind, parser ≠ .foreign kind) (kind : String) :
    parser.withActions change ≠ .foreign kind := by
  cases parser with
  | foreign other => exact (apart other rfl).elim
  | _ => simp [withActions]

/-- A parser is not changed by a change of other actions than its own. -/
theorem Confined.withActions_eq {actions : Action → Prop} {known : Address → Prop} {refusals : Fault → Prop}
    (fixes : ∀ action, actions action → change action = action) {parser : Parser}
    (confined : parser.Confined actions known refusals) : parser.withActions change = parser := by
  have same {children : List Parser} (each : ∀ child ∈ children, child.withActions change = child) :
      allWithActions change children = children := by
    rw [allWithActions_eq_map]
    exact (List.map_congr_left each).trans (List.map_id _)
  induction parser with
  | literal _ | pattern _ _ | nothing | integer | float | fixed _ | unpatched _ | foreign _ | ref _ => rfl
  | map child action ih =>
    simp only [withActions, ih (confined.child (List.mem_singleton_self _)), fixes action confined.here]
  | many child ih | observed _ child ih =>
    simp only [withActions, ih (confined.child (List.mem_singleton_self _))]
  | sepBy item separator ihItem ihSeparator =>
    simp only [withActions, ihItem (confined.child (List.mem_cons_self ..)),
      ihSeparator (confined.child (List.mem_cons_of_mem _ (List.mem_singleton_self _)))]
  | sequence children ih =>
    simp only [withActions, same fun child member => ih child member (confined.child member)]
  | choice first rest ihFirst ihRest =>
    simp only [withActions, ihFirst (confined.child (List.mem_cons_self ..)),
      same fun child member => ihRest child member (confined.child (List.mem_cons_of_mem _ member))]

@[simp] theorem withActions_id (parser : Parser) : parser.withActions id = parser :=
  parser.confined_all.withActions_eq fun _ _ => rfl

end Parser

def Store.withActions (store : Store) (change : Action → Action) : Store := store.mapBodies (Parser.withActions change)

theorem Store.withActions_body? (store : Store) (change : Action → Action) (address : Address) :
    (store.withActions change).body? address = (store.body? address).map (Parser.withActions change) :=
  store.mapBodies_body? _ address

@[simp] theorem Store.call_withActions_id (store : Store) (limit : Nat) :
    (store.withActions id).call limit = store.call limit := by
  apply call_of_body?_eq
  intro address
  cases stored : store.body? address <;> simp [withActions_body?, stored]

namespace Lockstep

variable {steps : Lockstep} {source other : Source} {change alternative : Action → Action} {known : Address → Prop}

/-- What lockstep asks of a single node, if its action is changed in two ways. Leaves are run in lockstep with
themselves, and so are the actions that are made of the action. -/
def Allows (steps : Lockstep) (source other : Source) (change alternative : Action → Action)
    (known : Address → Prop) : Parser → Prop
  | .literal expected => steps.Matches source other (Matcher.literal expected) (Matcher.literal expected)
  | .pattern tree label => steps.Matches source other (Matcher.pattern tree label) (Matcher.pattern tree label)
  | .integer => steps.Matches source other Lexeme.integer Lexeme.integer
  | .float => steps.Matches source other Lexeme.float Lexeme.float
  | .map _ action => ∀ {value value' span span'}, steps.value value value' → steps.Spans span span' →
      steps.Runs steps.value (change action value span) (alternative action value' span')
  | .fixed result => steps.Results result result
  | .ref address => known address
  | _ => True

/-- Two changes of a tree are run in lockstep if its nodes allow it and the calls that it makes are. -/
theorem Lawful.matches_parser (lawful : steps.Lawful source other) {limit : Nat} {call follow : Address → Matcher}
    (calls : ∀ address, known address → steps.Matches source other (call address) (follow address)) {parser : Parser}
    (allows : Tree.Every Parser.children (steps.Allows source other change alternative known) parser) :
    steps.Matches source other ((parser.withActions change).matcher limit call)
      ((parser.withActions alternative).matcher limit follow) := by
  have all {children : List Parser}
      (each : ∀ child ∈ children, steps.Matches source other ((child.withActions change).matcher limit call)
        ((child.withActions alternative).matcher limit follow)) :
      List.Forall₂ (steps.Matches source other) (Parser.matchers limit call (Parser.allWithActions change children))
        (Parser.matchers limit follow (Parser.allWithActions alternative children)) := by
    simp only [Parser.matchers_eq_map, Parser.allWithActions_eq_map]
    simpa only [List.forall₂_map_left_iff, List.forall₂_map_right_iff, List.forall₂_same] using each
  induction parser with
  | literal _ | pattern _ _ | integer | float => exact allows.here
  | nothing => exact lawful.matches_nothing
  | map child action ih => exact lawful.matches_map allows.here (ih (allows.child (List.mem_singleton_self _)))
  | sequence children ih =>
    exact lawful.matches_sequence (all fun child member => ih child member (allows.child member))
  | choice first rest ihFirst ihRest =>
    apply lawful.matches_choice (ihFirst (allows.child (List.mem_cons_self ..)))
    exact all fun child member => ihRest child member (allows.child (List.mem_cons_of_mem _ member))
  | many child ih => exact lawful.matches_many (ih (allows.child (List.mem_singleton_self _))) limit
  | sepBy item separator ihItem ihSeparator =>
    exact lawful.matches_sepBy (ihItem (allows.child (List.mem_cons_self ..)))
      (ihSeparator (allows.child (List.mem_cons_of_mem _ (List.mem_singleton_self _)))) limit
  | fixed result => exact fun pos place here => lawful.pure allows.here
  | observed observer child ih =>
    exact lawful.matches_observed observer (ih (allows.child (List.mem_singleton_self _)))
  | ref address => exact calls address allows.here
  | unpatched rule => exact fun pos place here => .inr ⟨lawful.logged _, .fault _⟩
  | foreign kind => exact fun pos place here => .inr ⟨lawful.nil, .fault _⟩

/-- Two changes of a store make calls in lockstep if the nodes of its known parsers allow it. -/
theorem Lawful.matches_call (lawful : steps.Lawful source other) {store : Store}
    (allows : ∀ address body, known address → store.body? address = some body →
      Tree.Every Parser.children (steps.Allows source other change alternative known) body)
    (limit : Nat) {address : Address} (member : known address) :
    steps.Matches source other ((store.withActions change).call limit address)
      ((store.withActions alternative).call limit address) := by
  induction limit generalizing address with
  | zero => exact fun pos place here => lawful.unfinished
  | succ limit ih =>
    cases stored : store.body? address with
    | none =>
      have missing (change : Action → Action) : (store.withActions change).body? address = none := by
        rw [Store.withActions_body?, stored, Option.map_none]
      rw [Store.call_of_none (missing _), Store.call_of_none (missing _)]
      exact fun pos place here => lawful.unfinished
    | some body =>
      have present (change : Action → Action) :
          (store.withActions change).body? address = some (body.withActions change) := by
        rw [Store.withActions_body?, stored, Option.map_some]
      rw [Store.call_of_body (present _), Store.call_of_body (present _)]
      exact lawful.matches_parser (fun _ => ih) (allows address body member stored)

end Lockstep

end RecursiveDescent
