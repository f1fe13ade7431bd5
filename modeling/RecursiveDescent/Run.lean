import RecursiveDescent.Event

/-! # Runs

What happens when a parser is invoked: events in the order in which they occurred, and an outcome.
Events that occurred before a fault are kept. Parsers may call one another without end, so a run may
also be left unfinished; that outcome is kept apart from every fault. Runs form a monad, in which the
events of one run come before those of the next.
-/

namespace RecursiveDescent

inductive Outcome (α : Type) where
  | value (answer : α)
  | fault (cause : Fault)
  | unfinished
deriving Inhabited, Repr

/-- The events of a run with its outcome. -/
structure Run (α : Type) where
  events : List Event
  outcome : Outcome α
deriving Inhabited, Repr

namespace Run

variable {α β γ : Type}

def stop (cause : Fault) : Run α := ⟨[], .fault cause⟩

def unfinished : Run α := ⟨[], .unfinished⟩

def emit (event : Event) : Run Unit := ⟨[event], .value ()⟩

def after (events : List Event) (run : Run α) : Run α := ⟨events ++ run.events, run.outcome⟩

/-- Go on with the answer of a run; anything else ends both. -/
def andThen (first : Run α) (next : α → Run β) : Run β :=
  match first.outcome with
  | .value answer => (next answer).after first.events
  | .fault cause => ⟨first.events, .fault cause⟩
  | .unfinished => ⟨first.events, .unfinished⟩

instance : Monad Run where
  pure answer := ⟨[], .value answer⟩
  bind := andThen

/-- The answer of a look-up, or its fault. -/
def ofExcept : Except Fault α → Run α
  | .ok answer => pure answer
  | .error cause => stop cause

@[simp] theorem pure_events (answer : α) : (pure answer : Run α).events = [] := rfl

@[simp] theorem pure_outcome (answer : α) : (pure answer : Run α).outcome = .value answer := rfl

@[simp] theorem after_nil (run : Run α) : run.after [] = run := rfl

theorem after_append (first second : List Event) (run : Run α) :
    run.after (first ++ second) = (run.after second).after first := by
  simp [after]

theorem after_bind (events : List Event) (run : Run α) (next : α → Run β) :
    run.after events >>= next = (run >>= next).after events := by
  obtain ⟨own, outcome⟩ := run
  cases outcome <;> simp [bind, andThen, after]

/-- A run that answers goes on with the next run, after its own events. -/
theorem bind_of_value {run : Run α} {answer : α} (answered : run.outcome = .value answer)
    (next : α → Run β) : run >>= next = (next answer).after run.events := by
  simp only [bind, andThen, answered]

@[simp] theorem stop_bind (cause : Fault) (next : α → Run β) : stop cause >>= next = stop cause := rfl

@[simp] theorem unfinished_bind (next : α → Run β) : unfinished >>= next = unfinished := rfl

instance : LawfulMonad Run :=
  LawfulMonad.mk' Run
    (fun run => by
      obtain ⟨events, outcome⟩ := run
      cases outcome <;> simp [Functor.map, andThen, after])
    (fun answer next => after_nil (next answer))
    (fun run next last => by
      obtain ⟨events, outcome⟩ := run
      cases outcome with
      | value answer => exact after_bind events (next answer) last
      | fault cause => rfl
      | unfinished => rfl)

end Run

end RecursiveDescent
