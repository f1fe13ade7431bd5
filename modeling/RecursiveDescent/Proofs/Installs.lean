import RecursiveDescent.Proofs.Inlining
import RecursiveDescent.Proofs.RuleEquations
import RecursiveDescent.Proofs.Sessions

/-! # Installing into a parser

What a parser does can be replaced, by a copy of what another one does or by a reference that follows it. Whoever
holds the parser sees the change, at whatever depth, and nobody else does. A copy is a snapshot: it stays what it is
until something is installed into its own place again. A reference follows the other parser through all changes.
-/

namespace RecursiveDescent

namespace Store

variable {store other : Store} {address : Address} {body : Parser}

/-- A store is another one with a body put at an address. -/
def Puts (store other : Store) (address : Address) (body : Parser) : Prop :=
  ∀ place, other.body? place = if address = place then some body else store.body? place

namespace Puts

variable (puts : store.Puts other address body)
include puts

theorem here : other.body? address = some body := by rw [puts, if_pos rfl]

theorem elsewhere {place : Address} (apart : place ≠ address) : other.body? place = store.body? place := by
  rw [puts, if_neg apart.symm]

/-- What does not come to the address parses as before. -/
theorem parses_of_apart {parser : Parser} (apart : ¬store.Reaches (.ref address) parser) (source : Source) (pos : Int)
    (run : Run Result) : other.Parses parser source pos run ↔ store.Parses parser source pos run := by
  symm
  apply parses_congr
  intro place reached
  rw [puts.elsewhere fun same => apart (same ▸ reached)]

/-- Another place with what the address held before is not affected, if that does not come to the address. -/
theorem parses_of_copy {place : Address} (distinct : place ≠ address) (copy : store.body? place = store.body? address)
    (apart : ∀ old, store.body? address = some old → ¬store.Reaches (.ref address) old) (source : Source) (pos : Int)
    (run : Run Result) : other.Parses (.ref place) source pos run ↔ store.Parses (.ref place) source pos run := by
  apply puts.parses_of_apart
  intro reached
  rcases reached.of_ref with same | ⟨old, stored, inner⟩
  · exact distinct (Parser.ref.inj same).symm
  · exact apart old (copy ▸ stored) inner

/-- Parses are those of the store before, with the body in the place of all references to the address, unless the
body refers to that address itself. -/
theorem parses_former_iff (outside : ¬Tree.Part Parser.children (.ref address) body) (parser : Parser)
    (source : Source) (pos : Int) (run : Run Result) :
    other.Parses parser source pos run ↔
      (store.inline address body).Parses (parser.inline address body) source pos run := by
  rw [parses_inline_iff puts.here]
  -- No reference to the address is left, so that what is stored there is of no account.
  have closed : (other.inline address body).Confined (fun _ => True) (· ≠ address) fun _ => True := by
    intro place tree _ stored
    rw [inline, mapBodies_body?] at stored
    obtain ⟨old, _, rfl⟩ := Option.map_eq_some_iff.mp stored
    exact Parser.confined_inline outside old
  apply parses_congr
  intro place reached
  have apart : place ≠ address := closed.known_of_reaches (Parser.confined_inline outside parser) reached
  rw [inline, inline, mapBodies_body?, mapBodies_body?, puts.elsewhere apart]

end Puts

end Store

namespace Session

variable {session next later : Session} {address place : Address} {body : Parser}

/-! ## Steps that spare a parser -/

/-- Steps lead from one session to another, whatever becomes of each, and none of them installs anything into the
parser at an address. -/
inductive Spares (address : Address) (session : Session) : Session → Prop
  | refl : Spares address session session
  | step {middle : Session} {step : Step} (earlier : Spares address session middle)
      (elsewhere : ∀ target origin how, step = .install target origin how →
        middle.bindings.address target ≠ .ok address) :
      Spares address session (middle.next (middle.step step))

theorem Spares.reachable (spares : session.Spares address later) (reachable : session.Reachable fun _ => True) :
    later.Reachable fun _ => True := by
  induction spares with
  | refl => exact reachable
  | step _ _ ih => exact ih.next trivial

/-- One change keeps what is stored at an address, unless it is an installation there. -/
theorem Change.keeps_body {step : Step} (change : session.Change step next)
    (within : session.bindings.Within session.store)
    (elsewhere : ∀ target origin how, step = .install target origin how →
      session.bindings.address target ≠ .ok address)
    (stored : session.store.body? address = some body) : next.store.body? address = some body := by
  cases change with
  | unchanged => exact stored
  | bound => exact stored
  | @added name definition label tree resolved =>
    change (session.store.add label tree).body? address = some body
    have distinct : address ≠ session.store.cells.size := Nat.ne_of_lt (Store.body?_of_lt stored)
    rw [Store.add_body?, if_neg distinct, stored]
  | built success =>
    have kept := (Grammar.underway_of_build within success).kept address (Store.body?_of_lt stored)
    exact kept.trans stored
  | @installed target origin how place source there here =>
    change (transfer session.store place source how).body? address = some body
    have distinct : place ≠ address := fun same => elsewhere target origin how rfl (same ▸ there)
    rw [transfer_body? (within target place there) (within origin source here), if_neg distinct, stored]

/-- What is stored at an address outlasts all steps that spare it. -/
theorem Spares.keeps_body (spares : session.Spares address later) (reachable : session.Reachable fun _ => True)
    (stored : session.store.body? address = some body) : later.store.body? address = some body := by
  induction spares with
  | refl => exact stored
  | @step middle step earlier elsewhere ih =>
    have sound : middle.Sound fun _ => True :=
      ((earlier.reachable reachable).mono fun step _ => step.applies_all).sound trivial
    rcases middle.next_eq_or_change step with same | change
    · rw [same]
      exact ih
    · exact change.keeps_body sound.within elsewhere ih

/-! ## Installations -/

/-- What a copy of a body amounts to that was installed at an address, in a session before and after. -/
structure Snapshot (session copied : Session) (address : Address) (body : Parser) : Prop where
  /-- Whatever holds the parser at the address, at any depth, parses as with the body in its place. -/
  holders : ∀ parser source pos run, copied.store.Parses parser source pos run ↔
    (copied.store.inline address body).Parses (parser.inline address body) source pos run
  /-- The same with what was stored before, unless the body refers to the address itself. -/
  former : ¬Tree.Part Parser.children (.ref address) body → ∀ parser source pos run,
    copied.store.Parses parser source pos run ↔
      (session.store.inline address body).Parses (parser.inline address body) source pos run
  /-- Whatever does not come to the address parses as before. -/
  others : ∀ parser, ¬session.store.Reaches (.ref address) parser → ∀ source pos run,
    copied.store.Parses parser source pos run ↔ session.store.Parses parser source pos run
  /-- So do earlier copies of what was there, if that does not come to the address. -/
  copies : ∀ place, place ≠ address → session.store.body? place = session.store.body? address →
    (∀ old, session.store.body? address = some old → ¬session.store.Reaches (.ref address) old) →
      ∀ source pos run, copied.store.Parses (.ref place) source pos run ↔
        session.store.Parses (.ref place) source pos run
  /-- Nothing but a further installation at the address takes the body away. -/
  lasting : ∀ later, copied.Spares address later → later.store.body? address = some body

/-- A copy is bound late by those who hold its target, and is a snapshot of its origin; a reference has the runs of
its origin, whatever is installed elsewhere. -/
theorem install_copies_or_follows (reachable : session.Reachable fun _ => True) {target origin : Target}
    {address source : Address} (there : session.bindings.address target = .ok address)
    (here : session.bindings.address origin = .ok source) :
    (∃ body copied, session.store.body? source = some body ∧
      (session.step (.install target origin .copy)).outcome = .value (copied, .done) ∧
      session.Snapshot copied address body) ∧
    ∃ followed, (session.step (.install target origin .delegate)).outcome = .value (followed, .done) ∧
      ∀ later, followed.Spares address later → ∀ text pos run,
        later.store.Parses (.ref address) text pos run ↔ later.store.Parses (.ref source) text pos run := by
  have sound : session.Sound fun _ => True := (reachable.mono fun step _ => step.applies_all).sound trivial
  obtain ⟨body, stored⟩ := session.store.body?_isSome (sound.within origin source here)
  have installed (how : Transfer) : Session.Reachable (fun _ => True)
      { session with store := transfer session.store address source how } := by
    have next : (session.next (session.step (.install target origin how))).Reachable fun _ => True :=
      reachable.next trivial
    simpa only [Session.next, step_install there here how] using next
  have puts {how : Transfer} {tree : Parser} (made : how.body? session.store source = some tree) :
      session.store.Puts (transfer session.store address source how) address tree := by
    intro place
    rw [transfer_body? (sound.within target address there) (sound.within origin source here), made]
  constructor
  · have copies : session.store.Puts (transfer session.store address source .copy) address body := puts stored
    exact ⟨body, _, stored, step_install there here .copy,
      { holders := Store.parses_inline_iff copies.here
        former := copies.parses_former_iff
        others := fun _ => copies.parses_of_apart
        copies := fun _ => copies.parses_of_copy
        lasting := fun later spares => spares.keeps_body (installed .copy) copies.here }⟩
  · have follows : session.store.Puts (transfer session.store address source .delegate) address (.ref source) :=
      puts rfl
    refine ⟨_, step_install there here .delegate, fun later spares text pos run => ?_⟩
    exact Store.parses_ref_iff (spares.keeps_body (installed .delegate) follows.here) text pos run

/-- One letter is installed into another, which a repetition holds. -/
theorem letters_copied_or_followed : ∃ session : Session, (session.Reachable fun _ => True) ∧
    session.bindings.address (.bound "letter") = .ok 0 ∧ session.bindings.address (.bound "other") = .ok 1 ∧
    session.bindings.address (.bound "word") = .ok 2 ∧ session.store.body? 2 = some (.many (.ref 0)) ∧
    (∃ body copied, session.store.body? 1 = some body ∧
      (session.step (.install (.bound "letter") (.bound "other") .copy)).outcome = .value (copied, .done) ∧
      session.Snapshot copied 0 body) ∧
    ∃ followed, (session.step (.install (.bound "letter") (.bound "other") .delegate)).outcome =
        .value (followed, .done) ∧
      ∀ later, followed.Spares 0 later → ∀ text pos run,
        later.store.Parses (.ref 0) text pos run ↔ later.store.Parses (.ref 1) text pos run := by
  let steps : List Step := [.bind "letter" (.literal "a"), .bind "other" (.literal "b"),
    .bind "word" (.many (.existing (.bound "letter")))]
  have reachable : (Session.empty.after steps).Reachable fun _ => True := Reachable.empty.after fun _ _ => trivial
  exact ⟨_, reachable, rfl, rfl, rfl, rfl, install_copies_or_follows reachable rfl rfl⟩

end Session

end RecursiveDescent
