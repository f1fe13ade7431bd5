import RecursiveDescent.Proofs.Parts

/-! # What a parse depends on

A parse looks at the tree that it begins with, at what is stored at the addresses that occur in it, and so on.
`Store.Reaches` says which parsers it may come to. Nothing else in the store has any influence: where two stores
agree on all addresses that are reached, every run is the same.
-/

namespace RecursiveDescent

/-- One parser is reached from another: it is a part of it, or is reached from what is stored where a part of it
refers to. -/
inductive Store.Reaches (store : Store) (part : Parser) : Parser → Prop
  | here : Reaches store part part
  | child {child whole : Parser} (member : child ∈ whole.children) (inner : Reaches store part child) :
      Reaches store part whole
  | call {address : Address} {body : Parser} (stored : store.body? address = some body)
      (inner : Reaches store part body) : Reaches store part (.ref address)

namespace Store.Reaches

variable {store other : Store} {part middle whole : Parser} {address : Address}

theorem trans (first : store.Reaches part middle) (second : store.Reaches middle whole) : store.Reaches part whole := by
  induction second with
  | here => exact first
  | child member _ ih => exact .child member ih
  | call stored _ ih => exact .call stored ih

/-- Whatever reaches a parser reaches its children. -/
theorem of_child (reaches : store.Reaches middle whole) (child : Parser) (member : child ∈ middle.children) :
    store.Reaches child whole :=
  (Reaches.child member .here).trans reaches

theorem of_part (within : Tree.Part Parser.children part whole) : store.Reaches part whole := by
  induction within with
  | whole => exact .here
  | within member _ ih => exact .child member ih

/-- What is reached through one address is reached from what is stored there, unless it is the reference itself. -/
theorem of_ref (reaches : store.Reaches part (.ref address)) :
    part = .ref address ∨ ∃ body, store.body? address = some body ∧ store.Reaches part body := by
  cases reaches with
  | here => exact .inl rfl
  | child member _ => cases member
  | call stored inner => exact .inr ⟨_, stored, inner⟩

end Store.Reaches

/-- From confined parsers, known addresses are reached and no others. -/
theorem Store.Confined.known_of_reaches {store : Store} {actions : Action → Prop} {known : Address → Prop}
    {refusals : Fault → Prop} (closed : store.Confined actions known refusals) {parser : Parser} {address : Address}
    (confined : parser.Confined actions known refusals) (reaches : store.Reaches (.ref address) parser) :
    known address := by
  induction reaches with
  | here => exact confined.here
  | child member _ ih => exact ih (confined.child member)
  | call stored _ ih => exact ih (closed _ _ confined.here stored)

/-- The matcher of a tree depends on the calls that it may make, and on no others. -/
theorem Parser.Confined.matcher_congr {actions : Action → Prop} {known : Address → Prop} {refusals : Fault → Prop}
    {limit : Nat} {call other : Address → Matcher} (agree : ∀ address, known address → call address = other address)
    {parser : Parser} (confined : parser.Confined actions known refusals) :
    parser.matcher limit call = parser.matcher limit other := by
  induction parser with
  | literal _ | pattern _ _ | nothing | integer | float | fixed _ | unpatched _ | foreign _ => rfl
  | map child _ ih | many child ih | observed _ child ih =>
    simp only [matcher, ih (confined.child (List.mem_singleton_self _))]
  | sepBy item separator ihItem ihSeparator =>
    simp only [matcher, ihItem (confined.child (List.mem_cons_self ..)),
      ihSeparator (confined.child (List.mem_cons_of_mem _ (List.mem_singleton_self _)))]
  | sequence children ih =>
    simp only [matcher, matchers_eq_map]
    exact congrArg Matcher.sequence (List.map_congr_left fun child member => ih child member (confined.child member))
  | choice first rest ihFirst ihRest =>
    simp only [matcher, matchers_eq_map, ihFirst (confined.child (List.mem_cons_self ..))]
    exact congrArg (Matcher.choice _)
      (List.map_congr_left fun child member => ihRest child member (confined.child (List.mem_cons_of_mem _ member)))
  | ref address => exact agree address confined.here

namespace Store

variable {store other : Store}

/-- Calls of known parsers are the same in two stores that agree on these. -/
theorem Confined.call_congr {actions : Action → Prop} {known : Address → Prop} {refusals : Fault → Prop}
    (confined : store.Confined actions known refusals)
    (agree : ∀ address, known address → store.body? address = other.body? address) (limit : Nat) {address : Address}
    (member : known address) : store.call limit address = other.call limit address := by
  induction limit generalizing address with
  | zero => rfl
  | succ limit ih =>
    cases stored : store.body? address with
    | none => rw [call_of_none stored, call_of_none ((agree address member).symm.trans stored)]
    | some body =>
      rw [call_of_body stored, call_of_body ((agree address member).symm.trans stored)]
      exact (confined address body member stored).matcher_congr fun _ => ih

theorem confined_all (store : Store) : store.Confined (fun _ => True) (fun _ => True) fun _ => True :=
  fun _ body _ _ => body.confined_all

/-- In two stores that hold the same, all calls are the same. -/
theorem call_of_body?_eq (agree : ∀ address, store.body? address = other.body? address) (limit : Nat) :
    store.call limit = other.call limit :=
  funext fun _ => store.confined_all.call_congr (fun address _ => agree address) limit trivial

/-- A parse is the same in two stores that agree on all addresses that it may come to. -/
theorem parses_congr {parser : Parser}
    (agree : ∀ address, store.Reaches (.ref address) parser → store.body? address = other.body? address)
    (source : Source) (pos : Int) (run : Run Result) :
    store.Parses parser source pos run ↔ other.Parses parser source pos run := by
  let reached (address : Address) : Prop := store.Reaches (.ref address) parser
  have confined {whole : Parser} (inner : store.Reaches whole parser) :
      whole.Confined (fun _ => True) reached fun _ => True := by
    intro part within
    cases part with
    | ref address => exact (Reaches.of_part within).trans inner
    | _ => trivial
  have closed : store.Confined (fun _ => True) reached fun _ => True :=
    fun address body member stored => confined ((Reaches.call stored .here).trans member)
  have same (limit : Nat) : parser.matcher limit (store.call limit) = parser.matcher limit (other.call limit) :=
    (confined .here).matcher_congr fun _ => closed.call_congr agree limit
  simp only [Parses, same]

end Store

end RecursiveDescent
