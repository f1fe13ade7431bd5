import RecursiveDescent.Proofs.Reachability

/-! # Contracts for results

What can be said of the results of parsers is often of one kind: a success spans what lies between the offset of the
attempt and the place where it stopped, and the one is related to the other; a failure has something to do with the
offset. If the relation can be followed from one match to the next, every combinator keeps such a contract, and so
does every standard parser with leaves that keep it. To prove it of a parser is to supply the relation.
-/

namespace RecursiveDescent

/-- What is asked of the results at certain offsets. -/
structure Contract where
  /-- Something is asked at this offset. -/
  applies : Int → Prop
  /-- A success at the first offset may stop at the second. -/
  stops : Int → Int → Prop
  /-- There may be such a failure at this offset. -/
  misses : Int → Failure → Prop
  stops_here {pos : Int} : applies pos → stops pos pos
  stops_later {pos middle stop : Int} : stops pos middle → stops middle stop → stops pos stop
  applies_later {pos stop : Int} : applies pos → stops pos stop → applies stop
  misses_later {pos middle : Int} {missed : Failure} : stops pos middle → misses middle missed → misses pos missed

def Result.Meets (contract : Contract) (pos : Int) : Result → Prop
  | .success found => found.span = ⟨pos, found.pos⟩ ∧ contract.stops pos found.pos
  | .failure missed => contract.misses pos missed

namespace Matcher

variable {contract : Contract} {source : Source} {child item separator first second : Matcher}
  {children rest : List Matcher} {pos : Int}

def Meets (contract : Contract) (source : Source) (matcher : Matcher) : Prop :=
  ∀ pos result, contract.applies pos → (matcher source pos).outcome = .value result → result.Meets contract pos

theorem meets_nothing : nothing.Meets contract source := by
  rintro pos _ applies ⟨⟩
  exact ⟨rfl, contract.stops_here applies⟩

theorem meets_map (action : Action) (meets : child.Meets contract source) :
    (map child action).Meets contract source := by
  intro pos result applies answered
  obtain ⟨middle, matched, answered⟩ := Run.bind_outcome.mp answered
  have met := meets pos middle applies matched
  cases middle with
  | failure missed => cases answered; exact met
  | success found =>
    obtain ⟨value, _, answered⟩ := Run.bind_outcome.mp answered
    cases answered
    exact met

theorem meets_observed (observer : String) (meets : child.Meets contract source) :
    (observed observer child).Meets contract source := by
  intro pos result applies answered
  obtain ⟨_, _, matched⟩ := Run.bind_outcome.mp answered
  exact meets pos result applies matched

/-- A chain stops where its offset is related to, and a failure in it may be one of the whole. -/
theorem meets_chain (meets : ∀ child ∈ children, child.Meets contract source) (applies : contract.applies pos)
    {answer : Except Failure Chain} (answered : (chain source children pos).outcome = .value answer) :
    match answer with
    | .ok all => contract.stops pos all.stop
    | .error missed => contract.misses pos missed := by
  induction children generalizing pos answer with
  | nil => cases answered; exact contract.stops_here applies
  | cons child rest ih =>
    rw [chain] at answered
    obtain ⟨result, matched, answered⟩ := Run.bind_outcome.mp answered
    have met := meets child (List.mem_cons_self ..) pos result applies matched
    cases result with
    | failure missed => cases answered; exact met
    | success found =>
      obtain ⟨_, moved⟩ := met
      obtain ⟨tail, others, answered⟩ := Run.bind_outcome.mp answered
      have further := ih (fun other member => meets other (List.mem_cons_of_mem _ member))
        (contract.applies_later applies moved) others
      cases tail with
      | error missed => cases answered; exact contract.misses_later moved further
      | ok all => cases answered; exact contract.stops_later moved further

theorem meets_sequence (meets : ∀ child ∈ children, child.Meets contract source) :
    (sequence children).Meets contract source := by
  intro pos result applies answered
  obtain ⟨tail, matched, answered⟩ := Run.bind_outcome.mp answered
  have met := meets_chain meets applies matched
  cases tail with
  | error missed => cases answered; exact met
  | ok all => cases answered; exact ⟨rfl, met⟩

theorem meets_orElse (meetsFirst : first.Meets contract source) (meetsSecond : second.Meets contract source) :
    (orElse first second).Meets contract source := by
  intro pos result applies answered
  obtain ⟨tried, matched, answered⟩ := Run.bind_outcome.mp answered
  have met := meetsFirst pos tried applies matched
  cases tried with
  | success found => cases answered; exact met
  | failure missed =>
    obtain ⟨other, matched, answered⟩ := Run.bind_outcome.mp answered
    have later := meetsSecond pos other applies matched
    cases other with
    | success found => cases answered; exact later
    | failure last =>
      cases answered
      simp only [furthest]
      split
      · exact later
      · exact met

theorem meets_choice (meetsFirst : first.Meets contract source) (meets : ∀ child ∈ rest, child.Meets contract source) :
    (choice first rest).Meets contract source := by
  induction rest generalizing first with
  | nil => exact meetsFirst
  | cons second rest ih =>
    exact ih (meets_orElse meetsFirst (meets second (List.mem_cons_self ..)))
      fun child member => meets child (List.mem_cons_of_mem _ member)

/-- Rounds stop where their offset is related to, however many there are. -/
theorem meets_rounds (meets : child.Meets contract source) {limit : Nat} (applies : contract.applies pos) {all : Chain}
    (answered : (rounds child source limit pos).outcome = .value all) : contract.stops pos all.stop := by
  induction limit generalizing pos all with
  | zero => cases answered
  | succ limit ih =>
    rw [rounds] at answered
    split at answered
    · obtain ⟨result, matched, answered⟩ := Run.bind_outcome.mp answered
      have met := meets pos result applies matched
      cases result with
      | failure missed => cases answered; exact contract.stops_here applies
      | success found =>
        dsimp only at answered
        split at answered
        · cases answered; exact contract.stops_here applies
        · obtain ⟨tail, others, answered⟩ := Run.bind_outcome.mp answered
          have further := ih (contract.applies_later applies met.2) others
          cases answered
          exact contract.stops_later met.2 further
    · cases answered; exact contract.stops_here applies

theorem meets_many (limit : Nat) (meets : child.Meets contract source) : (many limit child).Meets contract source := by
  intro pos result applies answered
  obtain ⟨all, matched, answered⟩ := Run.bind_outcome.mp answered
  cases answered
  exact ⟨rfl, meets_rounds meets applies matched⟩

theorem meets_sepBy (limit : Nat) (meetsItem : item.Meets contract source)
    (meetsSeparator : separator.Meets contract source) : (sepBy limit item separator).Meets contract source := by
  intro pos result applies answered
  obtain ⟨head, matched, answered⟩ := Run.bind_outcome.mp answered
  have met := meetsItem pos head applies matched
  cases head with
  | failure missed => cases answered; exact ⟨rfl, contract.stops_here applies⟩
  | success found =>
    obtain ⟨tail, others, answered⟩ := Run.bind_outcome.mp answered
    have pair : (sequence [separator, item]).Meets contract source :=
      meets_sequence (List.forall_mem_cons.mpr ⟨meetsSeparator, List.forall_mem_singleton.mpr meetsItem⟩)
    have further := meets_rounds pair (contract.applies_later applies met.2) others
    cases answered
    exact ⟨rfl, contract.stops_later met.2 further⟩

end Matcher

/-- The leaves that a parser may come to keep a contract. -/
structure Store.LeavesMeet (store : Store) (contract : Contract) (source : Source) (whole : Parser) : Prop where
  literal : ∀ expected, store.Reaches (.literal expected) whole → (Matcher.literal expected).Meets contract source
  pattern : ∀ tree label, store.Reaches (.pattern tree label) whole → (Matcher.pattern tree label).Meets contract source
  integer : store.Reaches .integer whole → Lexeme.integer.Meets contract source
  float : store.Reaches .float whole → Lexeme.float.Meets contract source

variable {store : Store} {contract : Contract} {source : Source} {actions : Action → Prop} {known : Address → Prop}
  {whole : Parser}

/-- The matchers of standard parts of a parser keep a contract, if its leaves and the calls that it makes do. -/
theorem Parser.Standard.meets {limit : Nat} {call : Address → Matcher} {parser : Parser}
    (standard : parser.Standard actions known) (leaves : store.LeavesMeet contract source whole)
    (calls : ∀ address, known address → store.Reaches (.ref address) whole → (call address).Meets contract source)
    (reached : store.Reaches parser whole) : (parser.matcher limit call).Meets contract source := by
  induction standard with
  | literal expected => exact leaves.literal expected reached
  | pattern tree label => exact leaves.pattern tree label reached
  | nothing => exact Matcher.meets_nothing
  | integer => exact leaves.integer reached
  | float => exact leaves.float reached
  | map _ _ ih => exact Matcher.meets_map _ (ih (reached.of_child _ (List.mem_singleton_self _)))
  | sequence _ ih =>
    simp only [matcher, matchers_eq_map]
    exact Matcher.meets_sequence
      (List.forall_mem_map.mpr fun child member => ih child member (reached.of_child child member))
  | choice _ _ ihFirst ihRest =>
    simp only [matcher, matchers_eq_map]
    exact Matcher.meets_choice (ihFirst (reached.of_child _ (List.mem_cons_self ..)))
      (List.forall_mem_map.mpr fun child member =>
        ihRest child member (reached.of_child child (List.mem_cons_of_mem _ member)))
  | many _ ih => exact Matcher.meets_many limit (ih (reached.of_child _ (List.mem_singleton_self _)))
  | sepBy _ _ ihItem ihSeparator =>
    exact Matcher.meets_sepBy limit (ihItem (reached.of_child _ (List.mem_cons_self ..)))
      (ihSeparator (reached.of_child _ (List.mem_cons_of_mem _ (List.mem_singleton_self _))))
  | observed observer _ ih =>
    exact Matcher.meets_observed observer (ih (reached.of_child _ (List.mem_singleton_self _)))
  | ref member => exact calls _ member reached
  | unpatched rule => rintro pos result _ ⟨⟩

/-- Calls of known parsers keep a contract, within any limit, if the leaves that they come to do. -/
theorem Store.Standard.call_meets (standard : store.Standard actions known)
    (leaves : store.LeavesMeet contract source whole) (limit : Nat) {address : Address} (member : known address)
    (reached : store.Reaches (.ref address) whole) : (store.call limit address).Meets contract source := by
  induction limit generalizing address with
  | zero => rintro pos result _ ⟨⟩
  | succ limit ih =>
    cases stored : store.body? address with
    | none => rw [call_of_none stored]; rintro pos result _ ⟨⟩
    | some body =>
      rw [call_of_body stored]
      exact (standard address body member stored).meets leaves (fun _ known => ih known)
        ((Reaches.call stored .here).trans reached)

end RecursiveDescent
