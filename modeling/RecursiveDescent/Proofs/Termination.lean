import Mathlib.Data.Finset.Card
import RecursiveDescent.Proofs.Heads

/-! # Grammars without left recursion terminate

A grammar is free of left recursion if its rules can be ranked such that every rule ranks above its
heads. Along nested calls, either the offset increases or the rank decreases, and a loop goes on only
while the offset increases. So there is a bound on how deep calls nest and how often loops go round, and
it lies below the limit that is in force when a parser is run.
-/

namespace RecursiveDescent

def Action.Finishes (action : Action) : Prop := ∀ value span, (action value span).Finished

namespace Run

variable {α β : Type} {run : Run α} {next : α → Run β}

theorem finished_pure (answer : α) : (pure answer : Run α).Finished := by rintro ⟨⟩

theorem finished_bind (first : run.Finished)
    (second : ∀ answer, run.outcome = .value answer → (next answer).Finished) : (run >>= next).Finished := by
  obtain ⟨events, outcome⟩ := run
  cases outcome with
  | value answer => exact second answer rfl
  | fault cause => rintro ⟨⟩
  | unfinished => exact (first rfl).elim

end Run

/-! ## Single matchers -/

namespace Matcher

variable {child item separator first second : Matcher} {children rest : List Matcher} {source : Source} {pos : Int}

/-- From an offset on, every run of a matcher within the text comes to an end. -/
def Finishes (matcher : Matcher) (source : Source) (pos : Int) : Prop :=
  ∀ later, pos ≤ later → later ≤ source.size → (matcher source later).Finished

theorem Finishes.mono {later : Int} (finishes : child.Finishes source pos) (le : pos ≤ later) :
    child.Finishes source later :=
  fun other after inside => finishes other (le.trans after) inside

theorem finished_literal (expected : String) : (literal expected source pos).Finished := by
  simp only [literal]
  split <;> exact Run.finished_pure _

theorem finished_pattern (tree : Pattern) (label : String) : (pattern tree label source pos).Finished := by
  simp only [pattern]
  split <;> exact Run.finished_pure _

theorem finished_map {action : Action} (finishes : action.Finishes) (finished : (child source pos).Finished) :
    (map child action source pos).Finished := by
  apply Run.finished_bind finished
  intro result _
  cases result with
  | failure missed => exact Run.finished_pure _
  | success found => exact Run.finished_bind (finishes _ _) fun _ _ => Run.finished_pure _

theorem finished_observed (observer : String) (finished : (child source pos).Finished) :
    (observed observer child source pos).Finished :=
  Run.finished_bind (by rintro ⟨⟩) fun _ _ => finished

theorem finishes_chain (covers : ∀ child ∈ children, child.Covers)
    (finishes : ∀ child ∈ children, child.Finishes source pos) (inside : pos ≤ source.size) :
    (chain source children pos).Finished := by
  induction children generalizing pos with
  | nil => exact Run.finished_pure _
  | cons child rest ih =>
    have finished := finishes child (List.mem_cons_self ..) pos (le_refl _) inside
    apply Run.finished_bind finished
    intro result answered
    cases result with
    | failure missed => exact Run.finished_pure _
    | success found =>
      obtain ⟨_, moved, within⟩ := covers child (List.mem_cons_self ..) source pos _ inside answered
      refine Run.finished_bind ?_ fun tail _ => ?_
      · exact ih (fun other member => covers other (List.mem_cons_of_mem _ member))
          (fun other member => (finishes other (List.mem_cons_of_mem _ member)).mono moved) within
      · cases tail <;> exact Run.finished_pure _

theorem finished_sequence (finished : (chain source children pos).Finished) :
    (sequence children source pos).Finished :=
  Run.finished_bind finished fun tail _ => by cases tail <;> exact Run.finished_pure _

theorem finished_orElse (finishedFirst : (first source pos).Finished)
    (finishedSecond : (second source pos).Finished) : (orElse first second source pos).Finished := by
  apply Run.finished_bind finishedFirst
  intro result _
  cases result with
  | success found => exact Run.finished_pure _
  | failure missed =>
    apply Run.finished_bind finishedSecond
    intro other _
    cases other <;> exact Run.finished_pure _

theorem finished_choice (finishedFirst : (first source pos).Finished)
    (finished : ∀ child ∈ rest, (child source pos).Finished) : (choice first rest source pos).Finished := by
  induction rest generalizing first with
  | nil => exact finishedFirst
  | cons second rest ih =>
    exact ih (finished_orElse finishedFirst (finished second (List.mem_cons_self ..)))
      fun child member => finished child (List.mem_cons_of_mem _ member)

/-- A loop ends within as many rounds as there are characters left, and one more. -/
theorem finished_rounds (covers : child.Covers) (finishes : child.Finishes source pos) {limit : Nat}
    (enough : (source.size - pos).toNat < limit) : (rounds child source limit pos).Finished := by
  induction limit generalizing pos with
  | zero => exact absurd enough (Nat.not_lt_zero _)
  | succ limit ih =>
    rw [rounds]
    split
    · next before =>
      apply Run.finished_bind (finishes pos (le_refl _) before.le)
      intro result answered
      cases result with
      | failure missed => exact Run.finished_pure _
      | success found =>
        obtain ⟨_, moved, within⟩ := covers source pos _ before.le answered
        dsimp only
        split
        · exact Run.finished_pure _
        · next further =>
          exact Run.finished_bind (ih (finishes.mono moved) (by omega)) fun _ _ => Run.finished_pure _
    · exact Run.finished_pure _

theorem finished_many (covers : child.Covers) (finishes : child.Finishes source pos) {limit : Nat}
    (enough : (source.size - pos).toNat < limit) : (many limit child source pos).Finished :=
  Run.finished_bind (finished_rounds covers finishes enough) fun _ _ => Run.finished_pure _

/-- Separators are tried only from where the first item stopped. -/
theorem finished_sepBy (coversItem : item.Covers) (coversSeparator : separator.Covers) (inside : pos ≤ source.size)
    (finishesItem : item.Finishes source pos)
    (finishesSeparator : ∀ found, (item source pos).outcome = .value (.success found) →
      separator.Finishes source found.pos)
    {limit : Nat} (enough : (source.size - pos).toNat < limit) : (sepBy limit item separator source pos).Finished := by
  apply Run.finished_bind (finishesItem pos (le_refl _) inside)
  intro result answered
  cases result with
  | failure missed => exact Run.finished_pure _
  | success head =>
    obtain ⟨_, moved, within⟩ := coversItem source pos _ inside answered
    have covers : ∀ child ∈ [separator, item], child.Covers :=
      List.forall_mem_cons.mpr ⟨coversSeparator, List.forall_mem_singleton.mpr coversItem⟩
    have finishes : (sequence [separator, item]).Finishes source head.pos := by
      intro later after inside
      refine finished_sequence (finishes_chain covers (List.forall_mem_cons.mpr ⟨?_, ?_⟩) inside)
      · exact (finishesSeparator head answered).mono after
      · exact List.forall_mem_singleton.mpr (finishesItem.mono (moved.trans after))
    have ended : (rounds (sequence [separator, item]) source limit head.pos).Finished :=
      finished_rounds (covers_sequence covers) finishes (by omega)
    exact Run.finished_bind ended fun _ _ => Run.finished_pure _

end Matcher

theorem Lexeme.reading_finishes {read : String → Run Value} (finished : ∀ literal, (read literal).Finished) :
    (reading read).Finishes := by
  intro value span
  cases value with
  | text literal => exact finished literal
  | _ => exact Run.finished_pure _

/-! ## Trees -/

section Trees

variable {known sure : Address → Prop} {limit : Nat} {call : Address → Matcher} {source : Source} {pos : Int}

/-- A tree comes to an end where its heads do, if all known parsers come to an end further on. -/
def Parser.Terminates (parser : Parser) (known sure : Address → Prop) (limit : Nat) (call : Address → Matcher)
    (source : Source) : Prop :=
  ∀ pos : Int, pos ≤ source.size → (source.size - pos).toNat < limit →
    (∀ address, parser.Head sure address → (call address source pos).Finished) →
    (∀ address, known address → (call address).Finishes source (pos + 1)) →
    (parser.matcher limit call source pos).Finished

/-- Further on, there are no heads to ask for. -/
theorem Parser.Terminates.later {actions : Action → Prop} {parser : Parser}
    (terminates : parser.Terminates known sure limit call source) (standard : parser.Standard actions known)
    (enough : (source.size - pos).toNat < limit)
    (calls : ∀ address, known address → (call address).Finishes source (pos + 1)) :
    (parser.matcher limit call).Finishes source (pos + 1) := by
  intro later after inside
  refine terminates later inside (by omega) (fun address head => ?_) fun address member => ?_
  · exact calls address (standard.known_of_head head) later after inside
  · exact (calls address member).mono (by omega)

/-- From here on, a tree comes to an end. -/
theorem Parser.Terminates.finishes {actions : Action → Prop} {parser : Parser}
    (terminates : parser.Terminates known sure limit call source) (standard : parser.Standard actions known)
    (enough : (source.size - pos).toNat < limit)
    (heads : ∀ address, parser.Head sure address → (call address source pos).Finished)
    (calls : ∀ address, known address → (call address).Finishes source (pos + 1)) :
    (parser.matcher limit call).Finishes source pos := by
  intro later after inside
  rcases after.eq_or_lt with rfl | further
  · exact terminates pos inside enough heads calls
  · exact terminates.later standard enough calls later (by omega) inside

/-- A chain comes to an end where its heads do: up to the first part that moved on, every part is tried
where the chain began, and none of the parts before surely consumes. -/
theorem Parser.finished_chain {actions : Action → Prop} (covers : ∀ address, known address → (call address).Covers)
    (moves : ∀ address, sure address → (call address).Moves) {children : List Parser}
    (standard : ∀ child ∈ children, child.Standard actions known)
    (terminates : ∀ child ∈ children, child.Terminates known sure limit call source)
    (inside : pos ≤ source.size) (enough : (source.size - pos).toNat < limit)
    (heads : ∀ address, HeadOfAll sure children address → (call address source pos).Finished)
    (calls : ∀ address, known address → (call address).Finishes source (pos + 1)) :
    (Matcher.chain source (children.map (matcher limit call)) pos).Finished := by
  induction children with
  | nil => exact Run.finished_pure _
  | cons child rest ih =>
    obtain ⟨standardChild, standard⟩ := List.forall_mem_cons.mp standard
    obtain ⟨terminatesChild, terminates⟩ := List.forall_mem_cons.mp terminates
    have ended := terminatesChild pos inside enough (fun address head => heads address (.here _ head)) calls
    apply Run.finished_bind ended
    intro result answered
    cases result with
    | failure missed => exact Run.finished_pure _
    | success found =>
      obtain ⟨_, moved, within⟩ := standardChild.covers covers source pos _ inside answered
      refine Run.finished_bind ?_ fun tail _ => by cases tail <;> exact Run.finished_pure _
      rcases moved.eq_or_lt with here | further
      · have idle : ¬child.Consumes sure := fun consumes =>
          (consumes.moves covers moves standardChild source pos found inside answered).ne here
        rw [← here]
        exact ih standard terminates fun address head => heads address (.later idle head)
      · refine Matcher.finishes_chain ?_ ?_ within
        · exact List.forall_mem_map.mpr fun other member => (standard other member).covers covers
        · refine List.forall_mem_map.mpr fun other member => ?_
          exact ((terminates other member).later (standard other member) enough calls).mono (by omega)

/-- Standard trees come to an end where their heads do. -/
theorem Parser.Standard.terminates (covers : ∀ address, known address → (call address).Covers)
    (moves : ∀ address, sure address → (call address).Moves) {parser : Parser}
    (standard : parser.Standard Action.Finishes known) : parser.Terminates known sure limit call source := by
  induction standard with
  | literal expected => exact fun pos _ _ _ _ => Matcher.finished_literal expected
  | pattern tree label => exact fun pos _ _ _ _ => Matcher.finished_pattern tree label
  | nothing => exact fun pos _ _ _ _ => Run.finished_pure _
  | integer =>
    refine fun pos _ _ _ _ => Matcher.finished_map (Lexeme.reading_finishes fun literal => ?_)
      (Matcher.finished_pattern _ _)
    simp only [Lexeme.readInteger]
    split
    · rintro ⟨⟩
    · exact Run.finished_pure _
  | float =>
    refine fun pos _ _ _ _ => Matcher.finished_map (Lexeme.reading_finishes fun literal => ?_)
      (Matcher.finished_pattern _ _)
    exact Run.finished_pure _
  | map finishes _ ih =>
    intro pos inside enough heads calls
    exact Matcher.finished_map finishes (ih pos inside enough (fun address head => heads address (.map _ head)) calls)
  | sequence standard ih =>
    intro pos inside enough heads calls
    simp only [matcher, matchers_eq_map]
    apply Matcher.finished_sequence
    exact finished_chain covers moves standard ih inside enough
      (fun address head => heads address (.sequence head)) calls
  | @choice first rest _ _ ihFirst ihRest =>
    intro pos inside enough heads calls
    simp only [matcher, matchers_eq_map]
    refine Matcher.finished_choice ?_ (List.forall_mem_map.mpr fun child member => ?_)
    · exact ihFirst pos inside enough (fun address head => heads address (.first rest head)) calls
    · exact ihRest child member pos inside enough (fun address head => heads address (.other first member head)) calls
  | many standard ih =>
    intro pos inside enough heads calls
    refine Matcher.finished_many (standard.covers covers) ?_ enough
    exact ih.finishes standard enough (fun address head => heads address (.many head)) calls
  | @sepBy item separator standardItem standardSeparator ihItem ihSeparator =>
    intro pos inside enough heads calls
    have finishesItem : (item.matcher limit call).Finishes source pos :=
      ihItem.finishes standardItem enough (fun address head => heads address (.item separator head)) calls
    refine Matcher.finished_sepBy (standardItem.covers covers) (standardSeparator.covers covers) inside finishesItem
      (fun found answered => ?_) enough
    obtain ⟨_, moved, _⟩ := standardItem.covers covers source pos _ inside answered
    rcases moved.eq_or_lt with here | further
    · have idle : ¬item.Consumes sure := fun consumes =>
        (consumes.moves covers moves standardItem source pos found inside answered).ne here
      rw [← here]
      exact ihSeparator.finishes standardSeparator enough (fun address head => heads address (.separator idle head))
        calls
    · exact (ihSeparator.later standardSeparator enough calls).mono (by omega)
  | observed observer _ ih =>
    intro pos inside enough heads calls
    exact Matcher.finished_observed observer
      (ih pos inside enough (fun address head => heads address (.observed observer head)) calls)
  | ref member => exact fun pos _ _ heads _ => heads _ (.ref _)
  | unpatched rule => exact fun pos _ _ _ _ => by rintro ⟨⟩

end Trees

/-! ## Stores -/

/-- The known parsers of a store are standard and rank above their heads; among them are those that surely
consume. -/
structure Store.Ranked (store : Store) (known sure : Address → Prop) (rank : Address → Nat) : Prop where
  standard : store.Standard Action.Finishes known
  stored : ∀ address, known address → ∃ body, store.body? address = some body
  lower : ∀ address body other, known address → store.body? address = some body → body.Head sure other →
    rank other < rank address
  certain : store.Sure sure
  known_of_sure : ∀ address, sure address → known address

/-- The limit of a run leaves room for every call within the text that is not before the beginning. -/
theorem Store.limit_room (store : Store) (source : Source) {start pos : Int} (after : start ≤ pos) :
    (store.cells.size + 1) * (source.size - pos).toNat + store.cells.size + 2 < store.limit source start := by
  have fewer : (store.cells.size + 1) * ((source.size - pos).toNat + 1) ≤
      (store.cells.size + 1) * (source.size + start.natAbs + 1) := Nat.mul_le_mul_left _ (by omega)
  have some : 0 < (store.cells.size + 1) * (source.size + start.natAbs + 1) :=
    Nat.mul_pos (Nat.succ_pos _) (Nat.succ_pos _)
  simp only [Store.limit, Nat.mul_assoc]
  rw [Nat.mul_succ] at fewer
  omega

/-- No parsers at all are ranked in every store. -/
theorem Store.ranked_none (store : Store) : store.Ranked (fun _ => False) (fun _ => false = true) fun _ => 0 where
  standard _ _ := False.elim
  stored _ := False.elim
  lower _ _ _ := False.elim
  certain _ := Bool.false_ne_true.elim
  known_of_sure _ := Bool.false_ne_true.elim

namespace Store.Ranked

variable {store : Store} {known sure : Address → Prop} {rank : Address → Nat} (ranked : store.Ranked known sure rank)
include ranked

theorem allocated {address : Address} (member : known address) : address < store.cells.size := by
  obtain ⟨body, stored⟩ := ranked.stored address member
  exact Store.body?_of_lt stored

theorem covers (limit : Nat) (address : Address) (member : known address) : (store.call limit address).Covers :=
  ranked.standard.call_covers limit member

theorem moves (limit : Nat) (address : Address) (member : sure address) : (store.call limit address).Moves :=
  ranked.certain.call_moves ranked.standard ranked.known_of_sure limit member

/-- Ranks can be chosen to be no greater than the number of parsers: count the parsers of lower rank. -/
theorem bounded : ∃ lower, store.Ranked known sure lower ∧ ∀ address, lower address ≤ store.cells.size := by
  let below (address : Address) := (Finset.range store.cells.size).filter fun other => rank other < rank address
  refine ⟨fun address => (below address).card, { ranked with lower := ?_ }, fun address => ?_⟩
  · intro address body other member stored head
    have less := ranked.lower address body other member stored head
    have allocated := ranked.allocated ((ranked.standard address body member stored).known_of_head head)
    refine Finset.card_lt_card (Finset.ssubset_iff_of_subset ?_ |>.mpr ⟨other, ?_, ?_⟩)
    · exact Finset.monotone_filter_right _ fun _ _ lower => lower.trans less
    · exact Finset.mem_filter.mpr ⟨Finset.mem_range.mpr allocated, less⟩
    · exact fun among => lt_irrefl _ (Finset.mem_filter.mp among).2
  · exact (Finset.card_filter_le _ _).trans (Finset.card_range _).le

/-- A call comes to an end within a limit that grows with the characters that are left, and with the rank. -/
theorem call_finished {top : Nat} (bound : ∀ address, rank address ≤ top) {limit : Nat} {address : Address}
    (member : known address) {source : Source} {pos : Int} (inside : pos ≤ source.size)
    (enough : (top + 1) * (source.size - pos).toNat + rank address + 1 < limit) :
    (store.call limit address source pos).Finished := by
  induction limit generalizing address pos with
  | zero => exact absurd enough (Nat.not_lt_zero _)
  | succ limit ih =>
    obtain ⟨body, stored⟩ := ranked.stored address member
    have standard := ranked.standard address body member stored
    rw [call_of_body stored]
    have left : (source.size - pos).toNat ≤ (top + 1) * (source.size - pos).toNat :=
      Nat.le_mul_of_pos_left _ (Nat.succ_pos top)
    refine standard.terminates (ranked.covers limit) (ranked.moves limit) pos inside (by omega)
      (fun other head => ?_) fun other known later after within => ?_
    · have less := ranked.lower address body other member stored head
      exact ih (standard.known_of_head head) inside (by omega)
    · have fewer : (top + 1) * ((source.size - later).toNat + 1) ≤ (top + 1) * (source.size - pos).toNat :=
        Nat.mul_le_mul_left _ (by omega)
      have low := bound other
      exact ih known within (by rw [Nat.mul_succ] at fewer; omega)

/-- The limit that is in force is enough for every standard tree. -/
theorem finished {parser : Parser} (standard : parser.Standard Action.Finishes known) {source : Source} {pos : Int}
    (inside : pos ≤ source.size) : (store.matcher parser source pos).Finished := by
  obtain ⟨lower, ranked, bound⟩ := ranked.bounded
  have calls (address : Address) (member : known address) :
      (store.call (store.limit source pos) address).Finishes source pos := by
    intro later after within
    have low := bound address
    have spare := store.limit_room source after
    exact ranked.call_finished bound member within (by omega)
  have left : (source.size - pos).toNat ≤ (store.cells.size + 1) * (source.size - pos).toNat :=
    Nat.le_mul_of_pos_left _ (Nat.succ_pos _)
  have spare := store.limit_room source (le_refl pos)
  refine standard.terminates (ranked.covers _) (ranked.moves _) pos inside (by omega) (fun address head => ?_) ?_
  · exact calls address (standard.known_of_head head) pos (le_refl _) inside
  · exact fun address member => (calls address member).mono (by omega)

/-- Within the limit of a run, a stored parser does what its body does. -/
theorem call_eq {address : Address} {body : Parser} (member : known address) (stored : store.body? address = some body)
    {source : Source} {start pos : Int} (after : start ≤ pos) (inside : pos ≤ source.size) :
    store.call (store.limit source start) address source pos =
      body.matcher (store.limit source start) (store.call (store.limit source start)) source pos := by
  obtain ⟨lower, ranked, bound⟩ := ranked.bounded
  have spare := store.limit_room source after
  have low := bound address
  obtain ⟨least, same⟩ : ∃ least, store.limit source start = least + 1 := ⟨store.limit source start - 1, by omega⟩
  have finished : (store.call (least + 1) address source pos).Finished :=
    ranked.call_finished bound member inside (by omega)
  rw [same]
  rw [call_of_body stored] at finished ⊢
  exact (matcher_of_finished finished (Nat.le_succ least)).symm

end Store.Ranked

/-! ## Grammars -/

namespace Grammar

variable {bindings : Bindings} {store final : Store} {grammar : Grammar}
  {definitions : List (String × Expression)} {known : Address → Prop} {sure : Address → Bool} {earlier : Address → Nat}

/-- Ranks of parsers, by the ranks of rules and of what was stored before. -/
def ranks (grammar : Grammar) (store : Store) (rank : String → Nat) (earlier : Address → Nat) (address : Address) :
    Nat :=
  match grammar.rules.find? (·.2 == address) with
  | some rule => store.cells.size + 1 + rank rule.1
  | none => earlier address

theorem ranks_of_outside {rank : String → Nat} {address : Address} (outside : grammar.owns address = false) :
    grammar.ranks store rank earlier address = earlier address := by
  simp only [ranks, find?_address_of_outside outside]

namespace Built

variable (built : Built bindings store definitions final grammar)
include built

theorem ranks_of_mem {rank : String → Nat} {rule : String × Address} (member : rule ∈ grammar.rules) :
    grammar.ranks store rank earlier rule.2 = store.cells.size + 1 + rank rule.1 := by
  have distinct : (grammar.rules.map (·.2)).Nodup := by
    rw [built.rules_eq, List.zipIdx_map_snd]
    exact List.nodup_range'
  simp only [ranks, find?_address_of_mem distinct member]

theorem outside_of_lt {address : Address} (before : address < store.cells.size) : grammar.owns address = false := by
  by_contra owned
  exact Nat.not_lt.mpr (built.owns_iff.mp (Bool.not_eq_false _ ▸ owned)).1 before

/-- A grammar whose rules can be ranked leaves a store whose parsers can. -/
theorem ranked (within : bindings.Within store) (before : store.Ranked known (sure · = true) earlier)
    (each : ∀ definition ∈ definitions, definition.2.Standard Action.Finishes bindings known) {rank : String → Nat}
    (lower : ∀ definition ∈ definitions, ∀ name ∈ definition.2.heads bindings sure, rank name < rank definition.1)
    (bound : ∀ address, earlier address ≤ store.cells.size) :
    final.Ranked (fun address => known address ∨ grammar.owns address = true) (sure · = true)
      (grammar.ranks store rank earlier) := by
  have outside {address : Address} (member : known address) : grammar.owns address = false :=
    built.outside_of_lt (before.allocated member)
  have low {address : Address} (below : address < store.cells.size) :
      grammar.ranks store rank earlier address ≤ store.cells.size := by
    rw [ranks_of_outside (built.outside_of_lt below)]
    exact bound address
  refine ⟨built.standard (fun _ _ => Run.finished_pure _) before.standard each, ?stored, ?lower, ?certain,
    fun address member => .inl (before.known_of_sure address member)⟩
  case stored =>
    rintro address (member | owned)
    · rw [built.kept address (before.allocated member)]
      exact before.stored address member
    · exact Store.body?_isSome (built.owns_iff.mp owned).2
  case certain =>
    intro address member
    obtain ⟨body, stored, consumes⟩ := before.certain address member
    exact ⟨body, (built.kept address (Store.body?_of_lt stored)).trans stored, consumes⟩
  case lower =>
    intro address body head member stored isHead
    cases owned : grammar.owns address with
    | false =>
      have member : known address := member.resolve_right (by rw [owned]; exact Bool.false_ne_true)
      have stored := built.body?_of_outside owned stored
      have knownHead := (before.standard address body member stored).known_of_head isHead
      rw [ranks_of_outside owned, ranks_of_outside (outside knownHead)]
      exact before.lower address body head member stored isHead
    | true =>
      obtain ⟨rule, among, same⟩ := List.any_eq_true.mp owned
      obtain rfl := beq_iff_eq.mp same
      rw [built.ranks_of_mem among]
      obtain ⟨definition, defined, tree, stands, here | ⟨other, _, rfl, away, there, here⟩⟩ :=
        built.follows_of_mem among
      · obtain rfl := Option.some.inj (stored.symm.trans here)
        rcases stands.head isHead with ⟨name, listed, found⟩ | ⟨target, bounded⟩
        · have less := lower _ defined name listed
          rw [built.ranks_of_mem (mem_of_find? found)]
          exact Nat.add_lt_add_left less _
        · exact Nat.lt_of_le_of_lt (low (within target head bounded)) (by omega)
      · obtain rfl := Option.some.inj (stored.symm.trans here)
        have standard : (Parser.ref other).Standard Action.Finishes fun address =>
          known address ∨ grammar.owns address :=
          (each _ defined).tree (fun _ _ => Run.finished_pure _) (fun _ => .inl) (fun _ => .inr) stands
        cases standard with
        | ref member =>
          have member : known other := member.resolve_right (by rw [away]; exact Bool.false_ne_true)
          have copied := before.standard other body member (built.body?_of_outside away there)
          exact Nat.lt_of_le_of_lt (low (before.allocated (copied.known_of_head isHead))) (by omega)

end Built

/-- Every rule of a grammar over standard definitions that rank above their heads, and every standard tree
that may mention these rules, comes to an end when it is run, wherever that is within the text. With no
definitions this speaks of trees alone. -/
theorem rules_terminate (within : bindings.Within store) (before : store.Ranked known (sure · = true) earlier)
    (each : ∀ definition ∈ definitions, definition.2.Standard Action.Finishes bindings known)
    (success : (build bindings store definitions).outcome = .value (final, grammar)) (rank : String → Nat)
    (lower : ∀ definition ∈ definitions, ∀ name ∈ definition.2.heads bindings sure, rank name < rank definition.1)
    (tree : Parser)
    (resolved : (∃ name address, grammar.find? name = some address ∧ tree = .ref address) ∨
      ∃ expression : Expression, expression.Standard Action.Finishes bindings known ∧
        (expression.parser ⟨final, bindings, grammar⟩).outcome = .value tree)
    (source : Source) (pos : Int) (inside : pos ≤ source.size) :
    final.Parses tree source pos (final.matcher tree source pos) := by
  have built := built_of_build within success
  obtain ⟨ranks, before, bound⟩ := before.bounded
  have standard : tree.Standard Action.Finishes fun address => known address ∨ grammar.owns address = true := by
    rcases resolved with ⟨name, address, found, rfl⟩ | ⟨expression, standard, stands⟩
    · exact .ref (.inr (owns_of_mem (mem_of_find? found)))
    · exact standard.tree (fun _ _ => Run.finished_pure _) (fun _ => .inl) (fun _ => .inr) stands
  exact Store.parses_of_finished ((built.ranked within before each lower bound).finished standard inside)

/-- Lists call nothing before their bracket, and rank below their alias, which ranks below their items. -/
theorem nestedLists_ranked : ∃ rank : String → Nat, ∀ definition ∈ nestedLists,
    ∀ name ∈ definition.2.heads .empty fun _ => false, rank name < rank definition.1 := by
  refine ⟨fun name => if name = "List" then 0 else if name = "Top" then 1 else 2, ?_⟩
  simp only [nestedLists, List.forall_mem_cons, List.not_mem_nil, false_imp_iff, implies_true, and_true]
  decide

/-- A list that is not closed is tried to the end. -/
theorem nestedLists_terminate : ∃ final grammar address,
    (build .empty .empty nestedLists).outcome = .value (final, grammar) ∧
      grammar.find? "Top" = some address ∧
      final.Parses (.ref address) (.ofString "[1,[]") 0 (final.matcher (.ref address) (.ofString "[1,[]") 0) := by
  obtain ⟨final, grammar, address, success, top⟩ : ∃ final grammar address,
      (build .empty .empty nestedLists).outcome = .value (final, grammar) ∧ grammar.find? "Top" = some address :=
    ⟨_, _, _, rfl, rfl⟩
  obtain ⟨rank, lower⟩ := nestedLists_ranked
  have terminates := rules_terminate within_empty Store.empty.ranked_none (nestedLists_standard _) success rank lower
    (.ref address) (.inl ⟨"Top", address, top, rfl⟩) (.ofString "[1,[]") 0 (by decide)
  exact ⟨final, grammar, address, success, top, terminates⟩

end Grammar

end RecursiveDescent
