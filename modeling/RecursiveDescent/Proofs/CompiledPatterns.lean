import RecursiveDescent.Expression
import RecursiveDescent.Proofs.Backtracking
import RecursiveDescent.Proofs.Composition

/-! # Compiled patterns match in the first of their ways

The hints in a compiled pattern are right: where a span expects a character to follow, the next part opens with it, and
no more text is asked for than the pattern takes, references to groups included. So the place where a compiled pattern
is found to end is that of its first way, and its parser reports what lies between there and the place where it began.
-/

namespace RecursiveDescent

namespace Pattern

variable {groups more : Nat → Option Width} {pattern : Pattern} {patterns : List Pattern}

/-! ## Groups -/

/-- The widths of groups, of which those that are not known match nothing. -/
def widths (groups : Nat → Option Width) (index : Nat) : Width := (groups index).getD (.exactly 0)

/-- Only known groups occur, and they take as much as is known of them. -/
def Grounded (groups : Nat → Option Width) : Pattern → Prop
  | .seq first second | .alt first second => first.Grounded groups ∧ second.Grounded groups
  | .group index body =>
      (∃ width, groups index = some width ∧ width.least ≤ (body.width (widths groups)).least) ∧ body.Grounded groups
  | .backref index _ => ∃ width, groups index = some width
  | .repeat _ _ _ body | .look _ _ body | .atLeast _ body => body.Grounded groups
  | _ => True

namespace Grounded

theorem wide (grounded : pattern.Grounded groups) : pattern.Wide (widths groups) := by
  induction pattern with
  | seq first second ihFirst ihSecond => exact ⟨ihFirst grounded.1, ihSecond grounded.2⟩
  | alt first second ihFirst ihSecond => exact ⟨ihFirst grounded.1, ihSecond grounded.2⟩
  | group index body ih =>
    obtain ⟨⟨width, known, le⟩, inner⟩ := grounded
    have same : widths groups index = width := by rw [widths, known, Option.getD_some]
    exact ⟨same ▸ le, ih inner⟩
  | «repeat» least most greedy body ih => exact ih grounded
  | look back complement body ih => exact ih grounded
  | atLeast room body ih => exact ih grounded
  | _ => trivial

/-- Groups that become known later have no part in what was known before. -/
theorem width_eq (grounded : pattern.Grounded groups)
    (kept : ∀ index width, groups index = some width → more index = some width) :
    pattern.width (widths more) = pattern.width (widths groups) := by
  induction pattern with
  | seq first second ihFirst ihSecond => rw [width, width, ihFirst grounded.1, ihSecond grounded.2]
  | alt first second ihFirst ihSecond => rw [width, width, ihFirst grounded.1, ihSecond grounded.2]
  | group index body ih => exact ih grounded.2
  | backref index foldCase =>
    obtain ⟨known, found⟩ := grounded
    rw [width, width, widths, widths, found, kept index known found]
  | «repeat» least most greedy body ih => rw [width, width, ih grounded]
  | atLeast room body ih => exact ih grounded
  | _ => rfl

theorem mono (grounded : pattern.Grounded groups)
    (kept : ∀ index width, groups index = some width → more index = some width) : pattern.Grounded more := by
  induction pattern with
  | seq first second ihFirst ihSecond => exact ⟨ihFirst grounded.1, ihSecond grounded.2⟩
  | alt first second ihFirst ihSecond => exact ⟨ihFirst grounded.1, ihSecond grounded.2⟩
  | group index body ih =>
    obtain ⟨⟨width, known, le⟩, inner⟩ := grounded
    exact ⟨⟨width, kept index width known, inner.width_eq kept ▸ le⟩, ih inner⟩
  | backref index foldCase =>
    obtain ⟨width, known⟩ := grounded
    exact ⟨width, kept index width known⟩
  | «repeat» least most greedy body ih => exact ih grounded
  | look back complement body ih => exact ih grounded
  | atLeast room body ih => exact ih grounded
  | _ => trivial

theorem parts (grounded : pattern.Grounded groups) : ∀ part ∈ pattern.parts, part.Grounded groups := by
  induction pattern with
  | empty => exact List.forall_mem_nil _
  | seq first second ihFirst ihSecond => exact List.forall_mem_append.mpr ⟨ihFirst grounded.1, ihSecond grounded.2⟩
  | _ => exact List.forall_mem_singleton.mpr grounded

theorem before_iff (opening : Option CharSet) : (pattern.before opening).Grounded groups ↔ pattern.Grounded groups := by
  cases pattern <;> rfl

end Grounded

/-! ## Hints -/

/-- Before another pattern, a span expects what that opens with. -/
theorem hint?_before (opening : Option CharSet) :
    (pattern.before opening).hint? = none ∨ (pattern.before opening).hint? = opening := by
  cases pattern with
  | span least most greedy set follow =>
    cases greedy with
    | true => exact .inr rfl
    | false => exact .inl rfl
  | _ => exact .inl rfl

/-- A pattern without parts opens with nothing. -/
theorem opening?_of_parts_eq_nil (nothing : pattern.parts = []) : pattern.opening? = none := by
  induction pattern with
  | empty => rfl
  | seq first second ihFirst _ => exact ihFirst (List.append_eq_nil_iff.mp nothing).1
  | _ => cases nothing

namespace Sound

theorem before_iff (opening : Option CharSet) : (pattern.before opening).Sound ↔ pattern.Sound := by
  cases pattern <;> rfl

theorem parts (sound : pattern.Sound) : ∀ part ∈ pattern.parts, part.Sound := by
  induction pattern with
  | empty => exact List.forall_mem_nil _
  | seq first second ihFirst ihSecond =>
    obtain ⟨_, _, soundFirst, soundSecond⟩ := sound
    exact List.forall_mem_append.mpr ⟨ihFirst soundFirst, ihSecond soundSecond⟩
  | _ => exact List.forall_mem_singleton.mpr sound

/-- The last part expects nothing to follow if the whole does not. -/
theorem last_unhinted (sound : pattern.Sound) (unhinted : pattern.hint? = none) :
    ∀ last ∈ pattern.parts.getLast?, last.hint? = none := by
  induction pattern with
  | empty => exact nofun
  | seq first second ihFirst ihSecond =>
    obtain ⟨expected, unhintedSecond, soundFirst, soundSecond⟩ := sound
    intro last member
    rw [Pattern.parts, List.getLast?_append, Option.mem_def, Option.or_eq_some_iff] at member
    rcases member with here | ⟨nothing, there⟩
    · exact ihSecond soundSecond unhintedSecond last here
    · -- The second pattern has no parts, and so it opens with nothing that could be expected.
      rw [opening?_of_parts_eq_nil (List.getLast?_eq_none_iff.mp nothing), or_self] at expected
      exact ihFirst soundFirst expected last there
  | _ =>
    rintro last ⟨⟩
    exact unhinted

end Sound

/-- A pattern has its groups and its hints in order, and expects nothing to follow it. -/
structure Fit (groups : Nat → Option Width) (pattern : Pattern) : Prop where
  grounded : pattern.Grounded groups
  sound : pattern.Sound
  unhinted : pattern.hint? = none

/-- Parts have their groups and their hints in order, and the last one expects nothing to follow it. -/
structure FitInOrder (groups : Nat → Option Width) (parts : List Pattern) : Prop where
  grounded : ∀ part ∈ parts, part.Grounded groups
  sound : ∀ part ∈ parts, part.Sound
  unhinted : ∀ last ∈ parts.getLast?, last.hint? = none

theorem FitInOrder.tail {head : Pattern} (fit : FitInOrder groups (head :: patterns)) : FitInOrder groups patterns := by
  refine ⟨(List.forall_mem_cons.mp fit.grounded).2, (List.forall_mem_cons.mp fit.sound).2, fun last member => ?_⟩
  refine fit.unhinted last ?_
  rw [List.getLast?_cons, member]
  rfl

/-- One after another, each span expects what the next pattern opens with. -/
theorem FitInOrder.sequence (fit : FitInOrder groups patterns) : (ofSequence patterns).Fit groups := by
  fun_induction ofSequence patterns with
  | case1 => exact ⟨trivial, trivial, rfl⟩
  | case2 pattern =>
    have alone := List.mem_singleton_self pattern
    exact ⟨fit.grounded pattern alone, fit.sound pattern alone, fit.unhinted pattern rfl⟩
  | case3 pattern rest _ tail ih =>
    have others := ih fit.tail
    have grounded := fit.grounded pattern (List.mem_cons_self ..)
    have sound := fit.sound pattern (List.mem_cons_self ..)
    exact ⟨⟨(Grounded.before_iff _).mpr grounded, others.grounded⟩,
      ⟨hint?_before _, others.unhinted, (Sound.before_iff _).mpr sound, others.sound⟩, rfl⟩

theorem FitInOrder.append {front rest : List Pattern} (first : FitInOrder groups front)
    (second : FitInOrder groups rest) : FitInOrder groups (front ++ rest) := by
  refine ⟨List.forall_mem_append.mpr ⟨first.grounded, second.grounded⟩,
    List.forall_mem_append.mpr ⟨first.sound, second.sound⟩, fun last member => ?_⟩
  rw [List.getLast?_append, Option.mem_def, Option.or_eq_some_iff] at member
  rcases member with here | ⟨_, there⟩
  · exact second.unhinted last here
  · exact first.unhinted last there

/-- What matches in one way is no span, and expects nothing. -/
theorem hint?_of_isSingleWay (single : pattern.isSingleWay = true) : pattern.hint? = none := by
  cases pattern with
  | span => cases single
  | _ => rfl

theorem composes_fit (groups : Nat → Option Width) : Composes (Fit groups) (FitInOrder groups) where
  each all := ⟨fun part member => (all part member).grounded, fun part member => (all part member).sound,
    fun last member => (all last (List.mem_of_getLast? member)).unhinted⟩
  sequence := FitInOrder.sequence
  parts fit := ⟨fit.grounded.parts, fit.sound.parts, fit.sound.last_unhinted fit.unhinted⟩
  append := FitInOrder.append
  tail := FitInOrder.tail
  shared single fit := by
    refine ⟨List.forall_mem_singleton.mpr (List.forall_mem_cons.mp fit.grounded).1,
      List.forall_mem_singleton.mpr (List.forall_mem_cons.mp fit.sound).1, ?_⟩
    rintro last ⟨⟩
    exact hint?_of_isSingleWay single
  char _ := ⟨trivial, trivial, rfl⟩
  alt first second :=
    ⟨⟨first.grounded, second.grounded⟩, ⟨⟨first.unhinted, first.sound⟩, second.unhinted, second.sound⟩, rfl⟩

theorem Fit.quantify (fit : pattern.Fit groups) {least : Nat} {most : Option Nat} (greedy : Bool)
    (bounds : ∀ bound ∈ most, least ≤ bound) : (pattern.quantify least most greedy).Fit groups := by
  cases pattern with
  | char set => exact ⟨trivial, bounds, by cases greedy <;> rfl⟩
  | _ => exact ⟨fit.grounded, ⟨fit.unhinted, fit.sound⟩, rfl⟩

end Pattern

/-! ## Tokens -/

/-- A token that is a pattern by itself matches in one way, and the bounds of a quantifier are in order. -/
def PatternToken.Regular : PatternToken → Prop
  | .leaf pattern => pattern.isSingleWay = true
  | .quantifier least most _ => ∀ bound ∈ most, least ≤ bound
  | _ => True

namespace PatternToken

variable {flags : PatternFlags} {text rest : List Char} {token : PatternToken}

theorem regular_quantified {least : Nat} {most : Option Nat} (bounds : ∀ bound ∈ most, least ≤ bound)
    (found : quantified least most text = (token, rest)) : token.Regular := by
  rw [quantified.eq_def] at found
  split at found <;> cases found <;> exact bounds

theorem regular_brace (found : brace? flags text = some (token, rest)) : token.Regular := by
  simp only [brace?] at found
  split at found
  · cases found
    rfl
  · split at found
    · cases found
    · next order =>
      refine regular_quantified (fun bound member => ?_) (Option.some.inj found)
      rw [Option.mem_def] at member
      rw [member, Option.any_some, decide_eq_true_eq] at order
      exact Nat.not_lt.mp order

theorem regular_reference (found : reference? flags text = some (token, rest)) : token.Regular := by
  simp only [reference?] at found
  split at found
  · obtain ⟨code, _, same⟩ := Option.map_eq_some_iff.mp found
    cases same
    rfl
  · cases found
    rfl

theorem regular_escape (found : escape? flags text = some (token, rest)) : token.Regular := by
  cases text with
  | nil => cases found
  | cons c text =>
    simp only [escape?] at found
    split at found
    · cases found
      rfl
    · cases found
      rfl
    · split at found
      · exact regular_reference found
      · obtain ⟨_, _, same⟩ := Option.map_eq_some_iff.mp found
        cases same
        rfl

theorem regular_opening (found : opening? text = some (token, rest)) : token.Regular := by
  rw [opening?.eq_def] at found
  split at found <;> cases found <;> trivial

theorem regular_first {c : Char} (found : first? flags c text = some (token, rest)) : token.Regular := by
  rw [first?.eq_def] at found
  split at found
  · exact regular_escape found
  · obtain ⟨_, _, same⟩ := Option.map_eq_some_iff.mp found
    cases same
    rfl
  · exact regular_opening found
  · cases found
    trivial
  · cases found
    trivial
  · split at found <;> cases found <;> rfl
  · cases found
    rfl
  · cases found
    rfl
  · refine regular_quantified ?_ (Option.some.inj found)
    exact nofun
  · refine regular_quantified ?_ (Option.some.inj found)
    exact nofun
  · exact regular_quantified (fun _ _ => Nat.zero_le _) (Option.some.inj found)
  · exact regular_brace found
  · cases found
    rfl

/-- All tokens of a text are regular. -/
theorem regular_scan {fuel : Nat} {tokens : List PatternToken} (scanned : scanWith flags fuel text = some tokens) :
    ∀ token ∈ tokens, token.Regular := by
  fun_induction scanWith flags fuel text generalizing tokens with
  | case1 =>
    cases scanned
    exact List.forall_mem_nil _
  | case2 => cases scanned
  | case3 fuel c text ih =>
    obtain ⟨⟨token, rest⟩, found, after⟩ := Option.bind_eq_some_iff.mp scanned
    obtain ⟨others, remaining, same⟩ := Option.bind_eq_some_iff.mp after
    cases same
    exact List.forall_mem_cons.mpr ⟨regular_first found, ih _ remaining⟩

end PatternToken

/-! ## Assembly -/

def Frame.index? (frame : Frame) : Option Nat :=
  match frame.kind with
  | .capturing index => some index
  | _ => none

namespace Assembly

def groups (state : Assembly) (index : Nat) : Option Width := state.closed.lookup index

/-- The groups that are open, and those that are closed. -/
def indices (state : Assembly) : List Nat :=
  (state.current :: state.outer).filterMap Frame.index? ++ state.closed.map (·.1)

/-- All that has been read is in order by what is known of the closed groups, and no group has been opened twice. -/
structure Fit (state : Assembly) : Prop where
  current : state.current.Holds (Pattern.Fit state.groups)
  outer : ∀ frame ∈ state.outer, frame.Holds (Pattern.Fit state.groups)
  distinct : state.indices.Nodup
  opened : ∀ index ∈ state.indices, index ≤ state.opened

namespace Fit

variable {state next : Assembly}

theorem start : Assembly.start.Fit := ⟨.fresh _, List.forall_mem_nil _, List.nodup_nil, List.forall_mem_nil _⟩

theorem pattern (fit : state.Fit) : state.current.pattern.Fit state.groups :=
  fit.current.pattern (Pattern.composes_fit _)

theorem openGroup (fit : state.Fit) (kind : GroupKind) : (state.openGroup kind).Fit := by
  have outer : ∀ frame ∈ state.current :: state.outer, frame.Holds (Pattern.Fit state.groups) :=
    List.forall_mem_cons.mpr ⟨fit.current, fit.outer⟩
  cases kind with
  | plain => exact ⟨.fresh _, outer, fit.distinct, fit.opened⟩
  | look => exact ⟨.fresh _, outer, fit.distinct, fit.opened⟩
  | capturing =>
    have new : state.opened + 1 ∉ state.indices := fun member => Nat.not_succ_le_self _ (fit.opened _ member)
    refine ⟨.fresh _, outer, List.nodup_cons.mpr ⟨new, fit.distinct⟩, ?_⟩
    exact List.forall_mem_cons.mpr ⟨Nat.le_refl _, fun index member => Nat.le_succ_of_le (fit.opened index member)⟩

/-- A frame that is closed adds a part to the one around it, and a group may become known. -/
theorem close (fit : state.Fit) {frame : Frame} {outer : List Frame} (here : state.outer = frame :: outer)
    {part : Pattern} {closed : List (Nat × Width)}
    (same : (⟨state.opened, closed, frame.push part true, outer⟩ : Assembly).indices.Perm state.indices)
    (kept : ∀ index width, state.groups index = some width → closed.lookup index = some width)
    (added : part.Fit fun index => closed.lookup index) :
    Fit ⟨state.opened, closed, frame.push part true, outer⟩ := by
  obtain ⟨enclosing, others⟩ := List.forall_mem_cons.mp (here ▸ fit.outer)
  have keep (pattern : Pattern) (fit : pattern.Fit state.groups) : pattern.Fit fun index => closed.lookup index :=
    ⟨fit.grounded.mono kept, fit.sound, fit.unhinted⟩
  exact ⟨(enclosing.mono keep).push added true, fun other member => (others other member).mono keep,
    same.nodup_iff.mpr fit.distinct, fun index member => fit.opened index (same.mem_iff.mp member)⟩

theorem closeGroup (fit : state.Fit) (closed : state.closeGroup? = some next) : next.Fit := by
  have body := fit.pattern
  rw [closeGroup?] at closed
  split at closed
  · cases closed
  · next frame outer here =>
    -- A frame that is for no group leaves what is known of groups as it is.
    have apart (other : state.current.index? = none) (part : Pattern) (added : part.Fit state.groups) :
        Fit { state with current := frame.push part true, outer } := by
      have same : state.indices = (frame :: outer).filterMap Frame.index? ++ state.closed.map (·.1) := by
        rw [indices, here, List.filterMap_cons, other]
      exact fit.close here (.of_eq same.symm) (fun _ _ known => known) added
    split at closed
    · next plain =>
      cases closed
      exact apart (by rw [Frame.index?, plain]) _ body
    · next index capturing =>
      cases closed
      have opens : state.current.index? = some index := by rw [Frame.index?, capturing]
      have split : state.indices = index :: ((frame :: outer).filterMap Frame.index? ++ state.closed.map (·.1)) := by
        rw [indices, here, List.filterMap_cons, opens]
        rfl
      have new : index ∉ state.closed.map (·.1) := by
        have distinct := fit.distinct
        rw [split, List.nodup_cons] at distinct
        exact fun member => distinct.1 (List.mem_append_right _ member)
      have kept : ∀ other width, state.groups other = some width →
          ((index, state.current.pattern.width state.groupWidth) :: state.closed).lookup other = some width := by
        intro other width known
        have differs : (other == index) = false := by
          rw [beq_eq_false_iff_ne]
          rintro rfl
          obtain ⟨before, after, parts, _⟩ := List.lookup_eq_some_iff.mp known
          exact new (parts ▸ List.mem_map.mpr ⟨_, List.mem_append_right before (List.mem_cons_self ..), rfl⟩)
        rw [List.lookup_cons, differs]
        exact known
      refine fit.close here ?_ kept ⟨⟨⟨_, List.lookup_cons_self, ?_⟩, body.grounded.mono kept⟩, ?_, rfl⟩
      · rw [split]
        exact List.perm_middle
      · exact Nat.le_of_eq (congrArg Width.least (body.grounded.width_eq kept).symm)
      · exact ⟨body.unhinted, body.sound⟩
    · next complement _ ahead =>
      cases closed
      exact apart (by rw [Frame.index?, ahead]) _ ⟨body.grounded, ⟨body.unhinted, body.sound⟩, rfl⟩
    · next complement _ behind =>
      obtain ⟨back, _, made⟩ := Option.bind_eq_some_iff.mp closed
      cases made
      exact apart (by rw [Frame.index?, behind]) _ ⟨body.grounded, ⟨body.unhinted, body.sound⟩, rfl⟩

/-- What has been read is still in order after one more token. -/
theorem step (fit : state.Fit) {token : PatternToken} (regular : token.Regular)
    (taken : state.step? token = some next) : next.Fit := by
  cases token with
  | leaf pattern =>
    have pushed (repeatable : Bool) (added : pattern.Fit state.groups) :
        Fit { state with current := state.current.push pattern repeatable } :=
      ⟨fit.current.push added repeatable, fit.outer, fit.distinct, fit.opened⟩
    cases pattern with
    | backref index foldCase =>
      simp only [step?] at taken
      split at taken
      · next refers =>
        cases taken
        obtain ⟨known, _⟩ := Bool.and_eq_true_iff.mp refers
        exact pushed true ⟨Option.isSome_iff_exists.mp known, trivial, rfl⟩
      · cases taken
    | anchor condition =>
      cases taken
      exact pushed false ⟨trivial, trivial, rfl⟩
    | char set =>
      cases taken
      exact pushed true ⟨trivial, trivial, rfl⟩
    | _ => cases regular
  | opening kind =>
    cases taken
    exact fit.openGroup kind
  | closing => exact fit.closeGroup taken
  | bar =>
    cases taken
    exact ⟨fit.current.branch (Pattern.composes_fit _), fit.outer, fit.distinct, fit.opened⟩
  | quantifier least most greedy =>
    simp only [step?] at taken
    split at taken
    · next part parts _ here =>
      cases taken
      obtain ⟨last, others⟩ := List.forall_mem_cons.mp (here ▸ fit.current.parts)
      exact ⟨⟨fit.current.branches, List.forall_mem_cons.mpr ⟨last.quantify greedy regular, others⟩⟩, fit.outer,
        fit.distinct, fit.opened⟩
    · cases taken

/-- What has been read is still in order after any number of tokens. -/
theorem steps {tokens : List PatternToken} (fit : state.Fit) (regular : ∀ token ∈ tokens, token.Regular)
    (taken : tokens.foldlM Assembly.step? state = some next) : next.Fit := by
  induction tokens generalizing state with
  | nil =>
    cases taken
    exact fit
  | cons token rest ih =>
    obtain ⟨here, others⟩ := List.forall_mem_cons.mp regular
    obtain ⟨middle, first, last⟩ := Option.bind_eq_some_iff.mp taken
    exact ih (fit.step here first) others last

end Fit

end Assembly

/-! ## Matches -/

namespace Pattern

variable {source : Source} {flags : PatternFlags} {text : String} {tree : Pattern} {start : Nat} {ways : List Progress}

/-- A compiled pattern is in order, and not tried where less text is left than it takes. -/
theorem fit_of_compile? (compiled : compile? flags text = some tree) :
    ∃ groups pattern room, pattern.Fit groups ∧ room ≤ (pattern.width (widths groups)).least ∧
      (tree = pattern ∨ tree = .atLeast room pattern) := by
  obtain ⟨tokens, scanned, assembled⟩ := Option.bind_eq_some_iff.mp compiled
  obtain ⟨state, taken, finished⟩ := Option.bind_eq_some_iff.mp assembled
  have fit := (Assembly.Fit.start.steps (PatternToken.regular_scan scanned) taken).pattern
  simp only [Assembly.finish?] at finished
  split at finished
  · cases finished
    refine ⟨_, _, _, fit, Nat.le_refl _, ?_⟩
    split
    · exact .inl rfl
    · exact .inr rfl
  · cases finished

/-- A compiled pattern is found to end where the first of its ways does. -/
theorem end?_of_compile? (compiled : compile? flags text = some tree) (inside : start ≤ source.size)
    (yields : tree.Yields source ⟨start, []⟩ ways) : tree.end? source start = ways.head?.map (·.pos) := by
  obtain ⟨groups, pattern, room, fit, enough, made⟩ := fit_of_compile? compiled
  have first (yields : pattern.Yields source ⟨start, []⟩ ways) :
      attempt source pattern some ⟨start, []⟩ = ways.head? := by
    rw [attempt_yields fit.sound yields inside (awaits_of_none fit.unhinted)]
    cases ways <;> rfl
  rcases made with rfl | rfl
  · rw [end?, first yields]
  · cases yields with
    | atLeast _ matched =>
      rw [end?, ← first matched]
      simp only [attempt]
      split
      · next short =>
        -- All ways would lead beyond the text.
        have none : ways = [] := by
          refine List.eq_nil_iff_forall_not_mem.mpr fun way member => ?_
          have leads := matched.leads fit.grounded.wide inside (List.forall_mem_nil _) way member
          have further : start + (pattern.width (widths groups)).least ≤ way.pos := leads.further
          have within := leads.inside
          omega
        rw [first matched, none]
        rfl
      · rfl

end Pattern

namespace Expression

/-- The parser of a pattern that compiles reports the first way in which the pattern matches from its offset, brought
into range: where that way ends, and the text up to there. No way leaves the text, and the search for all of them comes
to an end. If there is none, the failure is at the offset that was given. -/
theorem pattern_reports_first_way (scope : Scope) {flags : PatternFlags} {text : String} {tree : Pattern}
    (compiled : Pattern.compile? flags text = some tree) (label : String) :
    Expression.parser scope (.pattern flags text label) = pure (.pattern tree label) ∧
      ∀ (store : Store) (source : Source) (pos : Int), ∃ start : Nat, (start : Int) = max 0 (min pos source.size) ∧
        (∃ ways, tree.Yields source ⟨start, []⟩ ways) ∧
        ∀ ways, tree.Yields source ⟨start, []⟩ ways →
          (∀ way ∈ ways, start ≤ way.pos ∧ way.pos ≤ source.size) ∧
          store.matcher (.pattern tree label) source pos = pure (match ways with
            | way :: _ => .success ⟨way.pos, ⟨pos, way.pos⟩, .text (source.slice start way.pos)⟩
            | [] => .failure ⟨pos, ⟨pos, pos⟩, label⟩) := by
  refine ⟨by simp only [Expression.parser, resolve, compile, compiled, pure_bind, Resolved.tree],
    fun store source pos => ?_⟩
  have inside : source.clamp pos ≤ source.size := source.clamp_le pos
  refine ⟨source.clamp pos, by rw [Source.clamp, Int.toNat_eq_max, Int.max_comm], tree.exists_yields inside,
    fun ways yields => ?_⟩
  have bounds := yields.bounds inside
  refine ⟨bounds, ?_⟩
  have found := Pattern.end?_of_compile? compiled inside yields
  cases ways with
  | nil =>
    rw [List.head?_nil, Option.map_none] at found
    simp only [Store.matcher, Parser.matcher, Matcher.pattern, found]
  | cons way others =>
    rw [List.head?_cons, Option.map_some] at found
    have within := (bounds way (List.mem_cons_self ..)).2
    simp only [Store.matcher, Parser.matcher, Matcher.pattern, found, Source.slice, Source.bound_of_le inside,
      Source.bound_of_le within]

/-- As few copies as possible of a group that may match nothing, and what it matched last has to stand again. The first
copy takes both letters, which do not; one more copy takes nothing, and is the last. Before a text, matching begins with
its first character. -/
theorem nestedCopies_first_way : ∃ tree, Pattern.compile? {} "(?:(a*)*?b)+(?=c|\\1)" = some tree ∧
    ∃ way others, tree.Yields (.ofString "aabac") ⟨0, []⟩ (way :: others) ∧ way.pos = 3 ∧
      Store.empty.matcher (.pattern tree "runs") (.ofString "aabac") (-2) =
        pure (.success ⟨3, ⟨-2, 3⟩, .text "aab"⟩) := by
  obtain ⟨tree, compiled, ended⟩ : ∃ tree, Pattern.compile? {} "(?:(a*)*?b)+(?=c|\\1)" = some tree ∧
      tree.end? (.ofString "aabac") 0 = some 3 := ⟨_, rfl, by decide⟩
  obtain ⟨-, results⟩ := pattern_reports_first_way .empty compiled "runs"
  obtain ⟨start, clamped, ⟨ways, yields⟩, reports⟩ := results .empty (.ofString "aabac") (-2)
  obtain rfl : start = 0 := by
    have before : max (0 : Int) (min (-2) ((Source.ofString "aabac").size : Int)) = (0 : Nat) := by decide
    exact Int.ofNat_inj.mp (clamped.trans before)
  obtain ⟨-, reported⟩ := reports ways yields
  have first := Pattern.end?_of_compile? compiled (Nat.zero_le _) yields
  rw [ended] at first
  cases ways with
  | nil => cases first
  | cons way others =>
    have stop : way.pos = 3 := (Option.some.inj first).symm
    have matched : (Source.ofString "aabac").slice (0 : Nat) (3 : Nat) = "aab" := by decide
    simp only [stop, matched] at reported
    exact ⟨tree, compiled, way, others, yields, stop, reported⟩

end Expression

end RecursiveDescent
