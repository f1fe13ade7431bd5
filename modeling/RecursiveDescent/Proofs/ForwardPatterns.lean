import RecursiveDescent.Proofs.Composition
import RecursiveDescent.Proofs.PatternBounds

/-! # Patterns that do not look behind

A pattern without lookbehind, and without conditions on what stands before a place, matches a text in the same way
wherever that text begins: with another text put before it, all positions move, those of captures included, and the
match is the same. What has to follow is a continuation, so the statement is about pairs of continuations: one of
them answers the moved position with the moved answer of the other.
-/

namespace RecursiveDescent

/-! ## Texts after one another -/

/-- One text after another. -/
instance : Append Source := ⟨fun front rest => ⟨front.chars ++ rest.chars⟩⟩

namespace Source

variable (front rest : Source)

@[simp] theorem append_size : (front ++ rest).size = front.size + rest.size := Array.size_append

theorem append_char? (index : Nat) : (front ++ rest).char? (front.size + index) = rest.char? index := by
  change (front.chars ++ rest.chars)[front.chars.size + index]? = rest.chars[index]?
  rw [Array.getElem?_append_right (Nat.le_add_right _ _), Nat.add_sub_cancel_left]

theorem append_extract (start stop : Nat) :
    (front ++ rest).extract (front.size + start) (front.size + stop) = rest.extract start stop := by
  have same : (front.chars ++ rest.chars).extract (front.chars.size + start) (front.chars.size + stop) =
      rest.chars.extract start stop := by
    rw [Array.extract_append]
    simp
  exact congrArg (fun chars => String.ofList chars.toList) same

end Source

/-! ## Positions moved -/

def Capture.shift (count : Nat) (capture : Capture) : Capture :=
  ⟨capture.index, count + capture.start, count + capture.stop⟩

def Progress.shift (count : Nat) (state : Progress) : Progress :=
  ⟨count + state.pos, state.captures.map (Capture.shift count)⟩

theorem Progress.shift_pos (count : Nat) (state : Progress) : (state.shift count).pos = count + state.pos := rfl

theorem Progress.capture?_shift (count : Nat) (state : Progress) (index : Nat) :
    (state.shift count).capture? index = (state.capture? index).map (Capture.shift count) := by
  simp only [capture?, shift, List.find?_map]
  rfl

/-- Whether a condition speaks of what comes from a place on. -/
def Anchor.isForward : Anchor → Bool
  | .textEnd | .finalLineEnd | .lineEnd => true
  | .textStart | .lineStart | .wordEdge | .noWordEdge => false

theorem Anchor.holds_append (front rest : Source) {condition : Anchor} (forward : condition.isForward = true)
    (pos : Nat) : condition.holds (front ++ rest) (front.size + pos) = condition.holds rest pos := by
  have ends (index : Nat) : (front.size + index == (front ++ rest).size) = (index == rest.size) := by
    rw [Bool.eq_iff_iff, beq_iff_eq, beq_iff_eq, Source.append_size, Nat.add_left_cancel_iff]
  cases condition with
  | textEnd => exact ends pos
  | finalLineEnd => simp only [holds, Nat.add_assoc, ends, Source.append_char?]
  | lineEnd => simp only [holds, ends, Source.append_char?]
  | _ => cases forward

namespace Pattern

def isForward : Pattern → Bool
  | .empty | .char _ | .backref _ _ | .span _ _ _ _ _ => true
  | .seq first second | .alt first second => first.isForward && second.isForward
  | .group _ body | .repeat _ _ _ body | .atLeast _ body => body.isForward
  | .look back _ body => back == 0 && body.isForward
  | .anchor condition => condition.isForward

/-- One continuation answers moved progress with the moved answer of the other. -/
def Carries (count : Nat) (next moved : Continuation) : Prop :=
  ∀ state, moved (state.shift count) = (next state).map (Progress.shift count)

theorem carries_some (count : Nat) : Carries count some some := fun _ => rfl

variable {front rest : Source} {next moved : Continuation}

theorem Carries.move {count : Nat} (carries : Carries count next moved) (state : Progress) (pos : Nat) :
    moved ((state.shift count).move (count + pos)) = (next (state.move pos)).map (Progress.shift count) :=
  carries (state.move pos)

/-- As much text is left after the moved position. -/
theorem room_append (pos : Nat) : (front ++ rest).size - (front.size + pos) = rest.size - pos := by
  rw [Source.append_size, Nat.add_sub_add_left]

theorem runEnd_append (set : CharSet) (limit pos : Nat) :
    runEnd (front ++ rest) set limit (front.size + pos) = front.size + runEnd rest set limit pos := by
  induction limit generalizing pos with
  | zero => rfl
  | succ limit ih =>
    simp only [runEnd, Source.append_char?]
    split
    · exact ih (pos + 1)
    · rfl

theorem repeats_append (foldCase : Bool) (count first second : Nat) :
    repeats (front ++ rest) foldCase count (front.size + first) (front.size + second) =
      repeats rest foldCase count first second := by
  induction count generalizing first second with
  | zero => rfl
  | succ count ih =>
    simp only [repeats, Source.append_char?]
    split
    · rw [Nat.add_assoc, Nat.add_assoc, ih]
    · rfl

theorem mayFollow_append (follow : Option CharSet) (pos : Nat) :
    mayFollow (front ++ rest) follow (front.size + pos) = mayFollow rest follow pos := by
  simp only [mayFollow, Source.append_char?]

theorem farthestFirst_append (carries : Carries front.size next moved) (follow : Option CharSet) (state : Progress)
    (pos count : Nat) :
    farthestFirst (front ++ rest) follow moved (state.shift front.size) (front.size + pos) count =
      (farthestFirst rest follow next state pos count).map (Progress.shift front.size) := by
  induction count with
  | zero => exact carries.move state pos
  | succ count ih =>
    simp only [farthestFirst, Nat.add_assoc, mayFollow_append, carries.move, ih]
    split
    · cases next (state.move (pos + (count + 1))) <;> rfl
    · rfl

theorem nearestFirst_append (carries : Carries front.size next moved) (set : CharSet) (state : Progress)
    (count pos : Nat) :
    nearestFirst (front ++ rest) set moved (state.shift front.size) count (front.size + pos) =
      (nearestFirst rest set next state count pos).map (Progress.shift front.size) := by
  induction count generalizing pos with
  | zero => exact carries.move state pos
  | succ count ih =>
    simp only [nearestFirst, carries.move, Source.append_char?, Nat.add_assoc, ih]
    cases next (state.move pos) with
    | some done => rfl
    | none => simp only [Option.map_none]; split <;> rfl

/-- Two bodies of a repetition carry what follows them. -/
def CarriesThrough (count : Nat) (body movedBody : Continuation → Continuation) : Prop :=
  ∀ {next moved}, Carries count next moved → Carries count (body next) (movedBody moved)

variable {count : Nat} {body movedBody : Continuation → Continuation}

theorem carries_requiredCopies (through : CarriesThrough count body movedBody) (carries : Carries count next moved)
    (copies : Nat) : Carries count (requiredCopies body next copies) (requiredCopies movedBody moved copies) := by
  induction copies with
  | zero => exact carries
  | succ copies ih => exact through ih

theorem carries_optionalCopies (through : CarriesThrough count body movedBody) (carries : Carries count next moved)
    (greedy : Bool) (copies : Nat) (began : Option Nat) :
    Carries count (optionalCopies body greedy next copies began)
      (optionalCopies movedBody greedy moved copies (began.map (count + ·))) := by
  induction copies generalizing began with
  | zero => exact carries
  | succ copies ih =>
    intro state
    have same : began.map (count + ·) = some (state.shift count).pos ↔ began = some state.pos := by
      cases began <;> simp [Progress.shift]
    have further : movedBody (optionalCopies movedBody greedy moved copies (some (state.shift count).pos))
        (state.shift count) = (body (optionalCopies body greedy next copies (some state.pos)) state).map
          (Progress.shift count) := through (ih (some state.pos)) state
    simp only [optionalCopies, same, further, carries state]
    split
    · rfl
    · split
      · cases body (optionalCopies body greedy next copies (some state.pos)) state <;> rfl
      · cases next state <;> rfl

theorem carries_span (least : Nat) (most : Option Nat) (greedy : Bool) (set : CharSet) (follow : Option CharSet) :
    CarriesThrough front.size (attempt rest (.span least most greedy set follow))
      (attempt (front ++ rest) (.span least most greedy set follow)) := by
  intro next moved carries state
  cases greedy with
  | true =>
    simp only [attempt, Progress.shift_pos, room_append, runEnd_append, Nat.add_sub_add_left, Nat.add_assoc]
    split
    · rfl
    · exact farthestFirst_append carries follow state _ _
  | false =>
    simp only [attempt, Progress.shift_pos, room_append, runEnd_append, Nat.add_assoc, Nat.add_lt_add_iff_left]
    split
    · rfl
    · exact nearestFirst_append carries set state _ _

/-- A pattern that does not look behind carries what follows it. -/
theorem attempt_carries {pattern : Pattern} (forward : pattern.isForward = true) :
    CarriesThrough front.size (attempt rest pattern) (attempt (front ++ rest) pattern) := by
  induction pattern with
  | empty => exact id
  | char set =>
    intro next moved carries state
    simp only [attempt, Progress.shift_pos, Source.append_char?, Nat.add_assoc, carries.move]
    split <;> rfl
  | seq first second ihFirst ihSecond =>
    obtain ⟨here, there⟩ := Bool.and_eq_true_iff.mp forward
    exact fun carries => ihFirst here (ihSecond there carries)
  | alt first second ihFirst ihSecond =>
    obtain ⟨here, there⟩ := Bool.and_eq_true_iff.mp forward
    intro next moved carries state
    simp only [attempt, ihFirst here carries state, ihSecond there carries state]
    cases attempt rest first next state <;> rfl
  | group index body ih =>
    intro next moved carries state
    have inner : Carries front.size (fun inner => next (inner.capture index state.pos))
        (fun inner => moved (inner.capture index (state.shift front.size).pos)) :=
      fun inner => carries (inner.capture index state.pos)
    exact ih forward inner state
  | backref index foldCase =>
    intro next moved carries state
    simp only [attempt, Progress.capture?_shift]
    cases state.capture? index with
    | none => rfl
    | some found =>
      simp only [Option.map_some, Capture.shift, Progress.shift_pos, Nat.add_sub_add_left, repeats_append,
        Nat.add_assoc, carries.move]
      split <;> rfl
  | «repeat» least most greedy body ih =>
    intro next moved carries
    apply carries_requiredCopies (ih forward)
    intro state
    simp only [Progress.shift_pos, room_append]
    exact carries_optionalCopies (ih forward) carries greedy _ none state
  | span least most greedy set follow => exact carries_span least most greedy set follow
  | look back complement body ih =>
    obtain ⟨none, inner⟩ := Bool.and_eq_true_iff.mp forward
    obtain rfl := beq_iff_eq.mp none
    intro next moved carries state
    have tried := (ih inner (carries_some front.size)).move state state.pos
    simp only [attempt, Nat.not_lt_zero, if_false, Nat.sub_zero, Progress.shift_pos, tried, carries state]
    cases attempt rest body some (state.move state.pos) with
    | none => simp only [Option.map_none]; split <;> rfl
    | some inner => simp only [Option.map_some, carries.move]; split <;> rfl
  | anchor condition =>
    intro next moved carries state
    simp only [attempt, Progress.shift_pos, Anchor.holds_append front rest forward]
    split
    · exact carries state
    · rfl
  | atLeast room body ih =>
    intro next moved carries state
    simp only [attempt, Progress.shift_pos, room_append, ih forward carries state]
    split <;> rfl

/-- The match ends as much further on as it begins. -/
theorem end?_append {pattern : Pattern} (forward : pattern.isForward = true) (front rest : Source) (start : Nat) :
    pattern.end? (front ++ rest) (front.size + start) = (pattern.end? rest start).map (front.size + ·) := by
  have moved : pattern.attempt (front ++ rest) some ⟨front.size + start, []⟩ =
      (pattern.attempt rest some ⟨start, []⟩).map (Progress.shift front.size) :=
    attempt_carries forward (carries_some _) ⟨start, []⟩
  rw [end?, end?, moved, Option.map_map, Option.map_map]
  rfl

/-! ## Patterns put together -/

abbrev AllForward (patterns : List Pattern) : Prop := ∀ pattern ∈ patterns, pattern.isForward = true

theorem isForward_before (opening : Option CharSet) (pattern : Pattern) :
    (pattern.before opening).isForward = pattern.isForward := by
  cases pattern <;> rfl

theorem isForward_ofSequence {patterns : List Pattern} (forward : AllForward patterns) :
    (ofSequence patterns).isForward = true := by
  fun_induction ofSequence patterns with
  | case1 => rfl
  | case2 pattern => exact forward pattern (List.mem_singleton_self _)
  | case3 pattern rest _ tail ih =>
    obtain ⟨here, others⟩ := List.forall_mem_cons.mp forward
    rw [isForward, isForward_before, here, ih others]
    rfl

theorem allForward_parts {pattern : Pattern} (forward : pattern.isForward = true) : AllForward pattern.parts := by
  induction pattern with
  | empty => exact List.forall_mem_nil _
  | seq first second ihFirst ihSecond =>
    obtain ⟨here, there⟩ := Bool.and_eq_true_iff.mp forward
    exact List.forall_mem_append.mpr ⟨ihFirst here, ihSecond there⟩
  | _ => exact List.forall_mem_singleton.mpr forward

/-- Whether a pattern looks behind can be told from its parts, in whatever order. -/
theorem composes_forward : Composes (·.isForward = true) AllForward where
  each := id
  sequence := isForward_ofSequence
  parts := allForward_parts
  append front rest := List.forall_mem_append.mpr ⟨front, rest⟩
  tail forward := (List.forall_mem_cons.mp forward).2
  shared _ forward := List.forall_mem_singleton.mpr (List.forall_mem_cons.mp forward).1
  char _ := rfl
  alt first second := Bool.and_eq_true_iff.mpr ⟨first, second⟩

theorem isForward_quantify (least : Nat) (most : Option Nat) (greedy : Bool) {pattern : Pattern}
    (forward : pattern.isForward = true) : (pattern.quantify least most greedy).isForward = true := by
  cases pattern with
  | char set => rfl
  | _ => exact forward

end Pattern

/-! ## Patterns from tokens -/

/-- Whether a token is none of those that look behind: the conditions `^`, `\A`, `\b` and `\B`, and lookbehind. -/
def PatternToken.isForward : PatternToken → Bool
  | .leaf pattern => pattern.isForward
  | .opening (.look behind _) => !behind
  | _ => true

/-- Nothing within a frame looks behind, and what it becomes does not. -/
structure Frame.IsForward (frame : Frame) : Prop where
  branches : Pattern.AllForward frame.branches
  parts : Pattern.AllForward frame.parts
  kind : ∀ complement known, frame.kind ≠ .look true complement known

structure Assembly.IsForward (state : Assembly) : Prop where
  current : state.current.IsForward
  outer : ∀ frame ∈ state.outer, frame.IsForward

namespace Frame.IsForward

variable {frame : Frame}

theorem fresh {kind : FrameKind} (ahead : ∀ complement known, kind ≠ .look true complement known) :
    (Frame.fresh kind).IsForward :=
  ⟨List.forall_mem_nil _, List.forall_mem_nil _, ahead⟩

theorem holds (forward : frame.IsForward) : frame.Holds (·.isForward = true) := ⟨forward.branches, forward.parts⟩

theorem push (forward : frame.IsForward) {part : Pattern} (ahead : part.isForward = true) (repeatable : Bool) :
    (frame.push part repeatable).IsForward :=
  ⟨forward.branches, (forward.holds.push ahead repeatable).parts, forward.kind⟩

theorem branch (forward : frame.IsForward) : frame.branch.IsForward := by
  have branched := forward.holds.branch Pattern.composes_forward
  exact ⟨branched.branches, branched.parts, forward.kind⟩

theorem pattern (forward : frame.IsForward) : frame.pattern.isForward = true :=
  forward.holds.pattern Pattern.composes_forward

end Frame.IsForward

namespace Assembly.IsForward

variable {state next : Assembly}

theorem start : Assembly.start.IsForward := ⟨.fresh nofun, List.forall_mem_nil _⟩

theorem openGroup (forward : state.IsForward) {kind : GroupKind}
    (ahead : (PatternToken.opening kind).isForward = true) : (state.openGroup kind).IsForward := by
  have outer : ∀ frame ∈ state.current :: state.outer, frame.IsForward :=
    List.forall_mem_cons.mpr ⟨forward.current, forward.outer⟩
  cases kind with
  | capturing => exact ⟨.fresh nofun, outer⟩
  | plain => exact ⟨.fresh nofun, outer⟩
  | look behind complement =>
    cases behind with
    | true => cases ahead
    | false => exact ⟨.fresh nofun, outer⟩

theorem closeGroup (forward : state.IsForward) (closed : state.closeGroup? = some next) : next.IsForward := by
  have body := forward.current.pattern
  rw [closeGroup?] at closed
  split at closed
  · cases closed
  · next frame outer here =>
    obtain ⟨enclosing, others⟩ := List.forall_mem_cons.mp (here ▸ forward.outer)
    split at closed
    · cases closed
      exact ⟨enclosing.push body true, others⟩
    · next index _ =>
      cases closed
      have group : (Pattern.group index state.current.pattern).isForward = true := body
      exact ⟨enclosing.push group true, others⟩
    · next complement _ _ =>
      cases closed
      have look : (Pattern.look 0 complement state.current.pattern).isForward = true := body
      exact ⟨enclosing.push look true, others⟩
    · next complement known behind => exact (forward.current.kind complement known behind).elim

/-- One token that does not look behind keeps all that was read from looking behind. -/
theorem step (forward : state.IsForward) {token : PatternToken} (ahead : token.isForward = true)
    (taken : state.step? token = some next) : next.IsForward := by
  cases token with
  | leaf pattern =>
    have pushed (repeatable : Bool) :
        Assembly.IsForward { state with current := state.current.push pattern repeatable } :=
      ⟨forward.current.push ahead repeatable, forward.outer⟩
    cases pattern with
    | backref index foldCase =>
      simp only [step?] at taken
      split at taken <;> cases taken
      exact pushed true
    | anchor condition => cases taken; exact pushed false
    | _ => cases taken; exact pushed true
  | opening kind => cases taken; exact forward.openGroup ahead
  | closing => exact forward.closeGroup taken
  | bar => cases taken; exact ⟨forward.current.branch, forward.outer⟩
  | quantifier least most greedy =>
    simp only [step?] at taken
    split at taken
    · next part parts _ here =>
      cases taken
      obtain ⟨last, others⟩ := List.forall_mem_cons.mp (here ▸ forward.current.parts)
      have quantified := Pattern.isForward_quantify least most greedy last
      exact ⟨⟨forward.current.branches, List.forall_mem_cons.mpr ⟨quantified, others⟩, forward.current.kind⟩,
        forward.outer⟩
    · cases taken

/-- Tokens that do not look behind keep all that is read from looking behind. -/
theorem steps {tokens : List PatternToken} (forward : state.IsForward)
    (ahead : ∀ token ∈ tokens, token.isForward = true) (taken : tokens.foldlM Assembly.step? state = some next) :
    next.IsForward := by
  induction tokens generalizing state with
  | nil => cases taken; exact forward
  | cons token rest ih =>
    obtain ⟨here, others⟩ := List.forall_mem_cons.mp ahead
    obtain ⟨middle, first, last⟩ := Option.bind_eq_some_iff.mp taken
    exact ih (forward.step here first) others last

end Assembly.IsForward

/-- A text none of whose tokens looks behind describes a pattern that does not. -/
theorem Pattern.isForward_of_compile? {flags : PatternFlags} {text : String} {tokens : List PatternToken}
    (scanned : PatternToken.scan? flags text.toList = some tokens)
    (ahead : ∀ token ∈ tokens, token.isForward = true) {tree : Pattern}
    (compiled : compile? flags text = some tree) : tree.isForward = true := by
  rw [compile?, scanned, Option.bind_eq_bind, Option.bind_some, ofTokens?] at compiled
  obtain ⟨state, taken, finished⟩ := Option.bind_eq_some_iff.mp compiled
  have forward : state.current.pattern.isForward = true := (Assembly.IsForward.start.steps ahead taken).current.pattern
  simp only [Assembly.finish?] at finished
  split at finished <;> cases finished
  split <;> exact forward

end RecursiveDescent
