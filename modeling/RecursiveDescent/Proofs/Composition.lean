import RecursiveDescent.Pattern.Assembly

/-! # Patterns put together

When branches are joined, they are taken apart and put together again: what all begin with is shared, sets of characters
become one, and a branch that is repeated is dropped. A property of patterns survives this if it can be told from the
parts in their order; then it passes from all that a frame has collected to the pattern that the frame becomes.
-/

namespace RecursiveDescent

namespace Pattern

/-- A property of patterns, and what it means for parts that follow one another. -/
structure Composes (good : Pattern → Prop) (inOrder : List Pattern → Prop) : Prop where
  each : ∀ {parts}, (∀ part ∈ parts, good part) → inOrder parts
  sequence : ∀ {parts}, inOrder parts → good (ofSequence parts)
  parts : ∀ {pattern}, good pattern → inOrder pattern.parts
  append : ∀ {front rest}, inOrder front → inOrder rest → inOrder (front ++ rest)
  tail : ∀ {head rest}, inOrder (head :: rest) → inOrder rest
  /-- What may be shared does not depend on what follows it. -/
  shared : ∀ {head rest}, head.isSingleWay = true → inOrder (head :: rest) → inOrder [head]
  char : ∀ set, good (.char set)
  alt : ∀ {first second}, good first → good second → good (.alt first second)

namespace Composes

variable {good : Pattern → Prop} {inOrder : List Pattern → Prop} (composes : Composes good inOrder)
include composes

theorem nil : inOrder [] := composes.each (List.forall_mem_nil _)

theorem empty : good .empty := composes.sequence composes.nil

/-- What branches share, and what is left of each, are parts in the order of the branches. -/
theorem shareStart {branch : List Pattern} {others : List (List Pattern)} (here : inOrder branch)
    (there : ∀ other ∈ others, inOrder other) :
    inOrder (shareStart branch others).1 ∧ ∀ rest ∈ (Pattern.shareStart branch others).2, inOrder rest := by
  induction branch generalizing others with
  | nil => exact ⟨composes.nil, List.forall_mem_cons.mpr ⟨here, there⟩⟩
  | cons head tail ih =>
    rw [Pattern.shareStart]
    split
    · next same =>
      obtain ⟨single, _⟩ := Bool.and_eq_true_iff.mp same
      have tails : ∀ other ∈ others.map List.tail, inOrder other := by
        refine List.forall_mem_map.mpr fun other member => ?_
        cases other with
        | nil => exact composes.nil
        | cons first rest => exact composes.tail (there _ member)
      obtain ⟨shared, branches⟩ := ih (composes.tail here) tails
      exact ⟨composes.append (composes.shared single here) shared, branches⟩
    · exact ⟨composes.nil, List.forall_mem_cons.mpr ⟨here, there⟩⟩

theorem joinSets? {branches : List Pattern} {joined : Pattern} (found : joinSets? branches = some joined) :
    good joined := by
  simp only [Pattern.joinSets?, Option.bind_eq_bind, Option.bind_eq_some_iff] at found
  obtain ⟨sets, _, found⟩ := found
  split at found <;> cases found
  exact composes.char _

theorem choice {patterns : List Pattern} (all : ∀ pattern ∈ patterns, good pattern) : good (choice patterns) := by
  fun_induction Pattern.choice patterns with
  | case1 => exact composes.empty
  | case2 pattern => exact all pattern (List.mem_singleton_self _)
  | case3 pattern rest _ ih =>
    obtain ⟨here, others⟩ := List.forall_mem_cons.mp all
    exact composes.alt here (ih others)

theorem ofBranches {branches : List Pattern} (all : ∀ branch ∈ branches, good branch) : good (ofBranches branches) := by
  match branches with
  | [] => exact composes.empty
  | [pattern] => exact all pattern (List.mem_singleton_self _)
  | first :: second :: rest =>
    obtain ⟨here, others⟩ := List.forall_mem_cons.mp all
    have there : ∀ branch ∈ (second :: rest).map Pattern.parts, inOrder branch :=
      List.forall_mem_map.mpr fun branch member => composes.parts (others branch member)
    obtain ⟨shared, left⟩ := composes.shareStart (composes.parts here) there
    have sequences : ∀ branch ∈ (Pattern.shareStart first.parts ((second :: rest).map Pattern.parts)).2.map ofSequence,
        good branch := List.forall_mem_map.mpr fun branch member => composes.sequence (left branch member)
    apply composes.sequence
    refine composes.append shared (composes.parts ?_)
    cases joined : Pattern.joinSets?
        ((Pattern.shareStart first.parts ((second :: rest).map Pattern.parts)).2.map ofSequence) with
    | some pattern => exact composes.joinSets? joined
    | none => exact composes.choice fun pattern member => sequences pattern (List.mem_eraseDups.mp member)

end Composes

end Pattern

structure Frame.Holds (good : Pattern → Prop) (frame : Frame) : Prop where
  branches : ∀ branch ∈ frame.branches, good branch
  parts : ∀ part ∈ frame.parts, good part

namespace Frame.Holds

variable {good better : Pattern → Prop} {inOrder : List Pattern → Prop} {frame : Frame}

theorem fresh (kind : FrameKind) : (Frame.fresh kind).Holds good := ⟨List.forall_mem_nil _, List.forall_mem_nil _⟩

theorem mono (imp : ∀ pattern, good pattern → better pattern) (holds : frame.Holds good) : frame.Holds better :=
  ⟨fun branch member => imp branch (holds.branches branch member),
    fun part member => imp part (holds.parts part member)⟩

theorem push (holds : frame.Holds good) {part : Pattern} (added : good part) (repeatable : Bool) :
    (frame.push part repeatable).Holds good :=
  ⟨holds.branches, List.forall_mem_cons.mpr ⟨added, holds.parts⟩⟩

theorem branch (composes : Pattern.Composes good inOrder) (holds : frame.Holds good) : frame.branch.Holds good := by
  have sequence : good (Pattern.ofSequence frame.parts.reverse) :=
    composes.sequence (composes.each fun part member => holds.parts part (List.mem_reverse.mp member))
  exact ⟨List.forall_mem_cons.mpr ⟨sequence, holds.branches⟩, List.forall_mem_nil _⟩

theorem pattern (composes : Pattern.Composes good inOrder) (holds : frame.Holds good) : good frame.pattern :=
  composes.ofBranches fun branch member => (holds.branch composes).branches branch (List.mem_reverse.mp member)

end Frame.Holds

end RecursiveDescent
