import RecursiveDescent.Proofs.Reachability

/-! # Calls and what is called

A reference stands for whatever is stored at its address. So it may be replaced by what is stored there, in a tree
and throughout the store, without any effect on parses: they come to an end in the one form if and only if they do
in the other, with the same run. A call spends one unit of the limit and the body in its place spends none, which is
why the two are compared limit by limit in both directions.
-/

namespace RecursiveDescent

namespace Parser

mutual

/-- A parser with other parsers in the place of its references. -/
def subst (put : Address → Parser) : Parser → Parser
  | .map child action => .map (child.subst put) action
  | .sequence children => .sequence (substAll put children)
  | .choice first rest => .choice (first.subst put) (substAll put rest)
  | .many child => .many (child.subst put)
  | .sepBy item separator => .sepBy (item.subst put) (separator.subst put)
  | .observed observer child => .observed observer (child.subst put)
  | .ref address => put address
  | leaf => leaf

def substAll (put : Address → Parser) : List Parser → List Parser
  | [] => []
  | child :: rest => child.subst put :: substAll put rest

end

variable {put : Address → Parser}

theorem substAll_eq_map (put : Address → Parser) (children : List Parser) :
    substAll put children = children.map (subst put) := by
  induction children with
  | nil => rfl
  | cons child rest ih => simp only [substAll, ih, List.map_cons]

/-- What is put in the place of a reference is run where the reference would be called. -/
theorem matcher_subst (limit : Nat) (call : Address → Matcher) (parser : Parser) :
    (parser.subst put).matcher limit call = parser.matcher limit fun address => (put address).matcher limit call := by
  induction parser with
  | literal _ | pattern _ _ | nothing | integer | float | fixed _ | unpatched _ | foreign _ | ref _ => rfl
  | map _ _ ih | many _ ih | observed _ _ ih => simp only [subst, matcher, ih]
  | sepBy _ _ ihItem ihSeparator => simp only [subst, matcher, ihItem, ihSeparator]
  | sequence children ih =>
    simp only [subst, matcher, matchers_eq_map, substAll_eq_map, List.map_map]
    exact congrArg Matcher.sequence (List.map_congr_left ih)
  | choice first rest ihFirst ihRest =>
    simp only [subst, matcher, matchers_eq_map, substAll_eq_map, List.map_map, ihFirst]
    exact congrArg (Matcher.choice _) (List.map_congr_left ihRest)

/-- The references that are left are those of what was put in. -/
theorem confined_subst {known : Address → Prop}
    (each : ∀ address, (put address).Confined (fun _ => True) known fun _ => True) (parser : Parser) :
    (parser.subst put).Confined (fun _ => True) known fun _ => True := by
  have all {children : List Parser}
      (inner : ∀ child ∈ children, (child.subst put).Confined (fun _ => True) known fun _ => True) :
      ∀ child ∈ substAll put children, child.Confined (fun _ => True) known fun _ => True := by
    rw [substAll_eq_map]
    exact List.forall_mem_map.mpr inner
  induction parser with
  | literal _ | pattern _ _ | nothing | integer | float | fixed _ | unpatched _ | foreign _ =>
    exact Tree.every_of_children trivial (List.forall_mem_nil _)
  | map _ _ ih | many _ ih | observed _ _ ih =>
    exact Tree.every_of_children trivial (List.forall_mem_singleton.mpr ih)
  | sequence _ ih => exact Tree.every_of_children trivial (all ih)
  | choice _ _ ihFirst ihRest => exact Tree.every_of_children trivial (List.forall_mem_cons.mpr ⟨ihFirst, all ihRest⟩)
  | sepBy _ _ ihItem ihSeparator =>
    exact Tree.every_of_children trivial
      (List.forall_mem_cons.mpr ⟨ihItem, List.forall_mem_singleton.mpr ihSeparator⟩)
  | ref address => exact each address

def inline (parser : Parser) (address : Address) (body : Parser) : Parser :=
  parser.subst fun other => if other = address then body else .ref other

/-- A parser that does not occur in what is put in its place does not occur at all any more. -/
theorem confined_inline {address : Address} {body : Parser} (apart : ¬Tree.Part children (.ref address) body)
    (parser : Parser) : (parser.inline address body).Confined (fun _ => True) (· ≠ address) fun _ => True := by
  apply confined_subst
  intro other
  split
  · intro part within
    cases part with
    | ref inner => rintro rfl; exact apart within
    | _ => trivial
  · next distinct => exact Tree.every_of_children distinct (List.forall_mem_nil _)

end Parser

namespace Store

def inline (store : Store) (address : Address) (body : Parser) : Store := store.mapBodies (·.inline address body)

/-- The calls of a store, but the body of one address is run in place of its call. -/
def callInline (store : Store) (address : Address) (body : Parser) (limit : Nat) (other : Address) : Matcher :=
  if other = address then body.matcher limit (store.call limit) else store.call limit other

variable {store : Store} {address : Address} {body : Parser}

/-- A tree in which the calls are replaced makes the calls in which the body is. -/
theorem matcher_inline (parser : Parser) (limit : Nat) :
    (parser.inline address body).matcher limit (store.call limit) =
      parser.matcher limit (store.callInline address body limit) := by
  rw [Parser.inline, Parser.matcher_subst]
  congr 1
  funext other
  simp only [callInline]
  split <;> rfl

theorem call_inline {other : Address} {tree : Parser} (stored : store.body? other = some tree) (limit : Nat) :
    (store.inline address body).call (limit + 1) other =
      tree.matcher limit ((store.inline address body).callInline address body limit) := by
  have present : (store.inline address body).body? other = some (tree.inline address body) := by
    rw [inline, mapBodies_body?, stored, Option.map_some]
  rw [call_of_body present, matcher_inline]

theorem call_inline_of_none {other : Address} (missing : store.body? other = none) (limit : Nat) :
    (store.inline address body).call limit other = fun _ _ => .unfinished := by
  apply call_of_none
  rw [inline, mapBodies_body?, missing, Option.map_none]

/-! ## Comparison -/

section Comparison

variable (stored : store.body? address = some body)
include stored

/-- If calls give the runs that they give in the store, so does the body in place of its call: it has a unit of the
limit more than the call leaves to it. -/
theorem callInline_extends {limit : Nat}
    (calls : ∀ other, ((store.inline address body).call limit other).Extends (fun _ => True) (store.call limit other))
    (other : Address) :
    ((store.inline address body).callInline address body limit other).Extends (fun _ => True)
      (store.call limit other) := by
  simp only [callInline]
  split
  · next same =>
    subst same
    cases limit with
    | zero => exact fun source pos => Run.extends_unfinished _
    | succ limit =>
      rw [call_of_body stored]
      apply Parser.matcher_extends _ (Nat.le_succ limit)
      exact fun inner => (calls inner).trans (call_extends store.completes_refl (Nat.le_succ limit) inner)
  · exact calls other

/-- Where the body is run in place of its call, calls give the runs that they give in the store. -/
theorem call_inline_extends (limit : Nat) (other : Address) :
    ((store.inline address body).call limit other).Extends (fun _ => True) (store.call limit other) := by
  induction limit generalizing other with
  | zero => exact fun source pos => Run.extends_unfinished _
  | succ limit ih =>
    cases present : store.body? other with
    | none => rw [call_of_none present]; exact fun source pos => Run.extends_unfinished _
    | some tree =>
      rw [call_inline present, call_of_body present]
      exact Parser.matcher_extends (callInline_extends stored ih) (Nat.le_refl limit) tree

/-- If calls give the runs of the calls that remain, so does the call of the body that was put in its place, with
one unit of the limit more. -/
theorem extends_callInline {limit more : Nat} (le : limit ≤ more)
    (calls : ∀ other, (store.call more other).Extends (fun _ => True) ((store.inline address body).call limit other))
    (other : Address) :
    (store.call (more + 1) other).Extends (fun _ => True)
      ((store.inline address body).callInline address body limit other) := by
  simp only [callInline]
  split
  · next same =>
    subst same
    rw [call_of_body stored]
    exact Parser.matcher_extends calls le body
  · exact (call_extends store.completes_refl (Nat.le_succ more) other).trans (calls other)

/-- In the store, calls give the runs that they give where the body is run in place of its call. Between any two
calls that remain there is one at most that was replaced, so that twice the limit is enough. -/
theorem call_extends_inline (limit : Nat) (other : Address) :
    (store.call (2 * limit) other).Extends (fun _ => True) ((store.inline address body).call limit other) := by
  induction limit generalizing other with
  | zero => exact fun source pos => Run.extends_unfinished _
  | succ limit ih =>
    cases present : store.body? other with
    | none => rw [call_inline_of_none present]; exact fun source pos => Run.extends_unfinished _
    | some tree =>
      have le : limit ≤ 2 * limit := by omega
      rw [call_inline present, show 2 * (limit + 1) = 2 * limit + 1 + 1 by omega, call_of_body present]
      exact Parser.matcher_extends (extends_callInline stored le ih) (Nat.le_succ_of_le le) tree

/-- A parser parses as it does with what is stored at an address in the place of all references to it. -/
theorem parses_inline_iff (parser : Parser) (source : Source) (pos : Int) (run : Run Result) :
    store.Parses parser source pos run ↔
      (store.inline address body).Parses (parser.inline address body) source pos run := by
  constructor
  · rintro ⟨finished, limit, rfl⟩
    refine ⟨finished, limit, ?_⟩
    rw [matcher_inline]
    apply Parser.matcher_extends _ (Nat.le_refl limit) parser source pos (Run.settled_iff_finished.mpr finished)
    exact callInline_extends stored (call_inline_extends stored limit)
  · rintro ⟨finished, limit, rfl⟩
    have le : limit ≤ 2 * limit := by omega
    refine ⟨finished, 2 * limit + 1, ?_⟩
    rw [matcher_inline] at finished ⊢
    apply Parser.matcher_extends _ (Nat.le_succ_of_le le) parser source pos (Run.settled_iff_finished.mpr finished)
    exact extends_callInline stored le (call_extends_inline stored limit)

end Comparison

end Store

end RecursiveDescent
