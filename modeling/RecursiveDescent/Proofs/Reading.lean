import Mathlib.Data.Int.Order.Basic
import Mathlib.Order.Lattice
import RecursiveDescent.Proofs.PatternMatches
import RecursiveDescent.Parser

/-! # What matchers read

Within one source, an offset is given by the text that is left there. A matcher reads some text if it
succeeds where that text is left, spans what it read, and leaves the text that comes after; none of this
gives rise to events. What combinators read follows from what their children read or miss.
-/

namespace RecursiveDescent

/-- Where a text is left, if it is what the source ends with. -/
def Source.offset (source : Source) (text : List Char) : Int := source.size - text.length

namespace Source

variable {source : Source} {text read after : List Char}

theorem offset_append (source : Source) (read after : List Char) :
    source.offset after = source.offset (read ++ after) + read.length := by
  simp only [offset, List.length_append]
  omega

theorem exists_offset (left : text <:+ source.chars.toList) :
    ∃ pos : Nat, source.offset text = pos ∧ pos ≤ source.size ∧ source.rest pos = text := by
  have le : text.length ≤ source.size := left.length_le
  refine ⟨source.size - text.length, by simp only [offset]; omega, Nat.sub_le _ _, ?_⟩
  exact (List.suffix_iff_eq_drop.mp left).symm

theorem offset_le (source : Source) (text : List Char) : source.offset text ≤ source.size := by
  simp only [offset]
  omega

theorem offset_nonneg (left : text <:+ source.chars.toList) : 0 ≤ source.offset text := by
  have le : text.length ≤ source.size := left.length_le
  simp only [offset]
  omega

end Source

namespace Matcher

/-- Where some text is left, a matcher succeeds with a value, without events, and leaves the text after. -/
structure Reads (matcher : Matcher) (source : Source) (text after : List Char) (value : Value) : Prop where
  leaves : after <:+ text
  succeeds : text <:+ source.chars.toList → matcher source (source.offset text) =
    pure (.success ⟨source.offset after, ⟨source.offset text, source.offset after⟩, value⟩)

/-- Where some text is left, a matcher fails without events. -/
def Misses (matcher : Matcher) (source : Source) (text : List Char) : Prop :=
  text <:+ source.chars.toList → ∃ missed, matcher source (source.offset text) = pure (.failure missed)

/-- Two matchers do the same wherever in a source they are called. -/
def AgreeOn (source : Source) (first second : Matcher) : Prop :=
  ∀ pos : Int, 0 ≤ pos → pos ≤ source.size → first source pos = second source pos

variable {source : Source} {child first second item separator : Matcher} {children rest before : List Matcher}
  {text middle read after : List Char} {value : Value} {values : List Value} {tree : Pattern} {limit : Nat}

theorem AgreeOn.reads (agree : AgreeOn source first second) (reads : second.Reads source text after value) :
    first.Reads source text after value :=
  ⟨reads.leaves, fun left =>
    (agree _ (Source.offset_nonneg left) (Source.offset_le source text)).trans (reads.succeeds left)⟩

theorem AgreeOn.misses (agree : AgreeOn source first second) (misses : second.Misses source text) :
    first.Misses source text := by
  intro left
  rw [agree _ (Source.offset_nonneg left) (Source.offset_le source text)]
  exact misses left

/-! ## Leaves -/

theorem reads_pattern (label : String)
    (matched : ∀ start, source.rest start = read ++ after → tree.end? source start = some (start + read.length)) :
    (pattern tree label).Reads source (read ++ after) after (.text (String.ofList read)) := by
  refine ⟨List.suffix_append _ _, fun left => ?_⟩
  obtain ⟨pos, here, le, rest⟩ := Source.exists_offset left
  have clamped := Source.clamp_of_le le
  rw [Source.offset_append source read after, here]
  simp only [pattern, clamped, matched pos rest, Source.extract_of_rest rest]
  rfl

theorem misses_pattern (label : String)
    (failed : ∀ start, source.rest start = text → tree.end? source start = none) :
    (pattern tree label).Misses source text := by
  intro left
  obtain ⟨pos, here, le, rest⟩ := Source.exists_offset left
  have clamped := Source.clamp_of_le le
  rw [here]
  simp only [pattern, clamped, failed pos rest]
  exact ⟨_, rfl⟩

/-- A literal is compared with as many of the characters that are left. -/
theorem literal_slice {pos : Nat} (here : source.rest pos = text) (le : pos ≤ source.size) (word : String) :
    source.slice pos (max pos (min (pos + word.length) source.size)) = String.ofList (text.take word.length) := by
  have room := Source.room_of_rest here
  have stop : max (pos : Int) (min (pos + word.length) source.size) = pos + (text.take word.length).length := by
    rw [List.length_take]
    omega
  rw [stop, Source.slice_of_rest (here.trans (List.take_append_drop word.length text).symm) le]

theorem reads_literal (source : Source) (word : String) (after : List Char) :
    (literal word).Reads source (word.toList ++ after) after (.text word) := by
  refine ⟨List.suffix_append _ _, fun left => ?_⟩
  obtain ⟨pos, here, le, rest⟩ := Source.exists_offset left
  have room := Source.room_of_rest rest
  rw [List.length_append, String.length_toList] at room
  have same : source.slice pos (max pos (min (pos + word.length) source.size)) = word := by
    rw [literal_slice rest le, ← String.length_toList, List.take_left, String.ofList_toList]
  have stop : max (pos : Int) (min (pos + word.length) source.size) = pos + word.length := by omega
  rw [Source.offset_append source word.toList after, here, String.length_toList]
  rw [stop] at same
  simp only [literal, stop, same, if_true]

theorem misses_literal {word : String} (differs : ¬word.toList <+: text) : (literal word).Misses source text := by
  intro left
  obtain ⟨pos, here, le, rest⟩ := Source.exists_offset left
  have other : source.slice pos (max pos (min (pos + word.length) source.size)) ≠ word := by
    rw [literal_slice rest le]
    intro same
    have taken := congrArg String.toList same
    rw [String.toList_ofList] at taken
    exact differs (taken ▸ List.take_prefix _ _)
  rw [here]
  simp only [literal, if_neg other]
  exact ⟨_, rfl⟩

/-! ## Combinators -/

theorem reads_map {action : Action} {result : Value} (reads : child.Reads source text after value)
    (applied : ∀ span, action value span = pure result) : (map child action).Reads source text after result := by
  refine ⟨reads.leaves, fun left => ?_⟩
  simp only [map, onSuccess, reads.succeeds left, applied, pure_bind]

theorem misses_map {action : Action} (misses : child.Misses source text) :
    (map child action).Misses source text := by
  intro left
  obtain ⟨missed, failed⟩ := misses left
  exact ⟨missed, by simp only [map, onSuccess, failed, pure_bind]⟩

/-- Matchers that are tried one after another read parts of a text that follow one another. -/
inductive ReadsAll (source : Source) : List Matcher → List Char → List Char → List Value → Prop
  | nil (text : List Char) : ReadsAll source [] text text []
  | cons {child : Matcher} {children : List Matcher} {text middle after : List Char} {value : Value}
      {values : List Value} (first : child.Reads source text middle value)
      (others : ReadsAll source children middle after values) :
      ReadsAll source (child :: children) text after (value :: values)

theorem ReadsAll.leaves (all : ReadsAll source children text after values) : after <:+ text := by
  induction all with
  | nil text => exact List.suffix_refl _
  | cons first _ ih => exact ih.trans first.leaves

theorem ReadsAll.chain (all : ReadsAll source children text after values) (left : text <:+ source.chars.toList) :
    chain source children (source.offset text) = pure (.ok ⟨values, source.offset after⟩) := by
  induction all with
  | nil text => rfl
  | cons first _ ih =>
    simp only [Matcher.chain, first.succeeds left, ih (first.leaves.trans left), pure_bind]

theorem reads_sequence (all : ReadsAll source children text after values) :
    (sequence children).Reads source text after (.list values) :=
  ⟨all.leaves, fun left => by simp only [sequence, all.chain left, pure_bind]⟩

/-- A sequence misses if its first parts read and the next one misses. -/
theorem misses_sequence (all : ReadsAll source before text middle values) (misses : child.Misses source middle) :
    (sequence (before ++ child :: rest)).Misses source text := by
  intro left
  obtain ⟨missed, failed⟩ : ∃ missed, chain source (before ++ child :: rest) (source.offset text) =
      pure (.error missed) := by
    induction all with
    | nil text =>
      obtain ⟨missed, failed⟩ := misses left
      exact ⟨missed, by simp only [List.nil_append, chain, failed, pure_bind]⟩
    | cons first _ ih =>
      obtain ⟨missed, failed⟩ := ih misses (first.leaves.trans left)
      exact ⟨missed, by simp only [List.cons_append, chain, first.succeeds left, failed, pure_bind]⟩
  exact ⟨missed, by simp only [sequence, failed, pure_bind]⟩

theorem reads_orElse (reads : first.Reads source text after value) :
    (orElse first second).Reads source text after value :=
  ⟨reads.leaves, fun left => by simp only [orElse, reads.succeeds left, pure_bind]⟩

theorem reads_orElse_of_misses (misses : first.Misses source text) (reads : second.Reads source text after value) :
    (orElse first second).Reads source text after value := by
  refine ⟨reads.leaves, fun left => ?_⟩
  obtain ⟨missed, failed⟩ := misses left
  simp only [orElse, failed, reads.succeeds left, pure_bind]

theorem misses_orElse (misses : first.Misses source text) (missesSecond : second.Misses source text) :
    (orElse first second).Misses source text := by
  intro left
  obtain ⟨missed, failed⟩ := misses left
  obtain ⟨later, failedSecond⟩ := missesSecond left
  exact ⟨_, by simp only [orElse, failed, failedSecond, pure_bind]; rfl⟩

/-- A choice reads what its first alternative does. -/
theorem reads_choice (reads : first.Reads source text after value) :
    (choice first rest).Reads source text after value := by
  induction rest generalizing first with
  | nil => exact reads
  | cons second rest ih => exact ih (reads_orElse reads)

/-- A choice reads what an alternative does, if those before it miss. -/
theorem reads_choice_of_misses (misses : first.Misses source text) (others : ∀ other ∈ before, other.Misses source text)
    (reads : child.Reads source text after value) :
    (choice first (before ++ child :: rest)).Reads source text after value := by
  induction before generalizing first with
  | nil =>
    have chosen : (choice (orElse first child) rest).Reads source text after value :=
      reads_choice (reads_orElse_of_misses misses reads)
    exact chosen
  | cons second before ih =>
    obtain ⟨missesSecond, others⟩ := List.forall_mem_cons.mp others
    exact ih (misses_orElse misses missesSecond) others

/-- A choice reads what one of its alternatives does, if all others miss. -/
theorem reads_choice_of_mem {α : Type} {read : α → Matcher} {chosen head : α} {tail : List α}
    (among : chosen ∈ head :: tail)
    (misses : ∀ other ∈ head :: tail, other ≠ chosen → (read other).Misses source text)
    (reads : (read chosen).Reads source text after value) :
    (choice (read head) (tail.map read)).Reads source text after value := by
  by_cases same : head = chosen
  · exact reads_choice (same ▸ reads)
  · have further : chosen ∈ tail := (List.mem_cons.mp among).resolve_left (Ne.symm same)
    obtain ⟨before, behind, rfl, fresh⟩ := List.eq_append_cons_of_mem further
    rw [List.map_append, List.map_cons]
    refine reads_choice_of_misses (misses head (List.mem_cons_self ..) same) (List.forall_mem_map.mpr ?_) reads
    intro other member
    apply misses other (List.mem_cons_of_mem _ (List.mem_append_left _ member))
    rintro rfl
    exact fresh member

theorem misses_choice (misses : first.Misses source text) (others : ∀ other ∈ rest, other.Misses source text) :
    (choice first rest).Misses source text := by
  induction rest generalizing first with
  | nil => exact misses
  | cons second rest ih =>
    obtain ⟨missesSecond, others⟩ := List.forall_mem_cons.mp others
    exact ih (misses_orElse misses missesSecond) others

/-- A loop reads parts that are not empty until nothing is left or its child misses. -/
inductive ReadsMany (source : Source) (child : Matcher) : List Char → List Char → List Value → Prop
  | stop {text : List Char} (misses : child.Misses source text) : ReadsMany source child text text []
  | step {text middle after : List Char} {value : Value} {values : List Value}
      (reads : child.Reads source text middle value) (shorter : middle.length < text.length)
      (more : ReadsMany source child middle after values) : ReadsMany source child text after (value :: values)

theorem ReadsMany.leaves (many : ReadsMany source child text after values) : after <:+ text := by
  induction many with
  | stop => exact List.suffix_refl _
  | step reads _ _ ih => exact ih.trans reads.leaves

theorem ReadsMany.rounds (many : ReadsMany source child text after values) (left : text <:+ source.chars.toList)
    (enough : text.length < limit) :
    rounds child source limit (source.offset text) = pure ⟨values, source.offset after⟩ := by
  induction many generalizing limit with
  | @stop text misses =>
    obtain ⟨limit, rfl⟩ : ∃ more, limit = more + 1 := ⟨limit - 1, by omega⟩
    obtain ⟨missed, failed⟩ := misses left
    simp only [Matcher.rounds, failed, pure_bind, ite_self]
  | @step text middle after value values reads shorter _ ih =>
    obtain ⟨limit, rfl⟩ : ∃ more, limit = more + 1 := ⟨limit - 1, by omega⟩
    have le := left.length_le
    have before : source.offset text < source.size := by simp only [Source.offset]; omega
    have moved : source.offset middle ≠ source.offset text := by
      simp only [Source.offset]
      omega
    have others : Matcher.rounds child source limit (source.offset middle) = pure ⟨values, source.offset after⟩ :=
      ih (reads.leaves.trans left) (by omega)
    simp only [Matcher.rounds, if_pos before, reads.succeeds left, pure_bind, if_neg moved, others]

theorem reads_sepBy_of_misses (misses : item.Misses source text) :
    (sepBy limit item separator).Reads source text text (.list []) := by
  refine ⟨List.suffix_refl _, fun left => ?_⟩
  obtain ⟨missed, failed⟩ := misses left
  simp only [sepBy, failed, pure_bind]

theorem reads_sepBy (reads : item.Reads source text middle value)
    (many : ReadsMany source (sequence [separator, item]) middle after values) (enough : source.size < limit) :
    (sepBy limit item separator).Reads source text after (.list (value :: values.map (Value.item 1))) := by
  refine ⟨many.leaves.trans reads.leaves, fun left => ?_⟩
  have leftMiddle := reads.leaves.trans left
  have le : middle.length ≤ source.size := leftMiddle.length_le
  have others : rounds (sequence [separator, item]) source limit (source.offset middle) =
      pure ⟨values, source.offset after⟩ := many.rounds leftMiddle (by omega)
  simp only [sepBy, reads.succeeds left, others, pure_bind]

/-! ## Blanks around lexemes -/

def space : Matcher := optional Lexeme.whitespace

def padded (child : Matcher) : Matcher := takeMid space child space

/-- A text without the blanks at its beginning. -/
def skip (text : List Char) : List Char := text.dropWhile Text.isBlank

theorem head?_skip (text : List Char) : (skip text).head?.any Text.isBlank = false :=
  any_head?_dropWhile Text.isBlank text

theorem skip_of_head? (stopped : text.head?.any Text.isBlank = false) : skip text = text := by
  cases text with
  | nil => rfl
  | cons c text => exact List.dropWhile_cons_of_neg (Bool.not_eq_true _ ▸ stopped)

@[simp] theorem skip_skip (text : List Char) : skip (skip text) = skip text := skip_of_head? (head?_skip text)

theorem reads_nothing (source : Source) (text : List Char) : nothing.Reads source text text .null :=
  ⟨List.suffix_refl _, fun _ => rfl⟩

theorem reads_space (source : Source) (text : List Char) : ∃ value, space.Reads source text (skip text) value := by
  have split : text.takeWhile Text.isBlank ++ skip text = text := List.takeWhile_append_dropWhile
  by_cases none : text.takeWhile Text.isBlank = []
  · rw [none, List.nil_append] at split
    have misses : Lexeme.whitespace.Misses source text := misses_pattern _ fun start here =>
      Lexeme.whitespace_end?_none (by rw [here, ← split]; exact head?_skip text)
    rw [split]
    exact ⟨.null, reads_choice_of_misses misses (List.forall_mem_nil _) (reads_nothing source text)⟩
  · have blank := List.all_eq_true.mp (List.all_takeWhile (p := Text.isBlank) (l := text))
    have reads : Lexeme.whitespace.Reads source (text.takeWhile Text.isBlank ++ skip text) (skip text) _ :=
      reads_pattern _ fun start here => Lexeme.whitespace_end? here none blank (head?_skip text)
    rw [split] at reads
    exact ⟨_, reads_choice reads⟩

/-- A lexeme may be read with blanks before and after it. -/
theorem reads_padded (reads : child.Reads source (skip text) after value) :
    (padded child).Reads source text (skip after) value := by
  obtain ⟨opening, readsBefore⟩ := reads_space source text
  obtain ⟨closing, readsAfter⟩ := reads_space source after
  exact reads_map (reads_sequence (.cons readsBefore (.cons reads (.cons readsAfter (.nil _))))) fun _ => rfl

theorem misses_padded (misses : child.Misses source (skip text)) : (padded child).Misses source text := by
  obtain ⟨opening, readsBefore⟩ := reads_space source text
  exact misses_map (misses_sequence (.cons readsBefore (.nil _)) misses)

end Matcher

end RecursiveDescent
