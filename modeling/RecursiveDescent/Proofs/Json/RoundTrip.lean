import RecursiveDescent.Proofs.Json.Words

/-! # Documents are read back

Whatever is written for a document, the rule for values reads it with the value of the document, if a
comma or a closing bracket comes after. The proof is by induction on the document: the loop over the
items of an array stops at the bracket that closes it, since neither a comma nor an item begins there.
-/

namespace RecursiveDescent

namespace Value

/-- A new key is entered at the end. -/
theorem insertEntry_of_fresh {key : String} {value : Value} {entered : List (String × Value)}
    (fresh : key ∉ entered.map (·.1)) : insertEntry key value entered = entered ++ [(key, value)] := by
  induction entered with
  | nil => rfl
  | cons entry entered ih =>
    rw [List.map_cons, List.mem_cons, not_or] at fresh
    rw [insertEntry, if_neg (Ne.symm fresh.1), ih fresh.2, List.cons_append]

/-- Entries with distinct keys are kept as they are. -/
theorem ofEntries_of_nodup {entries : List (String × Value)} (distinct : (entries.map (·.1)).Nodup) :
    ofEntries entries = .dict entries := by
  have entered (before entries : List (String × Value)) (distinct : ((before ++ entries).map (·.1)).Nodup) :
      entries.foldl (fun entered entry => insertEntry entry.1 entry.2 entered) before = before ++ entries := by
    induction entries generalizing before with
    | nil => rw [List.foldl_nil, List.append_nil]
    | cons entry entries ih =>
      have fresh : entry.1 ∉ before.map (·.1) := by
        rw [List.map_append, List.map_cons] at distinct
        exact fun among => (List.nodup_append.mp distinct).2.2 _ among _ (List.mem_cons_self ..) rfl
      rw [List.foldl_cons, insertEntry_of_fresh fresh, ih _ (by rwa [List.append_assoc]), List.append_assoc]
      rfl
  exact congrArg dict (entered [] entries distinct)

theorem pairs_map {α : Type} (key : α → String) (value : α → Value) (members : List α) :
    pairs (members.map fun member => .list [.text (key member), value member]) =
      members.map fun member => (key member, value member) := by
  induction members with
  | nil => rfl
  | cons member members ih => rw [List.map_cons, pairs, ih, List.map_cons]

end Value

namespace JsonGrammar

open Document Matcher

variable {source : Source} {limit : Nat} {item child : Matcher} {members : List (Language Char × Value)}
  {written text after : List Char} {value : Value}

theorem skip_token {c : Char} (solid : Text.isBlank c = false) (among : written ∈ Document.token [c])
    (after : List Char) :
    ∃ rest, skip (written ++ after) = c :: rest ∧ (skip after).length ≤ rest.length := by
  obtain ⟨blanks, split, same⟩ := skip_of_mem_token solid among after
  refine ⟨blanks ++ after, split, ?_⟩
  rw [← same]
  exact (List.dropWhile_suffix _).length_le

/-- After a value comes a comma, or what follows all of them. -/
theorem delimited_of_mem_prod (among : written ∈ (members.map fun member => Document.token [','] * member.1).prod)
    (closing : Closing (skip after)) : Delimited (skip (written ++ after)) := by
  cases members with
  | nil =>
    obtain rfl := (Language.mem_one written).mp among
    exact .inr closing
  | cons member members =>
    obtain ⟨_, ⟨comma, isComma, _, _, rfl⟩, _, _, rfl⟩ := among
    obtain ⟨rest, first, _⟩ := skip_token (c := ',') (by decide) isComma _
    rw [List.append_assoc, List.append_assoc, first]
    exact .inl ⟨rest, rfl⟩

/-- The loop over commas and items reads them all, and stops at what closes the list. -/
theorem readsMany_of_mem (accepts : ∀ member ∈ members, item.Accepts source member.1 Delimited member.2)
    (among : written ∈ (members.map fun member => Document.token [','] * member.1).prod)
    (closing : Closing (skip after)) :
    ReadsMany source (sequence [padded (literal ","), item]) (skip (written ++ after)) (skip after)
      (members.map fun member => .list [.text ",", member.2]) := by
  have solid : Text.isBlank ',' = false := by decide
  induction members generalizing written with
  | nil =>
    obtain rfl := (Language.mem_one written).mp among
    refine .stop (misses_sequence (.nil _) (misses_padded ?_))
    rw [List.nil_append, skip_skip]
    rcases closing with ⟨c, rest, first, rfl | rfl⟩ <;>
    · rw [first]
      exact misses_literal_of_first rfl rest
  | cons member members ih =>
    rw [List.map_cons, List.prod_cons] at among
    obtain ⟨_, ⟨comma, isComma, here, isHere, rfl⟩, more, areMore, rfl⟩ := among
    obtain ⟨acceptsHere, accepts⟩ := List.forall_mem_cons.mp accepts
    have delimited := delimited_of_mem_prod areMore closing
    have split : ((comma ++ here) ++ more) ++ after = comma ++ (here ++ (more ++ after)) := by
      simp only [List.append_assoc]
    rw [split]
    have readsComma := (accepts_literal source "," [] rfl solid).reads isComma (here ++ (more ++ after)) trivial
    have readsHere := acceptsHere.reads isHere _ delimited
    obtain ⟨rest, first, shorter⟩ := skip_token solid isComma (here ++ (more ++ after))
    refine .step (reads_sequence (.cons readsComma (.cons readsHere (.nil _)))) ?_ (ih accepts areMore)
    rw [first, List.length_cons]
    exact Nat.lt_succ_of_le (readsHere.leaves.length_le.trans shorter)

/-- A list of items is read as a whole, also an empty one if no item begins where it is closed. -/
theorem reads_separated (accepts : ∀ member ∈ members, item.Accepts source member.1 Delimited member.2)
    (misses : ∀ text, Closing (skip text) → item.Misses source text) (enough : source.size < limit)
    (among : written ∈ separated (members.map (·.1))) (closing : Closing (skip after)) :
    (sepBy limit item (padded (literal ","))).Reads source (skip (written ++ after)) (skip after)
      (.list (members.map (·.2))) := by
  cases members with
  | nil =>
    obtain rfl := (Language.mem_one written).mp among
    exact reads_sepBy_of_misses (misses _ (by rwa [List.nil_append, skip_skip]))
  | cons member members =>
    obtain ⟨here, isHere, more, areMore, rfl⟩ := among
    obtain ⟨acceptsHere, accepts⟩ := List.forall_mem_cons.mp accepts
    rw [List.map_map] at areMore
    rw [List.append_assoc]
    have readsHere := acceptsHere.reads isHere _ (delimited_of_mem_prod areMore closing)
    have reads := reads_sepBy readsHere (readsMany_of_mem accepts areMore closing) enough
    rwa [List.map_map] at reads

/-- What stands between brackets is read if it is read up to the closing one. -/
theorem accepts_enclosed {opening closing : Char} {first last : String} (isFirst : first.toList = [opening])
    (isLast : last.toList = [closing]) (solid : Text.isBlank opening = false ∧ Text.isBlank closing = false)
    (ending : closing = ']' ∨ closing = '}') {language : Language Char}
    (reads : ∀ written ∈ language, ∀ after, Closing (skip after) →
      child.Reads source (skip (written ++ after)) (skip after) value) :
    (takeMid (padded (literal first)) child (padded (literal last))).Accepts source
      (Document.token [opening] * language * Document.token [closing]) (fun _ => True) value := by
  rintro _ ⟨_, ⟨begun, isBegun, written, among, rfl⟩, ended, isEnded, rfl⟩ text after here -
  rw [List.append_assoc, List.append_assoc] at here
  have readsFirst := accepts_literal source first [] isFirst solid.1 begun isBegun text _ here trivial
  obtain ⟨rest, bracket, _⟩ := skip_token solid.2 isEnded after
  have readsMiddle := reads written among (ended ++ after) ⟨closing, rest, bracket, ending⟩
  have readsLast := (accepts_literal source last [] isLast solid.2).reads isEnded after trivial
  exact reads_map (reads_sequence (.cons readsFirst (.cons readsMiddle (.cons readsLast (.nil _))))) fun _ => rfl

/-! ## Documents -/

variable {read : Rule → Matcher} (agree : ∀ rule, AgreeOn source (read rule) (rule.matcher limit read))
  (enough : source.size < limit)
include agree

theorem accepts_property {key : PlainText} {document : Document} {round : DecimalLiteral → Binary64}
    (accepts : (read .value).Accepts source document.renderings Delimited (document.value round)) :
    (read .property).Accepts source (Document.token key.word * Document.token [':'] * document.renderings) Delimited
      (.list [.text key.content, document.value round]) := by
  apply (agree .property).accepts
  rintro _ ⟨_, ⟨name, isName, colon, isColon, rfl⟩, written, among, rfl⟩ text after here delimited
  have solid : Text.isBlank ':' = false := by decide
  rw [List.append_assoc, List.append_assoc] at here
  have readsName := accepts_string agree key name isName text _ here trivial
  have readsColon := (accepts_literal source ":" [] rfl solid).reads isColon (written ++ after) trivial
  exact reads_map (reads_sequence (.cons readsName
    (.cons readsColon (.cons (accepts.reads among after delimited) (.nil _)))))
    fun _ => rfl

include enough

theorem accepts_array {items : List Document} {round : DecimalLiteral → Binary64}
    (accepts : ∀ item ∈ items, (read .value).Accepts source item.renderings Delimited (item.value round)) :
    (read .array).Accepts source (array items).renderings (fun _ => True) ((array items).value round) := by
  let members := items.map fun item => (item.renderings, item.value round)
  have renderings : itemRenderings items = members.map (·.1) := by
    rw [itemRenderings_eq_map, List.map_map]
    rfl
  have values : itemValues round items = members.map (·.2) := by
    rw [itemValues_eq_map, List.map_map]
    rfl
  have misses (text : List Char) (closing : Closing (skip text)) : (read .value).Misses source text := by
    rcases closing with ⟨c, rest, first, rfl | rfl⟩ <;> exact misses_value agree first rfl
  rw [Document.renderings, Document.value, renderings, values]
  refine (agree .array).accepts (accepts_enclosed rfl rfl (by decide) (.inl rfl) fun written among after closing => ?_)
  exact reads_separated (List.forall_mem_map.mpr accepts) misses enough among closing

theorem accepts_object {entries : List (PlainText × Document)} {round : DecimalLiteral → Binary64}
    (distinct : (entries.map (·.1.content)).Nodup)
    (accepts : ∀ entry ∈ entries, (read .value).Accepts source entry.2.renderings Delimited (entry.2.value round)) :
    (read .object).Accepts source (object entries).renderings (fun _ => True) ((object entries).value round) := by
  let members := entries.map fun entry =>
    (Document.token entry.1.word * Document.token [':'] * entry.2.renderings,
      Value.list [.text entry.1.content, entry.2.value round])
  have renderings : entryRenderings entries = members.map (·.1) := by
    rw [entryRenderings_eq_map, List.map_map]
    rfl
  have entered : Value.ofEntries (Value.pairs (members.map (·.2))) = .dict (entryValues round entries) := by
    have values : members.map (·.2) =
        entries.map fun entry => .list [.text entry.1.content, entry.2.value round] := List.map_map
    rw [values, Value.pairs_map, entryValues_eq_map, Value.ofEntries_of_nodup]
    rwa [List.map_map]
  have applied (span : Span) :
      Action.toDict (.list (members.map (·.2))) span = pure (.dict (entryValues round entries)) :=
    congrArg pure entered
  have misses (text : List Char) (closing : Closing (skip text)) : (read .property).Misses source text := by
    rcases closing with ⟨c, rest, first, rfl | rfl⟩ <;> exact misses_property agree first nofun
  rw [Document.renderings, Document.value, renderings]
  refine (agree .object).accepts (accepts_map (accepts_enclosed rfl rfl (by decide) (.inr rfl)
    fun written among after closing => ?_) applied)
  exact reads_separated (List.forall_mem_map.mpr fun entry member => accepts_property agree (accepts entry member))
    misses enough among closing

/-- The rule for values reads every rendering of a document, if a comma or a closing bracket follows. -/
theorem accepts_value (document : Document) (distinct : document.Distinct) :
    (read .value).Accepts source document.renderings Delimited (document.value DecimalLiteral.nearest) := by
  have through {rule : Rule} {c : Char} {word : List Char} {others : Language Char} {follow : List Char → Prop}
      {document : Document} (among : rule ∈ Rule.alternatives)
      (accepts : (read rule).Accepts source document.renderings follow (document.value DecimalLiteral.nearest))
      (weaker : ∀ text, Delimited text → follow text)
      (shape : document.renderings = Document.token (c :: word) * others)
      (solid : Text.isBlank c = false) (begins : Rule.beginning? c = some rule) :
      (read .value).Accepts source document.renderings Delimited (document.value DecimalLiteral.nearest) :=
    (agree .value).accepts (accepts_choice agree (fun _ => id) among accepts weaker shape solid begins)
  induction document with
  | null =>
    have accepts := accepts_keyword agree (show ("null", Value.null) ∈ keywords from .tail _ (.tail _ (.head _)))
    exact through (by decide) accepts (fun _ _ => trivial) (mul_one _).symm (by decide) rfl
  | flag holds =>
    cases holds with
    | true =>
      have accepts := accepts_keyword agree (show ("true", Value.bool true) ∈ keywords from .head _)
      exact through (by decide) accepts (fun _ _ => trivial) (mul_one _).symm (by decide) rfl
    | false =>
      have accepts := accepts_keyword agree (show ("false", Value.bool false) ∈ keywords from .tail _ (.head _))
      exact through (by decide) accepts (fun _ _ => trivial) (mul_one _).symm (by decide) rfl
  | integer literal =>
    obtain ⟨c, rest, word, solid, begins⟩ := exists_first_integer literal
    have shape : (integer literal).renderings = Document.token (c :: rest) * 1 := by
      rw [Document.renderings, word, mul_one]
    exact through (by decide) (accepts_integer agree literal) (fun _ => id) shape solid begins
  | decimal literal =>
    obtain ⟨c, rest, word, solid, begins⟩ := exists_first_decimal literal
    have shape : (decimal literal).renderings = Document.token (c :: rest) * 1 := by
      rw [Document.renderings, word, mul_one]
    exact through (by decide) (accepts_decimal agree literal) (fun _ => id) shape solid begins
  | text literal =>
    exact through (by decide) (accepts_string agree literal) (fun _ _ => trivial) (mul_one _).symm (by decide) rfl
  | array items ih =>
    have accepts := accepts_array agree enough fun item member =>
      ih item member (itemsDistinct_iff.mp distinct item member)
    exact through (by decide) accepts (fun _ _ => trivial) (mul_assoc ..) (by decide) rfl
  | object entries ih =>
    obtain ⟨keys, distinct⟩ := distinct
    have accepts := accepts_object agree enough keys fun entry member =>
      ih entry member (entriesDistinct_iff.mp distinct entry member)
    exact through (by decide) accepts (fun _ _ => trivial) (mul_assoc ..) (by decide) rfl

/-- The first rule reads every rendering of an array or an object, whatever follows. -/
theorem accepts_root (document : Document) (container : document.IsContainer) (distinct : document.Distinct) :
    (read .root).Accepts source document.renderings (fun _ => True) (document.value DecimalLiteral.nearest) := by
  have through {rule : Rule} {c : Char} {others : Language Char} (among : rule ∈ [.object, .array])
      (accepts : (read rule).Accepts source document.renderings (fun _ => True) (document.value DecimalLiteral.nearest))
      (shape : document.renderings = Document.token [c] * others) (solid : Text.isBlank c = false)
      (begins : Rule.beginning? c = some rule) :
      (read .root).Accepts source document.renderings (fun _ => True) (document.value DecimalLiteral.nearest) := by
    have kinds : ∀ other ∈ [Rule.object, .array], other ∈ Rule.alternatives := by decide
    exact (agree .root).accepts (accepts_choice agree kinds among accepts (fun _ => id) shape solid begins)
  cases document with
  | array items =>
    have accepts := accepts_array agree enough fun item member =>
      accepts_value agree enough item (itemsDistinct_iff.mp distinct item member)
    exact through (by decide) accepts (mul_assoc ..) (by decide) rfl
  | object entries =>
    obtain ⟨keys, distinct⟩ := distinct
    have accepts := accepts_object agree enough keys fun entry member =>
      accepts_value agree enough entry.2 (entriesDistinct_iff.mp distinct entry member)
    exact through (by decide) accepts (mul_assoc ..) (by decide) rfl
  | _ => exact container.elim

omit agree enough in
/-- The grammar reads every text that may be written for an array or an object without leaving anything, and
gives the value of the document, with the correctly rounded doubles. -/
theorem renderings_read_back {bindings : Bindings} {store : Store} (within : bindings.Within store)
    {round : DecimalLiteral → Binary64} (rounds : RoundsCorrectly round) {document : Document}
    (container : document.IsContainer) (distinct : document.Distinct) {text : String}
    (written : text.toList ∈ document.renderings) :
    ∃ final grammar root, (Grammar.build bindings store rules).outcome = .value (final, grammar) ∧
      grammar.find? "Root" = some root ∧ final.run .strict (.ref root) (.ofString text) =
        pure (.success ⟨text.length, ⟨0, text.length⟩, document.value round⟩) := by
  obtain rfl := rounds.eq_nearest
  obtain ⟨final, grammar, success⟩ := exists_build bindings store
  let source := Source.ofString text
  obtain ⟨address, read, found, called, agree⟩ := exists_matchers within success source
  have enough : source.size < final.limit source 0 := by
    have room := final.limit_room source (le_refl 0)
    have le : (source.size - 0 : Int).toNat ≤ (final.cells.size + 1) * (source.size - 0 : Int).toNat :=
      Nat.le_mul_of_pos_left _ (Nat.succ_pos _)
    omega
  have whole : source.chars.toList = text.toList := rfl
  have size : source.size = text.length := by
    rw [Source.size, ← Array.length_toList, whole, String.length_toList]
  have reads : (read .root).Reads source text.toList [] (document.value DecimalLiteral.nearest) :=
    accepts_root agree enough document container distinct text.toList written text.toList []
      (by rw [List.append_nil]) trivial
  have start : source.offset text.toList = 0 := by rw [Source.offset, size, String.length_toList, Int.sub_self]
  have stop : source.offset [] = text.length := by
    rw [Source.offset, size, List.length_nil, Int.natCast_zero, Int.sub_zero]
  have succeeds : final.matcher (.ref (address .root)) source 0 =
      pure (.success ⟨text.length, ⟨0, text.length⟩, document.value DecimalLiteral.nearest⟩) := by
    have succeeds := reads.succeeds (List.suffix_refl _)
    rw [start, stop, called] at succeeds
    simpa only [Store.matcher, Parser.matcher] using succeeds
  refine ⟨final, grammar, address .root, success, found .root, ?_⟩
  have full : ¬(text.length : Int) < (Source.ofString text).size := Int.not_lt.mpr (Int.ofNat_le.mpr size.le)
  simp only [Store.run, Matcher.strict, onSuccess]
  rw [succeeds, pure_bind]
  exact if_neg full

omit agree enough in
/-- An array of an integer and an object with a decimal in it, with some blanks. -/
theorem integerAndObject_read_back : ∃ final grammar root,
    (Grammar.build .empty .empty rules).outcome = .value (final, grammar) ∧ grammar.find? "Root" = some root ∧
      final.run .strict (.ref root) (.ofString "[ -20 ,\x7b\"a\":1.5\x7d]") = pure (.success
        ⟨17, ⟨0, 17⟩, .list [.int (-20), .dict [("a", .float ⟨false, 0x3FF8000000000000⟩)]]⟩) := by
  let key : PlainText := ⟨"a", List.forall_mem_singleton.mpr (by decide)⟩
  let twenty : IntegerLiteral := ⟨true, 20, by decide⟩
  let decimal : DecimalLiteral := ⟨false, [1], [5], by decide⟩
  let document : Document := .array [.integer twenty, .object [(key, .decimal decimal)]]
  have distinct : document.Distinct := ⟨trivial, ⟨List.nodup_singleton _, trivial, trivial⟩, trivial⟩
  have written : "[ -20 ,\x7b\"a\":1.5\x7d]".toList ∈ document.renderings := by
    have bare (word : List Char) : [] ++ word ++ [] ∈ Document.token word := mem_token word (List.forall_mem_nil _)
    have entry := Language.append_mem_mul (Language.append_mem_mul (bare key.word) (bare [':'])) (bare decimal.word)
    have object := Language.append_mem_mul (Language.append_mem_mul (bare ['{'])
      (Language.append_mem_mul entry Language.nil_mem_one)) (bare ['}'])
    have integer : [' '] ++ twenty.word ++ [' '] ∈ Document.token twenty.word :=
      mem_token twenty.word (List.forall_mem_cons.mpr ⟨rfl, List.forall_mem_singleton.mpr rfl⟩)
    have items := Language.append_mem_mul integer
      (Language.append_mem_mul (Language.append_mem_mul (bare [',']) object) Language.nil_mem_one)
    have whole : _ ∈ document.renderings :=
      Language.append_mem_mul (Language.append_mem_mul (bare ['[']) items) (bare [']'])
    obtain ⟨text, spelled, among⟩ : ∃ text, text = "[ -20 ,\x7b\"a\":1.5\x7d]".toList ∧ text ∈ document.renderings :=
      ⟨_, by decide, whole⟩
    exact spelled ▸ among
  have value : document.value DecimalLiteral.nearest =
      .list [.int (-20), .dict [("a", .float ⟨false, 0x3FF8000000000000⟩)]] := by
    have nearest : decimal.nearest = ⟨false, 0x3FF8000000000000⟩ := by decide +kernel
    simp only [document, Document.value, itemValues, entryValues, nearest]
    rfl
  have container : document.IsContainer := trivial
  rw [← value]
  exact renderings_read_back Grammar.within_empty roundsCorrectly_nearest container distinct written

end JsonGrammar

end RecursiveDescent
