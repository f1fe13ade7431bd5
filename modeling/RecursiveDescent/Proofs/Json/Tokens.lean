import RecursiveDescent.Diagnostics.Json
import RecursiveDescent.Proofs.Json.Notation

/-! # Texts and integers in JSON notation

A text is written between quotes with escapes, an integer as it is printed. Either is read back and as nothing else,
whatever the text holds and whatever stands behind it. Each part is followed backwards from what stands in the text: a
character from its escape, an integer from its sign and digits.
-/

namespace RecursiveDescent.Json

variable {rest left name content : List Char} {letter c d : Char} {data : Data} {value : ℚ} {code expected : Nat}

/-! ## Texts -/

/-- Four digits are read as the code that they write. -/
theorem CodeUnit.eq_of_hexCode {digits : List Char} (unit : CodeUnit ('\\' :: 'u' :: (digits ++ rest)) code left)
    (written : HexCode digits expected) : code = expected ∧ left = rest := by
  obtain ⟨others, split, another⟩ := unit
  have same := (List.cons.inj (List.cons.inj split).2).2
  obtain ⟨rfl, rfl⟩ := List.append_inj same (written.1.trans another.1.symm)
  exact ⟨Option.some.inj (another.2.symm.trans written.2), rfl⟩

theorem CodeUnit.first (unit : CodeUnit (c :: rest) code left) : c = '\\' ∧ rest.head? = some 'u' := by
  obtain ⟨digits, split, -⟩ := unit
  obtain ⟨rfl, rfl⟩ := List.cons.inj split
  exact ⟨rfl, rfl⟩

theorem symbol_plain_iff (printable : 0x20 ≤ c.toNat) (bare : c ≠ '"' ∧ c ≠ '\\') :
    Symbol (c :: rest) d left ↔ d = c ∧ left = rest := by
  constructor
  · intro symbol
    cases symbol with
    | plain => exact ⟨rfl, rfl⟩
    | short => exact absurd rfl bare.2
    | code unit => exact absurd unit.first.1 bare.2
    | pair first => exact absurd first.first.1 bare.2
  · rintro ⟨rfl, rfl⟩
    exact .plain printable bare

theorem shortEscapes_ne_code : ∀ a ∈ shortEscapes, a.1 ≠ 'u' := by decide

theorem symbol_short_iff (listed : (letter, c) ∈ shortEscapes) :
    Symbol ('\\' :: letter :: rest) d left ↔ d = c ∧ left = rest := by
  have functional : ∀ a ∈ shortEscapes, ∀ b ∈ shortEscapes, a.1 = b.1 → a.2 = b.2 := by decide
  have noCode := shortEscapes_ne_code _ listed
  constructor
  · intro symbol
    cases symbol with
    | plain _ bare => exact absurd rfl bare.2
    | short another => exact ⟨functional _ another _ listed rfl, rfl⟩
    | code unit => exact absurd (Option.some.inj unit.first.2) noCode
    | pair first => exact absurd (Option.some.inj first.first.2) noCode
  · rintro ⟨rfl, rfl⟩
    exact .short listed

theorem hexCode_hexDigits (control : c.toNat < 0x20) : HexCode (Text.hexDigits 4 c.toNat) c.toNat := by
  have all : ∀ n < 0x20, (Text.hexDigits 4 n).length = 4 ∧
      ((Text.hexDigits 4 n).mapM (PatternToken.digit? 16)).map (PatternToken.ofDigits 16) = some n := by decide
  exact all _ control

theorem symbol_code_iff (control : c.toNat < 0x20) :
    Symbol ('\\' :: 'u' :: (Text.hexDigits 4 c.toNat ++ rest)) d left ↔ d = c ∧ left = rest := by
  have written := hexCode_hexDigits control
  constructor
  · intro symbol
    cases symbol with
    | plain _ bare => exact absurd rfl bare.2
    | short listed => exact absurd rfl (shortEscapes_ne_code _ listed)
    | code unit =>
      obtain ⟨same, rfl⟩ := unit.eq_of_hexCode written
      exact ⟨Char.toNat_inj.mp same, rfl⟩
    | pair first _ leads =>
      -- The code of a control character does not announce a second one.
      have := (first.eq_of_hexCode written).1
      omega
  · rintro ⟨rfl, rfl⟩
    exact .code ⟨_, rfl, written⟩

/-- A character is read from its escape. -/
theorem symbol_escape_iff (c : Char) : Symbol (escape c ++ rest) d left ↔ d = c ∧ left = rest := by
  simp only [escape, Bool.or_eq_true, decide_eq_true_eq]
  split_ifs with special lineFeed return_ tab formFeed backspace control
  · refine symbol_short_iff ?_
    rcases special with rfl | rfl <;> decide
  · exact lineFeed ▸ symbol_short_iff (by decide)
  · exact return_ ▸ symbol_short_iff (by decide)
  · exact tab ▸ symbol_short_iff (by decide)
  · exact formFeed ▸ symbol_short_iff (by decide)
  · exact backspace ▸ symbol_short_iff (by decide)
  · exact symbol_code_iff control
  · exact symbol_plain_iff (Nat.not_lt.mp control) (not_or.mp special)

theorem not_symbol_quote : ¬Symbol ('"' :: rest) c left := by
  intro symbol
  cases symbol with
  | plain _ bare => exact bare.1 rfl
  | code unit => exact absurd unit.first.1 (by decide)
  | pair first => exact absurd first.first.1 (by decide)

/-- The escaped characters of a text are read up to the quote behind them. -/
theorem body_iff : Body (content.flatMap escape ++ '"' :: rest) name left ↔ name = content ∧ left = rest := by
  induction content generalizing name with
  | nil =>
    constructor
    · intro body
      cases body with
      | close => exact ⟨rfl, rfl⟩
      | symbol first => exact absurd first not_symbol_quote
    · rintro ⟨rfl, rfl⟩
      exact .close
  | cons c content ih =>
    have first : Symbol (escape c ++ (content.flatMap escape ++ '"' :: rest)) c _ :=
      (symbol_escape_iff c).mpr ⟨rfl, rfl⟩
    rw [List.flatMap_cons, List.append_assoc]
    constructor
    · intro body
      generalize split : escape c ++ (content.flatMap escape ++ '"' :: rest) = text at body first
      cases body with
      | close => exact absurd first not_symbol_quote
      | symbol another others =>
        rw [← split, symbol_escape_iff] at another
        obtain ⟨rfl, rfl⟩ := another
        obtain ⟨rfl, rfl⟩ := ih.mp others
        exact ⟨rfl, rfl⟩
    · rintro ⟨rfl, rfl⟩
      exact .symbol first (ih.mpr ⟨rfl, rfl⟩)

/-- Between quotes, so escaped, a text is read back. -/
theorem body_escaped (content rest : List Char) : Body (content.flatMap escape ++ '"' :: rest) content rest :=
  body_iff.mpr ⟨rfl, rfl⟩

theorem toList_quoted (content : String) :
    (quoted content).toList = '"' :: (content.toList.flatMap escape ++ ['"']) := String.toList_ofList

theorem value_quoted_iff (content : String) :
    Value ((quoted content).toList ++ rest) data left ↔ data = .text content ∧ left = rest := by
  rw [toList_quoted, List.cons_append, List.append_assoc, List.singleton_append]
  constructor
  · intro value
    cases value with
    | number split written =>
      obtain ⟨c, others, rfl, first⟩ := written.first
      obtain ⟨rfl, -⟩ := List.cons.inj split
      exact absurd first (by decide)
    | text body =>
      obtain ⟨rfl, rfl⟩ := body_iff.mp body
      exact ⟨congrArg Data.text String.ofList_toList, rfl⟩
  · rintro ⟨rfl, rfl⟩
    have value := Value.text (body_escaped content.toList left)
    rwa [String.ofList_toList] at value

/-! ## Integers -/

theorem number_toString (n : Int) : Number (toString n).toList n := by
  have number := Number.mk (decide (n < 0)) (Lexeme.isNumeral_toDigits n.natAbs) .absent .absent
  rw [List.append_nil, List.append_nil, ← Lexeme.toList_toString, Lexeme.ofDigits_toDigits,
    Lexeme.signed_natAbs] at number
  simpa using number

/-- What an integer is printed as is no other number. -/
theorem Number.eq_of_toString {n : Int} (number : Number (toString n).toList value) : value = n := by
  have numeral := Lexeme.isNumeral_toDigits n.natAbs
  have each : ∀ c ∈ (toString n).toList, (c.isDigit || c == '-') = true := by
    have signs : ∀ negative, (Lexeme.minus negative).all (fun c => c.isDigit || c == '-') = true := by decide
    rw [Lexeme.toList_toString, List.forall_mem_append]
    exact ⟨List.all_eq_true.mp (signs _), fun c member => Bool.or_eq_true_iff.mpr (.inl (numeral.areDigits c member))⟩
  -- A fraction would need a point and an exponent its mark, neither of which is printed.
  generalize printed : (toString n).toList = word at number each
  cases number with
  | @mk whole fraction places exponent power negative another point scale =>
    cases point with
    | present => exact absurd (each '.' (by simp)) (by decide)
    | absent =>
      cases scale with
      | @present mark _ _ marked =>
        have numeric := each mark (by simp)
        simp only [List.mem_cons, List.not_mem_nil, or_false] at marked
        rcases marked with rfl | rfl <;> exact absurd numeric (by decide)
      | absent =>
        rw [List.nil_append, List.append_nil, Lexeme.toList_toString] at printed
        have parts := congrArg Lexeme.splitSign printed
        rw [Lexeme.splitSign_minus numeral.unsigned, Lexeme.splitSign_minus another.unsigned] at parts
        obtain ⟨rfl, rfl⟩ := Prod.mk.inj parts
        simp [Lexeme.ofDigits_toDigits, Lexeme.signed_natAbs]

/-- Where a number ends is seen from the character behind it. -/
theorem value_toString_iff (n : Int) (stops : rest.head?.any isNumeric = false)
    (ends : left.head?.any isNumeric = false) :
    Value ((toString n).toList ++ rest) data left ↔ data = .number n ∧ left = rest := by
  have number := number_toString n
  constructor
  · intro value
    obtain ⟨c, others, printed, first⟩ := number.first
    generalize whole : (toString n).toList ++ rest = text at value
    cases value with
    | number split written =>
      have word := takeWhile_of_run written.chars ends
      rw [← split, ← whole, takeWhile_of_run number.chars stops] at word
      subst word
      rw [written.eq_of_toString]
      exact ⟨rfl, (List.append_cancel_left (whole.trans split)).symm⟩
    | _ =>
      rw [printed, List.cons_append] at whole
      obtain ⟨rfl, -⟩ := List.cons.inj whole
      exact absurd first (by decide)
  · rintro ⟨rfl, rfl⟩
    exact .number rfl number

end RecursiveDescent.Json
