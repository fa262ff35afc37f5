import Mathlib
import LineBasic.Proofs.Line

/-! # Well-formed token lists: what a reader of records may rely on

The conditions are stated for every place of the list at once. Along the list they amount to a
condition on each token that depends on the token before it only through its being an operand.
-/
namespace LineBasic
set_option autoImplicit false

def Token.IsOperand (t : Token) : Prop :=
  (∃ name, t = .identifier name) ∨ (∃ value, t = .number value) ∨ ∃ text, t = .stringLiteral text

/-- A minus sign is binary right after an operand and nowhere else, and a comment ends the list,
right after the only REM. -/
structure WellFormed (tokens : List Token) : Prop where
  number : ∀ value, .number value ∈ tokens → 0 ≤ value ∧ value ≤ 2147483647
  identifier : ∀ name, .identifier name ∈ tokens →
    isIdentifier name.toList = true ∧ name ∉ wordTable.map Prod.fst
  stringLiteral : ∀ text, .stringLiteral text ∈ tokens → '"' ∉ text.toList
  listed : ∀ code, .unlisted code ∉ tokens
  minus : ∀ before after, tokens = before ++ .symbol .minus :: after →
    ∃ t, before.getLast? = some t ∧ t.IsOperand
  unaryMinus : ∀ before after, tokens = before ++ .symbol .unaryMinus :: after →
    ∀ t, before.getLast? = some t → ¬ t.IsOperand
  rem : ∀ before after, tokens = before ++ .symbol .kwRem :: after → ∃ text, after = [.comment text]
  comment : ∀ before after text, tokens = before ++ .comment text :: after →
    after = [] ∧ before.getLast? = some (.symbol .kwRem)

/-- Tokens that may stand alone, given whether an operand comes before. -/
inductive Token.Fits (afterValue : Bool) : Token → Prop
  | number {n : Nat} (hMax : Int.ofNat n ≤ maxNumber) : Fits afterValue (.number (Int.ofNat n))
  | identifier {name : String} (hName : isIdentifier name.toList = true) (hTable : lookupWord name = none) :
      Fits afterValue (.identifier name)
  | stringLiteral {text : String} (hText : '"' ∉ text.toList) : Fits afterValue (.stringLiteral text)
  | minus (hValue : afterValue = true) : Fits afterValue (.symbol .minus)
  | unaryMinus (hValue : afterValue = false) : Fits afterValue (.symbol .unaryMinus)
  | symbol {s : Symbol} (hOther : s ∉ [.minus, .unaryMinus, .kwRem]) : Fits afterValue (.symbol s)

theorem Token.Fits.ne_rem {t : Token} {afterValue : Bool} (h : t.Fits afterValue) : t ≠ .symbol .kwRem := by
  rintro rfl
  cases h with
  | symbol hOther => exact hOther (by decide)

theorem Token.Fits.ne_comment {t : Token} {afterValue : Bool} (h : t.Fits afterValue) (text : String) :
    t ≠ .comment text := by
  rintro rfl
  cases h

/-- The same conditions along the list. -/
inductive WellFormedFrom : Bool → List Token → Prop
  | nil {afterValue : Bool} : WellFormedFrom afterValue []
  | token {afterValue : Bool} {t : Token} {rest : List Token} (hToken : t.Fits afterValue)
      (hRest : WellFormedFrom t.isValue rest) : WellFormedFrom afterValue (t :: rest)
  | remark {afterValue : Bool} {text : String} : WellFormedFrom afterValue [.symbol .kwRem, .comment text]

theorem Token.isValue_iff {t : Token} : t.isValue = true ↔ t.IsOperand := by
  cases t <;> simp [isValue, inClass, kind?, Kind.isValue, IsOperand]

theorem lookupWord_eq_none_iff {word : String} :
    lookupWord word = none ↔ word ∉ wordTable.map Prod.fst := by
  rw [lookupWord, List.lookup_eq_none_iff, List.mem_map]
  constructor
  · rintro h ⟨entry, hEntry, rfl⟩
    simpa using h entry hEntry
  · intro h entry hEntry
    rw [bne_iff_ne]
    rintro rfl
    exact h ⟨entry, hEntry, rfl⟩

/-- Whether the last of the tokens is an operand; without tokens it is the one before them that counts. -/
def endsInValue (afterValue : Bool) (before : List Token) : Bool :=
  (before.getLast?.map Token.isValue).getD afterValue

theorem endsInValue_cons (afterValue : Bool) (t : Token) (before : List Token) :
    endsInValue afterValue (t :: before) = endsInValue t.isValue before := by
  rw [endsInValue, endsInValue, List.getLast?_cons]
  cases before.getLast? <;> rfl

theorem endsInValue_concat (afterValue : Bool) (before : List Token) (t : Token) :
    endsInValue afterValue (before ++ [t]) = t.isValue := by
  rw [endsInValue, List.getLast?_concat]
  rfl

theorem WellFormedFrom.at {afterValue : Bool} {before after : List Token} {t : Token}
    (h : WellFormedFrom afterValue (before ++ t :: after)) :
    t.Fits (endsInValue afterValue before) ∨ (t = .symbol .kwRem ∧ ∃ text, after = [.comment text]) ∨
      ∃ text, t = .comment text ∧ after = [] ∧ before.getLast? = some (.symbol .kwRem) := by
  induction before generalizing afterValue with
  | nil =>
    cases h with
    | token hToken => exact .inl hToken
    | remark => exact .inr (.inl ⟨rfl, _, rfl⟩)
  | cons u before ih =>
    rw [endsInValue_cons, List.getLast?_cons]
    generalize hTokens : u :: before ++ t :: after = tokens at h
    cases h with
    | nil => cases hTokens
    | token hToken hRest =>
      cases hTokens
      rcases ih hRest with hFits | hRem | ⟨text, hComment, hAfter, hBefore⟩
      · exact .inl hFits
      · exact .inr (.inl hRem)
      · rw [hBefore]
        exact .inr (.inr ⟨text, hComment, hAfter, rfl⟩)
    | remark =>
      obtain ⟨rfl, hRest⟩ := List.cons.inj hTokens
      cases before with
      | nil =>
        cases hRest
        exact .inr (.inr ⟨_, rfl, rfl, rfl⟩)
      | cons v before => simp at hRest

theorem WellFormedFrom.fits {afterValue : Bool} {before after : List Token} {t : Token}
    (h : WellFormedFrom afterValue (before ++ t :: after)) (hRem : t ≠ .symbol .kwRem)
    (hComment : ∀ text, t ≠ .comment text) : t.Fits (endsInValue afterValue before) := by
  rcases h.at with hFits | ⟨hEq, -⟩ | ⟨text, hEq, -⟩
  · exact hFits
  · exact False.elim (hRem hEq)
  · exact False.elim (hComment text hEq)

theorem WellFormedFrom.wellFormed {tokens : List Token} (h : WellFormedFrom false tokens) :
    WellFormed tokens := by
  have hMember {t : Token} (hMem : t ∈ tokens) (hRem : t ≠ .symbol .kwRem)
      (hComment : ∀ text, t ≠ .comment text) : ∃ afterValue, t.Fits afterValue := by
    obtain ⟨before, after, rfl⟩ := List.append_of_mem hMem
    exact ⟨_, h.fits hRem hComment⟩
  refine ⟨?number, ?identifier, ?stringLiteral, ?listed, ?minus, ?unaryMinus, ?rem, ?comment⟩
  case number =>
    intro value hMem
    obtain ⟨_, hFits⟩ := hMember hMem nofun nofun
    cases hFits with
    | number hMax => exact ⟨Int.natCast_nonneg _, hMax⟩
  case identifier =>
    intro name hMem
    obtain ⟨_, hFits⟩ := hMember hMem nofun nofun
    cases hFits with
    | identifier hName hTable => exact ⟨hName, lookupWord_eq_none_iff.mp hTable⟩
  case stringLiteral =>
    intro text hMem
    obtain ⟨_, hFits⟩ := hMember hMem nofun nofun
    cases hFits with
    | stringLiteral hText => exact hText
  case listed =>
    intro code hMem
    obtain ⟨_, hFits⟩ := hMember hMem nofun nofun
    cases hFits
  case minus =>
    rintro before after rfl
    cases h.fits nofun nofun with
    | minus hValue =>
      cases hLast : before.getLast? with
      | none => simp [endsInValue, hLast] at hValue
      | some t =>
        rw [endsInValue, hLast] at hValue
        exact ⟨t, rfl, Token.isValue_iff.mp hValue⟩
    | symbol hOther => exact False.elim (hOther (by decide))
  case unaryMinus =>
    rintro before after rfl t hLast hOperand
    cases h.fits nofun nofun with
    | unaryMinus hValue =>
      rw [endsInValue, hLast] at hValue
      cases hValue.symm.trans (Token.isValue_iff.mpr hOperand)
    | symbol hOther => exact False.elim (hOther (by decide))
  case rem =>
    rintro before after rfl
    rcases h.at with hFits | ⟨-, hAfter⟩ | ⟨_, hComment, -⟩
    · cases hFits with
      | symbol hOther => exact False.elim (hOther (by decide))
    · exact hAfter
    · cases hComment
  case comment =>
    rintro before after text rfl
    rcases h.at with hFits | ⟨hRem, -⟩ | ⟨_, -, hAfter, hBefore⟩
    · cases hFits
    · cases hRem
    · exact ⟨hAfter, hBefore⟩

/-- A list is checked place by place; REM is never passed, so that no comment is met on its own. -/
theorem WellFormed.from {tokens : List Token} (h : WellFormed tokens) (before rest : List Token)
    (hTokens : tokens = before ++ rest) (hBefore : before.getLast? ≠ some (.symbol .kwRem)) :
    WellFormedFrom (endsInValue false before) rest := by
  induction rest generalizing before with
  | nil => exact .nil
  | cons t rest ih =>
    have hMem : t ∈ tokens := by
      rw [hTokens]
      exact List.mem_append_right before List.mem_cons_self
    have hRest (hRem : t ≠ .symbol .kwRem) : WellFormedFrom t.isValue rest := by
      have hNext := ih (before ++ [t]) (by rw [hTokens, List.append_assoc]; rfl)
        (by rw [List.getLast?_concat]; simpa using hRem)
      rwa [endsInValue_concat] at hNext
    cases t with
    | symbol s =>
      by_cases hOther : s ∈ [.minus, .unaryMinus, .kwRem]
      · simp only [List.mem_cons, List.not_mem_nil, or_false] at hOther
        rcases hOther with rfl | rfl | rfl
        · obtain ⟨u, hLast, hOperand⟩ := h.minus before rest hTokens
          refine .token (.minus ?_) (hRest nofun)
          rw [endsInValue, hLast]
          exact Token.isValue_iff.mpr hOperand
        · refine .token (.unaryMinus ?_) (hRest nofun)
          cases hLast : before.getLast? with
          | none => rw [endsInValue, hLast]; rfl
          | some u =>
            have hOperand := h.unaryMinus before rest hTokens u hLast
            rw [← Token.isValue_iff, Bool.not_eq_true] at hOperand
            rwa [endsInValue, hLast]
        · obtain ⟨text, rfl⟩ := h.rem before rest hTokens
          exact .remark
      · exact .token (.symbol hOther) (hRest (by rintro ⟨⟩; exact hOther (by decide)))
    | comment text => exact False.elim (hBefore (h.comment before rest text hTokens).2)
    | identifier name =>
      obtain ⟨hName, hTable⟩ := h.identifier name hMem
      exact .token (.identifier hName (lookupWord_eq_none_iff.mpr hTable)) (hRest nofun)
    | number value =>
      obtain ⟨hNonneg, hMax⟩ := h.number value hMem
      obtain ⟨n, rfl⟩ := Int.eq_ofNat_of_zero_le hNonneg
      exact .token (.number hMax) (hRest nofun)
    | stringLiteral text => exact .token (.stringLiteral (h.stringLiteral text hMem)) (hRest nofun)
    | unlisted code => exact False.elim (h.listed code hMem)

theorem wellFormed_iff {tokens : List Token} : WellFormed tokens ↔ WellFormedFrom false tokens :=
  ⟨fun h => h.from [] tokens rfl nofun, WellFormedFrom.wellFormed⟩

theorem Lexeme.Stands.fits {mode : Mode} {afterValue : Bool} {t : Token} {text after : List Char}
    (h : (Lexeme.single t).Stands mode afterValue text after) : t.Fits afterValue := by
  have hMarks : ∀ entry ∈ markTable, entry.2 ∉ [.minus, .unaryMinus, .kwRem] := by decide
  have hWords : ∀ entry ∈ wordTable, entry.2 ≠ .kwRem → entry.2 ∉ [.minus, .unaryMinus, .kwRem] := by decide
  cases h with
  | string hText | openString _ hText => exact .stringLiteral (by rwa [String.toList_ofList])
  | minus =>
    cases afterValue with
    | true => exact .minus rfl
    | false => exact .unaryMinus rfl
  | mark hMark => exact .symbol (hMarks _ hMark)
  | word hWord hToken =>
    cases hWord with
    | number _ hMax | signedNumber _ hMax => exact .number hMax
    | symbol hEntry => exact .symbol (hWords _ hEntry (by rintro rfl; exact hToken rfl))
    | identifier hName hTable => exact .identifier hName hTable

theorem Layout.eq_nil {mode : Mode} {afterValue last : Bool} {blocks : List Block} {after : List Char}
    (h : Layout mode afterValue blocks after last) (hNil : Block.sources blocks ++ after = []) :
    blocks = [] ∧ after = [] := by
  cases h with
  | nil => exact ⟨rfl, hNil⟩
  | cons _ hText =>
    rw [Block.sources_cons, Block.source] at hNil
    simp [hText.ne_nil] at hNil

theorem Layout.wellFormedFrom {mode : Mode} {afterValue last : Bool} {blocks : List Block} {after : List Char}
    (h : Layout mode afterValue blocks after last) (position : Nat) :
    WellFormedFrom afterValue ((Block.tokensFrom position blocks).map PositionedToken.token) := by
  induction h generalizing position with
  | nil => exact .nil
  | @cons afterValue last b blocks after _ hText hRest ih =>
    obtain ⟨gap, text, lexeme⟩ := b
    cases lexeme with
    | single t => exact .token hText.fits (ih _)
    | remark remark =>
      obtain ⟨-, -, -, -, hAfter⟩ := hText.exists_tail
      obtain ⟨rfl, -⟩ := hRest.eq_nil hAfter
      exact .remark

theorem WellFormed.count_rem {tokens : List Token} (h : WellFormed tokens) :
    tokens.count (.symbol .kwRem) ≤ 1 := by
  by_cases hMem : Token.symbol .kwRem ∈ tokens
  · obtain ⟨before, after, hTokens⟩ := List.append_of_mem hMem
    obtain ⟨text, rfl⟩ := h.rem before after hTokens
    have hBefore : Token.symbol .kwRem ∉ before := by
      intro hEarlier
      obtain ⟨first, middle, rfl⟩ := List.append_of_mem hEarlier
      rw [List.append_assoc, List.cons_append] at hTokens
      obtain ⟨other, hOther⟩ := h.rem first _ hTokens
      simpa using congrArg List.length hOther
    rw [hTokens, List.count_append, List.count_eq_zero_of_not_mem hBefore]
    simp
  · rw [List.count_eq_zero_of_not_mem hMem]
    exact Nat.zero_le 1

/-- The label is what the leading run of the line writes, and the tokens are well-formed. -/
theorem wellFormed_of_tokenize {mode : Mode} {line : String} {record : LineRecord}
    (h : tokenize mode line = .ok (.accepted record)) :
    Text.Numeral (line.toList.takeWhile isLabelChar) record.label.val ∧ record.label.val ≤ 4294967295 ∧
      WellFormed (record.tokens.map PositionedToken.token) ∧
      (record.tokens.map PositionedToken.token).count (.symbol .kwRem) ≤ 1 := by
  obtain ⟨layout⟩ := tokenize_eq_accepted_iff.mp h
  have hTokens : WellFormed (record.tokens.map PositionedToken.token) := by
    rw [layout.tokens_eq, wellFormed_iff]
    exact layout.layout.wellFormedFrom layout.digits.length
  refine ⟨?_, record.label.le_max, hTokens, hTokens.count_rem⟩
  rw [layout.takeWhile_eq]
  exact layout.label

theorem wellFormed_of_tokenize_minus :
    let line := "10 -5 -A)REM"
    let record : LineRecord := ⟨⟨10, by decide⟩, [⟨3, .symbol .unaryMinus⟩, ⟨4, .number 5⟩,
      ⟨6, .symbol .minus⟩, ⟨7, .identifier "A"⟩, ⟨8, .symbol .rightParen⟩, ⟨9, .symbol .kwRem⟩,
      ⟨13, .comment ""⟩]⟩
    tokenize .strict line = .ok (.accepted record) ∧
      Text.Numeral (line.toList.takeWhile isLabelChar) record.label.val ∧ record.label.val ≤ 4294967295 ∧
      WellFormed (record.tokens.map PositionedToken.token) ∧
      (record.tokens.map PositionedToken.token).count (.symbol .kwRem) ≤ 1 := by
  intro line record
  have h : tokenize .strict line = .ok (.accepted record) := by cbv
  exact ⟨h, wellFormed_of_tokenize h⟩

end LineBasic
