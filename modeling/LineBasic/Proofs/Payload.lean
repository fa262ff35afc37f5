import LineBasic.Proofs.Concatenation

/-! # Payloads: the text of a string and of a remark

Nothing in such a text is looked at. A string of another text, at the same place of a line, makes a
difference to the offsets behind it and to nothing else. A remark may have any text at all.
-/
namespace LineBasic
set_option autoImplicit false

/-- Tokens that end where they are complete, whatever follows. -/
def Token.EndsItself (t : Token) : Prop :=
  (∃ text, t = .stringLiteral text) ∨
    ∃ s ∈ [Symbol.minus, .unaryMinus, .bang, .leftParen, .rightParen], t = .symbol s

/-- No word at the end of the line could be continued: its last character is whitespace, or else the end
of its last token. -/
def LineRecord.EndsApart (record : LineRecord) (line : String) : Prop :=
  (∃ c, line.toList.getLast? = some c ∧ Text.isSpace c = true) ∨
    ∃ positioned, record.tokens.getLast? = some positioned ∧ positioned.token.EndsItself

/-- Two readings of a line that goes on with a string after the record, once with each text in it. -/
inductive Reading.WithString (record : LineRecord) (offset : Nat) (text other : String) : Reading → Reading → Prop
  | accepted {tokens : List PositionedToken} :
      WithString record offset text other
        (.accepted ⟨record.label, record.tokens ++ ⟨offset, .stringLiteral text⟩ ::
          tokens.map (PositionedToken.shift text.length)⟩)
        (.accepted ⟨record.label, record.tokens ++ ⟨offset, .stringLiteral other⟩ ::
          tokens.map (PositionedToken.shift other.length)⟩)
  | rejected {diagnostic first second : LexDiagnostic} (hFirst : diagnostic.Shifted text.length first)
      (hSecond : diagnostic.Shifted other.length second) :
      WithString record offset text other (.rejected first) (.rejected second)

/-- Such a token is written with marks and quotes only, so it stands before any text. -/
theorem Lexeme.Stands.of_endsItself {mode other : Mode} {afterValue : Bool} {t : Token} {text after : List Char}
    (h : (Lexeme.single t).Stands mode afterValue text after) (hMode : mode = .strict) (hToken : t.EndsItself)
    (following : List Char) : (Lexeme.single t).Stands other afterValue text following := by
  have hWords : ∀ entry ∈ wordTable,
      entry.2 ∉ [Symbol.minus, .unaryMinus, .bang, .leftParen, .rightParen] := by decide
  cases h with
  | string hText => exact .string hText
  | openString hLenient => cases hMode.symm.trans hLenient
  | minus => exact .minus
  | mark hMark => exact .mark hMark
  | word hWord =>
    rcases hToken with ⟨text, rfl⟩ | ⟨s, hMember, rfl⟩
    · cases hWord
    · cases hWord with
      | symbol hEntry => exact False.elim (hWords _ hEntry hMember)

theorem Lexeme.Stands.isSpace_getLast {afterValue : Bool} {t : Token} {text after : List Char}
    (h : (Lexeme.single t).Stands .strict afterValue text after) : ∀ c ∈ text.getLast?, Text.isSpace c = false := by
  have hMarks : ∀ entry ∈ markTable, Text.isSpace entry.1 = false := by decide
  intro c hc
  cases h with
  | @string text =>
    rw [← List.cons_append, List.getLast?_concat] at hc
    cases hc
    rfl
  | openString hLenient => cases hLenient
  | minus =>
    cases hc
    rfl
  | mark hMark =>
    cases hc
    exact hMarks _ hMark
  | word hWord => exact hWord.isSpace c (List.mem_of_getLast? hc)

theorem Layout.of_endsItself {mode : Mode} {afterValue last : Bool} {blocks : List Block} {b : Block} {t : Token}
    (h : Layout .strict afterValue (blocks ++ [b]) [] last) (hSingle : ∀ b ∈ blocks, b.IsSingle)
    (hLexeme : b.lexeme = .single t) (hToken : t.EndsItself) (rest : List Char) :
    Layout mode afterValue (blocks ++ [b]) rest last := by
  -- Only the last block stands before `rest`; all others still stand before the source of that block.
  obtain ⟨middle, hBlocks, hLast⟩ := h.exists_split
  cases hLast with
  | cons hGap hText hNil =>
    cases hNil
    rw [Block.sources_cons, Block.sources_nil, List.append_nil, List.append_nil] at hBlocks
    rw [Block.sources_nil] at hText
    have hSource : b.source ≠ [] := List.append_ne_nil_of_right_ne_nil b.gap hText.ne_nil
    have hRest : (Block.sources [b] ++ rest : List Char) = b.source ++ rest := by
      rw [Block.sources_cons, Block.sources_nil, List.append_nil]
    have hBefore : Layout mode afterValue blocks (Block.sources [b] ++ rest) middle := by
      rw [hRest]
      exact hBlocks.transfer hSingle (.inl rfl) fun hEnd => hEnd.append_of_ne_nil hSource rest
    refine hBefore.append (.cons hGap ?_ .nil)
    rw [hLexeme] at hText ⊢
    exact hText.of_endsItself rfl hToken _

namespace LineLayout

variable {line : String} {record : LineRecord}

/-- With no whitespace behind it, the last block is written with a token that ends itself. -/
theorem exists_endsItself (layout : LineLayout .strict line.toList record) (hSingle : ∀ b ∈ layout.blocks, b.IsSingle)
    (hEnds : record.EndsApart line) (hGap : layout.gap = []) :
    ∃ blocks b t, layout.blocks = blocks ++ [b] ∧ b.lexeme = .single t ∧ t.EndsItself := by
  have hLine := layout.line_eq
  have hTokens := layout.tokens_eq
  have hLayout := layout.layout
  rw [hGap, List.append_nil] at hLine
  rw [hGap] at hLayout
  rcases List.eq_nil_or_concat' layout.blocks with hNil | ⟨blocks, b, hBlocks⟩
  · rw [hNil] at hLine hTokens
    rw [Block.sources_nil, List.append_nil] at hLine
    rcases hEnds with ⟨c, hLast, hSpace⟩ | ⟨positioned, hLast, -⟩
    · rw [hLine] at hLast
      cases hSpace.symm.trans (layout.label.isSpace c (List.mem_of_getLast? hLast))
    · rw [hTokens] at hLast
      cases hLast
  · rw [hBlocks] at hSingle hLine hTokens hLayout
    obtain ⟨t, hLexeme⟩ := hSingle b (List.mem_append_right blocks List.mem_cons_self)
    refine ⟨blocks, b, t, hBlocks, hLexeme, ?_⟩
    rcases hEnds with ⟨c, hLast, hSpace⟩ | ⟨positioned, hLast, hToken⟩
    · obtain ⟨middle, -, hHere⟩ := hLayout.exists_split
      cases hHere with
      | cons _ hText _ =>
        rw [hLexeme] at hText
        rw [hLine, Block.sources_append, Block.sources_cons, Block.sources_nil, List.append_nil, Block.source,
          ← List.append_assoc, ← List.append_assoc, List.getLast?_append_of_ne_nil _ hText.ne_nil] at hLast
        cases hSpace.symm.trans (hText.isSpace_getLast c hLast)
    · rw [hTokens, Block.tokensFrom_append, Block.tokensFrom, Block.tokensAt, hLexeme, Block.tokensFrom,
        List.append_nil, Lexeme.tokensAt, List.getLast?_concat] at hLast
      cases hLast
      exact hToken

theorem tokenize_append_of_endsApart (layout : LineLayout .strict line.toList record)
    (hSingle : ∀ b ∈ layout.blocks, b.IsSingle) (hEnds : record.EndsApart line) (mode : Mode) (rest : String) :
    tokenize mode (line ++ rest) = .ok (Reading.ofScan record.label
      ((scanTokens mode layout.last ⟨line.length, rest.toList⟩).map (record.tokens ++ ·))) := by
  apply layout.tokenize_append
  · rw [← List.append_assoc]
    apply layout.boundary.append_of_ne_nil
    intro hNil
    obtain ⟨hBlocks, hGap⟩ := layout.layout.eq_nil hNil
    obtain ⟨blocks, b, -, hSome, -⟩ := layout.exists_endsItself hSingle hEnds hGap
    simp [hBlocks] at hSome
  · have hLayout := layout.layout
    by_cases hGap : layout.gap = []
    · obtain ⟨blocks, b, t, hBlocks, hLexeme, hToken⟩ := layout.exists_endsItself hSingle hEnds hGap
      rw [hBlocks] at hSingle
      rw [hGap, hBlocks] at hLayout ⊢
      exact hLayout.of_endsItself (fun b hMem => hSingle b (List.mem_append_left _ hMem)) hLexeme hToken _
    · exact hLayout.transfer hSingle (.inl rfl) fun hEnd => hEnd.append_of_ne_nil hGap _

end LineLayout

/-- A string is passed over as a whole; from its end on the text is scanned as if behind an empty one. -/
theorem scanTokens_string (mode : Mode) (afterValue : Bool) {text : String} (rest : List Char) (position : Nat)
    (hText : '"' ∉ text.toList) :
    scanTokens mode afterValue ⟨position, '"' :: (text.toList ++ '"' :: rest)⟩ =
      (shiftScan text.length (scanTokens mode true ⟨position + 2, rest⟩)).map
        (⟨position, .stringLiteral text⟩ :: ·) := by
  have hStands : (Lexeme.single (.stringLiteral text)).Stands mode afterValue ('"' :: (text.toList ++ ['"'])) rest := by
    have hString := @Lexeme.Stands.string mode afterValue text.toList rest hText
    rwa [String.ofList_toList] at hString
  have hScan := @scanTokens_append mode afterValue _ [] _ rest position rfl hStands
  have hCursor : (⟨position + ('"' :: (text.toList ++ ['"'])).length, rest⟩ : Cursor) =
      (Cursor.mk (position + 2) rest).shift text.length := by
    rw [Cursor.shift, List.length_cons, List.length_append, List.length_singleton, String.length_toList]
    congr 1
    dsimp only
    omega
  rw [List.nil_append, hCursor, scanTokens_shift] at hScan
  rw [← List.singleton_append (l := rest), ← List.append_assoc, ← List.cons_append]
  exact hScan

theorem scanTokens_remark (mode : Mode) (afterValue : Bool) {c : Char} (text : String) (position : Nat)
    (hSeparator : isWordChar c = false) :
    scanTokens mode afterValue ⟨position, 'R' :: 'E' :: 'M' :: c :: text.toList⟩ =
      .ok [⟨position, .symbol .kwRem⟩, ⟨position + 4, .comment text⟩] := by
  have hStands := @Lexeme.Stands.remark mode afterValue c text.toList hSeparator
  rw [String.ofList_toList] at hStands
  exact hStands.scanTokens position

theorem withString_of_scan (record : LineRecord) (offset : Nat) (text other : String) (mode : Mode) (c : Cursor) :
    Reading.WithString record offset text other
      (Reading.ofScan record.label (((shiftScan text.length (scanTokens mode true c)).map
        (⟨offset, .stringLiteral text⟩ :: ·)).map (record.tokens ++ ·)))
      (Reading.ofScan record.label (((shiftScan other.length (scanTokens mode true c)).map
        (⟨offset, .stringLiteral other⟩ :: ·)).map (record.tokens ++ ·))) := by
  cases hScan : scanTokens mode true c with
  | error fault =>
    obtain ⟨rejection, -, -, -, -, -, -, -, -, rfl⟩ := exists_layout_of_scanTokens_error hScan
    rw [shiftScan, shiftScan, Rejection.shift_faultAt, Rejection.shift_faultAt]
    exact .rejected (rejection.shifted_faultAt _ _) (rejection.shifted_faultAt _ _)
  | ok tokens => exact .accepted

/-- Behind a line that ends apart, the text of a string and the text of a remark are not looked at. -/
theorem payload_unread {line : String} {record : LineRecord} (h : tokenize .strict line = .ok (.accepted record))
    (hRem : ∀ positioned ∈ record.tokens, positioned.token ≠ .symbol .kwRem) (hEnds : record.EndsApart line)
    (mode : Mode) :
    (∀ text other rest : String, '"' ∉ text.toList → '"' ∉ other.toList →
      ∃ reading otherReading, tokenize mode (line ++ "\"" ++ text ++ "\"" ++ rest) = .ok reading ∧
        tokenize mode (line ++ "\"" ++ other ++ "\"" ++ rest) = .ok otherReading ∧
          reading.WithString record line.length text other otherReading) ∧
    ∀ (c : Char) (text : String), Text.isSpace c = true ∨ c = ')' →
      tokenize mode (line ++ "REM" ++ String.singleton c ++ text) = .ok (.accepted ⟨record.label, record.tokens ++
        [⟨line.length, .symbol .kwRem⟩, ⟨line.length + 4, .comment text⟩]⟩) := by
  obtain ⟨layout⟩ := tokenize_eq_accepted_iff.mp h
  have hAppend := layout.tokenize_append_of_endsApart (layout.isSingle hRem) hEnds mode
  constructor
  · intro text other rest hText hOther
    have hString {text : String} (hText : '"' ∉ text.toList) :
        tokenize mode (line ++ "\"" ++ text ++ "\"" ++ rest) = .ok (Reading.ofScan record.label
          (((shiftScan text.length (scanTokens mode true ⟨line.length + 2, rest.toList⟩)).map
            (⟨line.length, .stringLiteral text⟩ :: ·)).map (record.tokens ++ ·))) := by
      have hAfter : ("\"" ++ text ++ "\"" ++ rest).toList = '"' :: (text.toList ++ '"' :: rest.toList) := by simp
      have hLine := hAppend ("\"" ++ text ++ "\"" ++ rest)
      rw [hAfter, scanTokens_string mode layout.last rest.toList line.length hText] at hLine
      simpa only [String.append_assoc] using hLine
    exact ⟨_, _, hString hText, hString hOther, withString_of_scan record line.length text other mode _⟩
  · intro c text hSeparator
    have hAfter : ("REM" ++ String.singleton c ++ text).toList = 'R' :: 'E' :: 'M' :: c :: text.toList := by simp
    have hLine := hAppend ("REM" ++ String.singleton c ++ text)
    rw [hAfter, scanTokens_remark mode layout.last text line.length ((isWordChar_eq_false_iff c).mpr hSeparator)] at hLine
    simp only [String.append_assoc] at hLine ⊢
    exact hLine

/-- Words, marks and a bracket in the string, a sign and a fault behind it, and a remark with a quote. -/
theorem payload_unread_keywords :
    let line := "10 PRINT (-"
    let record : LineRecord := ⟨⟨10, by decide⟩, [⟨3, .symbol .kwPrint⟩, ⟨9, .symbol .leftParen⟩,
      ⟨10, .symbol .unaryMinus⟩]⟩
    let text := "GOTO -1) REM \x7btext\x7d"
    tokenize .strict line = .ok (.accepted record) ∧
      (∀ positioned ∈ record.tokens, positioned.token ≠ .symbol .kwRem) ∧ record.EndsApart line ∧
      '"' ∉ text.toList ∧ '"' ∉ "".toList ∧ (Text.isSpace ')' = true ∨ ')' = ')') ∧
      (∃ reading otherReading, tokenize .lenient (line ++ "\"" ++ text ++ "\"" ++ "-1 A\"") = .ok reading ∧
        tokenize .lenient (line ++ "\"" ++ "" ++ "\"" ++ "-1 A\"") = .ok otherReading ∧
          reading.WithString record line.length text "" otherReading) ∧
      tokenize .lenient (line ++ "REM" ++ String.singleton ')' ++ "\"(") = .ok (.accepted ⟨record.label,
        record.tokens ++ [⟨line.length, .symbol .kwRem⟩, ⟨line.length + 4, .comment "\"("⟩]⟩) := by
  intro line record text
  have h : tokenize .strict line = .ok (.accepted record) := by cbv
  have hRem : ∀ positioned ∈ record.tokens, positioned.token ≠ .symbol .kwRem := by decide
  have hEnds : record.EndsApart line := .inr ⟨_, rfl, .inr ⟨.unaryMinus, by decide, rfl⟩⟩
  have hText : '"' ∉ text.toList := by decide
  have hEmpty : '"' ∉ "".toList := by decide
  obtain ⟨hStrings, hRemarks⟩ := payload_unread h hRem hEnds .lenient
  exact ⟨h, hRem, hEnds, hText, hEmpty, .inr rfl, hStrings text "" "-1 A\"" hText hEmpty, hRemarks ')' "\"(" (.inr rfl)⟩

end LineBasic
