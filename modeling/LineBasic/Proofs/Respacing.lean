import LineBasic.Proofs.Refusal
import LineBasic.Proofs.Tiling

/-! # Lines that differ in which whitespace they use

Two such lines have the same label, the same words and the same marks at the same places, and a quote
stands in both or in neither. So they are read alike: all that differs is the whitespace inside strings
and comments, and there it differs as the lines do.
-/
namespace LineBasic
set_option autoImplicit false

/-- The same characters, but for whitespace, which may stand for other whitespace. -/
def Respaced : List Char → List Char → Prop :=
  List.Forall₂ fun a b => a = b ∨ (Text.isSpace a = true ∧ Text.isSpace b = true)

/-- Texts that stand at the same place of two lines and differ as these do. -/
structure RespacedAt (line other : List Char) (start : Nat) (text otherText : List Char) : Prop where
  respaced : Respaced text otherText
  first : text <+: line.drop start
  second : otherText <+: other.drop start

inductive PositionedToken.Respaced (line other : List Char) : PositionedToken → PositionedToken → Prop
  | same {offset : Nat} {t : Token} (hString : ∀ text, t ≠ .stringLiteral text) (hComment : ∀ text, t ≠ .comment text) :
      Respaced line other ⟨offset, t⟩ ⟨offset, t⟩
  | stringLiteral {offset : Nat} {text otherText : String}
      (hTexts : RespacedAt line other (offset + 1) text.toList otherText.toList) :
      Respaced line other ⟨offset, .stringLiteral text⟩ ⟨offset, .stringLiteral otherText⟩
  | comment {offset : Nat} {text otherText : String}
      (hTexts : RespacedAt line other offset text.toList otherText.toList) :
      Respaced line other ⟨offset, .comment text⟩ ⟨offset, .comment otherText⟩

inductive Reading.Respaced (line other : List Char) : Reading → Reading → Prop
  | accepted {label : LineNumber} {tokens otherTokens : List PositionedToken}
      (hTokens : List.Forall₂ (PositionedToken.Respaced line other) tokens otherTokens) :
      Respaced line other (.accepted ⟨label, tokens⟩) (.accepted ⟨label, otherTokens⟩)
  | rejected {diagnostic : LexDiagnostic} : Respaced line other (.rejected diagnostic) (.rejected diagnostic)

namespace Respaced

variable {text other : List Char}

theorem length_eq (h : Respaced text other) : text.length = other.length := List.Forall₂.length_eq h

theorem exists_append {before after : List Char} (h : Respaced (before ++ after) other) :
    ∃ otherBefore otherAfter, other = otherBefore ++ otherAfter ∧ Respaced before otherBefore ∧
      Respaced after otherAfter := by
  induction before generalizing other with
  | nil => exact ⟨[], other, rfl, .nil, h⟩
  | cons c before ih =>
    obtain ⟨d, rest, hChar, hRest, rfl⟩ := List.forall₂_cons_left_iff.mp h
    obtain ⟨otherBefore, otherAfter, rfl, hBefore, hAfter⟩ := ih hRest
    exact ⟨d :: otherBefore, otherAfter, rfl, .cons hChar hBefore, hAfter⟩

theorem append {after otherAfter : List Char} (h : Respaced text other) (hAfter : Respaced after otherAfter) :
    Respaced (text ++ after) (other ++ otherAfter) := List.rel_append h hAfter

theorem exists_cons {c : Char} (h : Respaced (c :: text) other) (hSpace : Text.isSpace c = false) :
    ∃ rest, other = c :: rest ∧ Respaced text rest := by
  obtain ⟨d, rest, rfl | ⟨hOther, -⟩, hRest, rfl⟩ := List.forall₂_cons_left_iff.mp h
  · exact ⟨rest, rfl, hRest⟩
  · cases hSpace.symm.trans hOther

theorem eq_of_forall (h : Respaced text other) (hSpace : ∀ c ∈ text, Text.isSpace c = false) : other = text := by
  induction text generalizing other with
  | nil => exact List.forall₂_nil_left_iff.mp h
  | cons c text ih =>
    obtain ⟨hFirst, hText⟩ := List.forall_mem_cons.mp hSpace
    obtain ⟨rest, rfl, hRest⟩ := h.exists_cons hFirst
    rw [ih hRest hText]

/-- A test that cannot tell whitespace from other whitespace holds in both texts. -/
theorem forall_of_forall {test : Char → Bool} {value : Bool} (h : Respaced text other)
    (hTest : ∀ c, Text.isSpace c = true → test c = value) (hText : ∀ c ∈ text, test c = value) :
    ∀ c ∈ other, test c = value := by
  induction h with
  | nil => exact hText
  | @cons c d _ _ hChar _ ih =>
    obtain ⟨hFirst, hRest⟩ := List.forall_mem_cons.mp hText
    refine List.forall_mem_cons.mpr ⟨?_, ih hRest⟩
    rcases hChar with rfl | ⟨-, hOther⟩
    · exact hFirst
    · exact hTest d hOther

theorem isBlank (h : Respaced text other) (hBlank : Text.isBlank text = true) : Text.isBlank other = true :=
  List.all_eq_true.mpr (h.forall_of_forall (fun _ => id) (List.all_eq_true.mp hBlank))

theorem not_mem_quote (h : Respaced text other) (hQuote : '"' ∉ text) : '"' ∉ other := by
  have hOther : ∀ c ∈ other, (c == '"') = false := by
    apply h.forall_of_forall
    · intro c hSpace
      rw [beq_eq_false_iff_ne]
      rintro rfl
      cases hSpace
    · intro c hc
      rw [beq_eq_false_iff_ne]
      rintro rfl
      exact hQuote hc
  intro hMem
  cases hOther _ hMem

theorem forall_head_of_forall {test : Char → Bool} {value : Bool} (h : Respaced text other)
    (hTest : ∀ c, Text.isSpace c = true → test c = value) (hText : ∀ c ∈ text.head?, test c = value) :
    ∀ c ∈ other.head?, test c = value := by
  cases h with
  | nil => exact hText
  | @cons c d _ _ hChar _ =>
    intro x hx
    obtain rfl : d = x := Option.some.inj hx
    rcases hChar with rfl | ⟨-, hOther⟩
    · exact hText c rfl
    · exact hTest d hOther

theorem endsWord (h : Respaced text other) (hEnd : EndsWord text) : EndsWord other :=
  h.forall_head_of_forall (fun c hSpace => (isWordChar_eq_false_iff c).mpr (.inl hSpace)) hEnd

theorem startsBlank (h : Respaced text other) (hBlank : StartsBlank text) : StartsBlank other :=
  h.forall_head_of_forall (fun _ => id) hBlank

theorem takeWhile_isLabelChar (h : Respaced text other) :
    other.takeWhile isLabelChar = text.takeWhile isLabelChar := by
  induction h with
  | nil => rfl
  | @cons c d _ _ hChar _ ih =>
    rcases hChar with rfl | ⟨hSpace, hOther⟩
    · rw [List.takeWhile_cons, List.takeWhile_cons, ih]
    · have hStop {x : Char} (hX : Text.isSpace x = true) : ¬ isLabelChar x = true := by simp [isLabelChar, hX]
      rw [List.takeWhile_cons_of_neg (hStop hSpace), List.takeWhile_cons_of_neg (hStop hOther)]

end Respaced

theorem Token.WordFor.ne_stringLiteral {t : Token} {word : List Char} (h : t.WordFor word) (text : String) :
    t ≠ .stringLiteral text ∧ t ≠ .comment text := by
  cases h with
  | number | signedNumber | symbol | identifier => exact ⟨nofun, nofun⟩

namespace Lexeme

theorem respaced_single {t : Token} (h : ∀ text, t ≠ .stringLiteral text ∧ t ≠ .comment text) (line other : List Char)
    (offset : Nat) :
    List.Forall₂ (PositionedToken.Respaced line other) ((single t).tokensAt offset) ((single t).tokensAt offset) :=
  .cons (.same (fun text => (h text).1) fun text => (h text).2) .nil

theorem respaced_string {line other text otherText after otherAfter : List Char} {offset : Nat}
    (hText : LineBasic.Respaced text otherText) (hLine : line.drop offset = '"' :: (text ++ after))
    (hOther : other.drop offset = '"' :: (otherText ++ otherAfter)) :
    List.Forall₂ (PositionedToken.Respaced line other)
      ((single (.stringLiteral (String.ofList text))).tokensAt offset)
      ((single (.stringLiteral (String.ofList otherText))).tokensAt offset) := by
  refine .cons (.stringLiteral ?_) .nil
  rw [String.toList_ofList, String.toList_ofList]
  refine ⟨hText, ?_, ?_⟩
  · rw [← List.drop_drop, hLine]
    exact List.prefix_append text after
  · rw [← List.drop_drop, hOther]
    exact List.prefix_append otherText otherAfter

theorem respaced_remark {line other text otherText : List Char} {offset : Nat}
    (hText : LineBasic.Respaced text otherText) (hLine : text <+: line.drop (offset + 4))
    (hOther : otherText <+: other.drop (offset + 4)) :
    List.Forall₂ (PositionedToken.Respaced line other) ((remark (String.ofList text)).tokensAt offset)
      ((remark (String.ofList otherText)).tokensAt offset) := by
  refine .cons (.same nofun nofun) (.cons (.comment ?_) .nil)
  rw [String.toList_ofList, String.toList_ofList]
  exact ⟨hText, hLine, hOther⟩

/-- A lexeme stands in both lines, and its tokens differ as the lines do. -/
theorem Stands.exists_respaced {mode : Mode} {afterValue : Bool} {lexeme : Lexeme}
    {text after otherText otherAfter : List Char} (h : Stands mode afterValue lexeme text after)
    (hText : LineBasic.Respaced text otherText) (hAfter : LineBasic.Respaced after otherAfter) :
    ∃ otherLexeme : Lexeme, Stands mode afterValue otherLexeme otherText otherAfter ∧
      otherLexeme.isValue = lexeme.isValue ∧ ∀ line other offset, line.drop offset = text ++ after →
        other.drop offset = otherText ++ otherAfter →
          List.Forall₂ (PositionedToken.Respaced line other) (lexeme.tokensAt offset)
            (otherLexeme.tokensAt offset) := by
  have hMarks : ∀ entry ∈ markTable, Text.isSpace entry.1 = false := by decide
  have hSymbol (s : Symbol) (text : String) : Token.symbol s ≠ .stringLiteral text ∧ Token.symbol s ≠ .comment text :=
    ⟨nofun, nofun⟩
  cases h with
  | @string text _ hInside =>
    obtain ⟨rest, rfl, hRest⟩ := hText.exists_cons rfl
    obtain ⟨inside, close, rfl, hBody, hClose⟩ := hRest.exists_append
    obtain rfl := hClose.eq_of_forall (List.forall_mem_singleton.mpr rfl)
    refine ⟨_, .string (hBody.not_mem_quote hInside), rfl, ?_⟩
    intro line other offset hLine hOther
    rw [List.cons_append, List.append_assoc] at hLine hOther
    exact respaced_string hBody hLine hOther
  | @openString text hMode hInside =>
    obtain ⟨rest, rfl, hRest⟩ := hText.exists_cons rfl
    obtain rfl := List.forall₂_nil_left_iff.mp hAfter
    refine ⟨_, .openString hMode (hRest.not_mem_quote hInside), rfl, ?_⟩
    intro line other offset hLine hOther
    exact respaced_string hRest hLine hOther
  | minus =>
    obtain rfl := hText.eq_of_forall (List.forall_mem_singleton.mpr rfl)
    exact ⟨_, .minus, rfl, fun line other offset _ _ => respaced_single (hSymbol _) line other offset⟩
  | mark hMark =>
    obtain rfl := hText.eq_of_forall (List.forall_mem_singleton.mpr (hMarks _ hMark))
    exact ⟨_, .mark hMark, rfl, fun line other offset _ _ => respaced_single (hSymbol _) line other offset⟩
  | word hWord hToken hEnd =>
    obtain rfl := hText.eq_of_forall hWord.isSpace
    exact ⟨_, .word hWord hToken (hAfter.endsWord hEnd), rfl,
      fun line other offset _ _ => respaced_single hWord.ne_stringLiteral line other offset⟩
  | bareRemark =>
    obtain rfl := hText.eq_of_forall Token.wordFor_rem.isSpace
    obtain rfl := List.forall₂_nil_left_iff.mp hAfter
    refine ⟨_, .bareRemark, rfl, ?_⟩
    intro line other offset _ _
    exact @respaced_remark line other [] [] offset .nil (List.nil_prefix) (List.nil_prefix)
  | @remark c text hSeparator =>
    change LineBasic.Respaced (['R', 'E', 'M'] ++ c :: text) otherText at hText
    obtain ⟨word, tail, rfl, hWord, hTail⟩ := LineBasic.Respaced.exists_append hText
    obtain rfl := hWord.eq_of_forall Token.wordFor_rem.isSpace
    obtain rfl := List.forall₂_nil_left_iff.mp hAfter
    obtain ⟨d, inside, hChar, hInside, rfl⟩ := List.forall₂_cons_left_iff.mp hTail
    have hOtherSeparator : isWordChar d = false := by
      rcases hChar with rfl | ⟨-, hSpace⟩
      · exact hSeparator
      · exact (isWordChar_eq_false_iff d).mpr (.inl hSpace)
    refine ⟨_, .remark hOtherSeparator, rfl, ?_⟩
    intro line other offset hLine hOther
    refine respaced_remark hInside ?_ ?_
    · rw [← List.drop_drop, hLine, List.append_nil]
      exact List.prefix_rfl
    · rw [← List.drop_drop, hOther, List.append_nil]
      exact List.prefix_rfl

end Lexeme

theorem Rejection.Stands.respaced {mode : Mode} {rejection : Rejection} {text otherText : List Char}
    (h : rejection.Stands mode text) (hText : Respaced text otherText) : rejection.Stands mode otherText := by
  cases h with
  | @unrecognized first tail after hFirst hTail hEnd hWord =>
    obtain ⟨word, otherAfter, rfl, hSame, hAfter⟩ := hText.exists_append
    have hInside : ∀ c ∈ first :: tail, Text.isSpace c = false :=
      List.forall_mem_cons.mpr ⟨isSpace_of_opensWord hFirst, fun c hc => isSpace_of_isWordChar (hTail c hc)⟩
    obtain rfl := hSame.eq_of_forall hInside
    exact .unrecognized hFirst hTail (hAfter.endsWord hEnd) hWord
  | unterminated hMode hBody =>
    obtain ⟨rest, rfl, hRest⟩ := hText.exists_cons rfl
    exact .unterminated hMode (hRest.not_mem_quote hBody)

theorem Layout.exists_respaced {mode : Mode} {afterValue last : Bool} {blocks : List Block}
    {after rest : List Char} (h : Layout mode afterValue blocks after last)
    (hRest : Respaced (Block.sources blocks ++ after) rest) :
    ∃ otherBlocks otherAfter, rest = Block.sources otherBlocks ++ otherAfter ∧ Respaced after otherAfter ∧
      (Block.sources otherBlocks).length = (Block.sources blocks).length ∧
      Layout mode afterValue otherBlocks otherAfter last ∧
      ∀ line other position, line.drop position = Block.sources blocks ++ after → other.drop position = rest →
        List.Forall₂ (PositionedToken.Respaced line other) (Block.tokensFrom position blocks)
          (Block.tokensFrom position otherBlocks) := by
  -- Tokens are compared at the place they have in either line, which the induction has to carry along.
  induction h generalizing rest with
  | nil => exact ⟨[], rest, rfl, hRest, rfl, .nil, fun _ _ _ _ _ => .nil⟩
  | @cons afterValue last b blocks after hGap hText hLayout ih =>
    rw [Block.sources_cons, List.append_assoc] at hRest
    obtain ⟨source, tail, rfl, hSource, hTail⟩ := hRest.exists_append
    obtain ⟨gap, text, rfl, hSpaces, hWritten⟩ := LineBasic.Respaced.exists_append hSource
    obtain ⟨lexeme, hStands, hValue, hTokens⟩ := hText.exists_respaced hWritten hTail
    obtain ⟨others, otherAfter, rfl, hAfter, hLength, hOthers, hMore⟩ := ih hTail
    rw [← hValue] at hOthers
    refine ⟨⟨gap, text, lexeme⟩ :: others, otherAfter, ?_, hAfter, ?_, .cons (hSpaces.isBlank hGap) hStands hOthers, ?_⟩
    · rw [Block.sources_cons]
      exact (List.append_assoc (gap ++ text) _ _).symm
    · rw [Block.sources_cons, Block.sources_cons, List.length_append, List.length_append, hLength, hSource.length_eq]
      rfl
    · intro line other position hLine hOther
      rw [Block.sources_cons, List.append_assoc] at hLine
      have hLineRest := drop_of_drop_eq_append hLine
      have hOtherRest := drop_of_drop_eq_append hOther
      rw [← hSource.length_eq] at hOtherRest
      rw [Block.source, List.append_assoc] at hLine
      rw [List.append_assoc] at hOther
      have hOtherText := drop_of_drop_eq_append hOther
      rw [← hSpaces.length_eq] at hOtherText
      have hHere := hTokens line other _ (drop_of_drop_eq_append hLine) hOtherText
      have hThere := hMore line other _ hLineRest hOtherRest
      have hOtherHere : Block.tokensAt position ⟨gap, text, lexeme⟩ = lexeme.tokensAt (position + b.gap.length) := by
        rw [Block.tokensAt, hSpaces.length_eq]
      have hOtherSource : (Block.mk gap text lexeme).source.length = b.source.length := hSource.length_eq.symm
      rw [Block.tokensFrom, Block.tokensFrom, hOtherHere, hOtherSource]
      exact List.rel_append hHere hThere

theorem LabelFault.respaced {line other : List Char} {fault : Fault} (h : LabelFault line fault)
    (hOther : Respaced line other) : LabelFault other fault := by
  cases h with
  | missing hFirst =>
    refine .missing (hOther.forall_head_of_forall ?_ hFirst)
    intro c hSpace
    rw [Bool.eq_false_iff]
    intro hIsDigit
    cases hSpace.symm.trans (isSpace_of_isDigit hIsDigit)
  | invalid hFirst hLabel =>
    obtain ⟨c, hc, hIsDigit⟩ := hFirst
    obtain ⟨rest, rfl⟩ := List.head?_eq_some_iff.mp hc
    obtain ⟨otherRest, rfl, -⟩ := hOther.exists_cons (isSpace_of_isDigit hIsDigit)
    rw [← hOther.takeWhile_isLabelChar] at hLabel ⊢
    exact .invalid ⟨c, rfl, hIsDigit⟩ hLabel

theorem LineLayout.exists_respaced {mode : Mode} {line other : List Char} {record : LineRecord}
    (layout : LineLayout mode line record) (h : Respaced line other) :
    ∃ tokens, List.Forall₂ (PositionedToken.Respaced line other) record.tokens tokens ∧
      Nonempty (LineLayout mode other ⟨record.label, tokens⟩) := by
  have hLine := h
  rw [layout.line_eq] at hLine
  obtain ⟨digits, body, hBody, hSame, hRest⟩ := hLine.exists_append
  obtain rfl := hSame.eq_of_forall layout.label.isSpace
  obtain ⟨blocks, gap, rfl, hGap, -, hLayout, hTokens⟩ := layout.layout.exists_respaced hRest
  refine ⟨Block.tokensFrom layout.digits.length blocks, ?_, ⟨?_⟩⟩
  · rw [layout.tokens_eq]
    apply hTokens
    · exact (congrArg (List.drop layout.digits.length) layout.line_eq).trans List.drop_left
    · exact (congrArg (List.drop layout.digits.length) hBody).trans List.drop_left
  · exact ⟨layout.digits, blocks, gap, layout.last, hBody, layout.label, hRest.startsBlank layout.boundary, hLayout,
      hGap.isBlank layout.blank, rfl⟩

theorem Refusal.respaced {mode : Mode} {line other : List Char} {fault : Fault}
    (refusal : Refusal mode line fault) (h : Respaced line other) : Nonempty (Refusal mode other fault) := by
  rw [refusal.line_eq] at h
  obtain ⟨digits, body, hBody, hSame, hRest⟩ := h.exists_append
  obtain rfl := hSame.eq_of_forall refusal.label.isSpace
  obtain ⟨blocks, after, rfl, hAfter, hLength, hLayout, -⟩ := refusal.layout.exists_respaced hRest
  obtain ⟨gap, text, rfl, hGap, hText⟩ := hAfter.exists_append
  refine ⟨⟨refusal.number, refusal.rejection, refusal.digits, blocks, gap, text, refusal.last, hBody, refusal.label,
    hRest.startsBlank refusal.boundary, hLayout, hGap.isBlank refusal.blank, refusal.stands.respaced hText, ?_⟩⟩
  rw [hLength, ← hGap.length_eq]
  exact refusal.fault_eq

/-- Lines that differ only in which whitespace they use are both accepted, with tokens that differ as they
do, or both refused with the same diagnostic. -/
theorem exists_reading_respaced {line other : String} (h : Respaced line.toList other.toList) (mode : Mode) :
    ∃ reading otherReading, tokenize mode line = .ok reading ∧ tokenize mode other = .ok otherReading ∧
      reading.Respaced line.toList other.toList otherReading := by
  obtain ⟨reading, hReading⟩ := exists_reading mode line
  cases reading with
  | accepted record =>
    obtain ⟨layout⟩ := tokenize_eq_accepted_iff.mp hReading
    obtain ⟨tokens, hTokens, hLayout⟩ := layout.exists_respaced h
    exact ⟨_, _, hReading, tokenize_eq_accepted_iff.mpr hLayout, .accepted hTokens⟩
  | rejected diagnostic =>
    obtain ⟨fault, rfl, hFault⟩ := tokenize_eq_rejected_iff.mp hReading
    refine ⟨_, _, hReading, tokenize_eq_rejected_iff.mpr ⟨fault, rfl, ?_⟩, .rejected⟩
    rcases hFault with hLabel | ⟨⟨refusal⟩⟩
    · exact .inl (hLabel.respaced h)
    · exact .inr (refusal.respaced h)

/-- Whitespace between words, in a string, behind REM and in a comment. -/
theorem exists_reading_respaced_tabs :
    let line := "10 PRINT\t\"a b\")REM c d"
    let other := "10\tPRINT \"a\u00A0b\")REM\tc\td"
    Respaced line.toList other.toList ∧ ∃ reading otherReading, tokenize .strict line = .ok reading ∧
      tokenize .strict other = .ok otherReading ∧ reading.Respaced line.toList other.toList otherReading := by
  intro line other
  have hPairs : ∀ pair ∈ line.toList.zip other.toList,
      pair.1 = pair.2 ∨ (Text.isSpace pair.1 = true ∧ Text.isSpace pair.2 = true) := by decide
  have h : Respaced line.toList other.toList := List.forall₂_iff_zip.mpr ⟨by decide, fun hMem => hPairs _ hMem⟩
  exact ⟨h, exists_reading_respaced h .strict⟩

end LineBasic
