import LineBasic.Proofs.WellFormed

/-! # Tilings: what the tokens of a record tell about every character of the line

Each token has its text at its offset, the texts stand in order and do not overlap, and outside them
there is only whitespace and the one character between REM and its comment.
-/
namespace LineBasic
set_option autoImplicit false

/-- The text of a token, and what is left of the line behind it. -/
inductive Token.Written (mode : Mode) : Token → List Char → List Char → Prop
  | symbol {s : Symbol} {after : List Char} : Written mode (.symbol s) s.spelling.toList after
  | identifier {name : String} {after : List Char} : Written mode (.identifier name) name.toList after
  | number {digits after : List Char} {n : Nat} (hDigits : Text.Numeral digits n) :
      Written mode (.number (Int.ofNat n)) digits after
  | signedNumber {digits after : List Char} {n : Nat} (hDigits : Text.Numeral digits n) :
      Written mode (.number (Int.ofNat n)) ('+' :: digits) after
  | string {text : String} {after : List Char} :
      Written mode (.stringLiteral text) ('"' :: (text.toList ++ ['"'])) after
  | openString {text : String} (hMode : mode = .lenient) :
      Written mode (.stringLiteral text) ('"' :: text.toList) []
  | comment {text : String} : Written mode (.comment text) text.toList []

/-- A token of a record with its text. -/
structure Span where
  token : PositionedToken
  text : List Char

namespace Span

def start (span : Span) : Nat := span.token.offset

def stop (span : Span) : Nat := span.start + span.text.length

def Covers (span : Span) (i : Nat) : Prop := span.start ≤ i ∧ i < span.stop

def IsRem (span : Span) : Prop := span.token.token = .symbol .kwRem

def IsComment (span : Span) : Prop := ∃ text, span.token.token = .comment text

def remAt (start : Nat) : Span := ⟨⟨start, .symbol .kwRem⟩, ['R', 'E', 'M']⟩

def commentAt (start : Nat) (text : List Char) : Span := ⟨⟨start, .comment (String.ofList text)⟩, text⟩

@[simp] theorem remAt_start (start : Nat) : (remAt start).start = start := rfl

@[simp] theorem remAt_stop (start : Nat) : (remAt start).stop = start + 3 := rfl

@[simp] theorem commentAt_start (start : Nat) (text : List Char) : (commentAt start text).start = start := rfl

@[simp] theorem commentAt_stop (start : Nat) (text : List Char) :
    (commentAt start text).stop = start + text.length := rfl

@[simp] theorem remAt_isRem (start : Nat) : (remAt start).IsRem := rfl

@[simp] theorem commentAt_isRem (start : Nat) (text : List Char) : ¬ (commentAt start text).IsRem := nofun

@[simp] theorem remAt_isComment (start : Nat) : ¬ (remAt start).IsComment := nofun

@[simp] theorem commentAt_isComment (start : Nat) (text : List Char) : (commentAt start text).IsComment :=
  ⟨_, rfl⟩

theorem remAt_written (mode : Mode) (start : Nat) (after : List Char) :
    (remAt start).token.token.Written mode (remAt start).text after := @Token.Written.symbol mode .kwRem after

theorem commentAt_written (mode : Mode) (start : Nat) (text : List Char) :
    (commentAt start text).token.token.Written mode (commentAt start text).text [] := by
  have hWritten := @Token.Written.comment mode (String.ofList text)
  rwa [String.toList_ofList] at hWritten

end Span

/-- The spans account for the line from `start` on. -/
structure Tiling (mode : Mode) (chars : List Char) (start : Nat) (spans : List Span) : Prop where
  written : ∀ span ∈ spans, ∃ after, chars.drop span.start = span.text ++ after ∧
    span.token.token.Written mode span.text after
  le_start : ∀ span ∈ spans, start ≤ span.start
  ordered : spans.Pairwise fun a b => a.start < b.start ∧ a.stop ≤ b.start
  uncovered : ∀ i c, start ≤ i → chars[i]? = some c → (∀ span ∈ spans, ¬ span.Covers i) →
    Text.isSpace c = true ∨ ∃ rem ∈ spans, rem.IsRem ∧ i = rem.start + 3
  separator : ∀ rem ∈ spans, rem.IsRem → ∀ c ∈ chars[rem.start + 3]?, Text.isSpace c = true ∨ c = ')'
  inside : ∀ span ∈ spans, ¬ span.IsComment → span.start < chars.length
  comment : ∀ span ∈ spans, span.IsComment → span.start ≤ chars.length + 1 ∧
    (span.start = chars.length + 1 ↔ ∃ rem ∈ spans, rem.IsRem ∧ rem.start + 3 = chars.length)
  openString : ∀ span ∈ spans, ∀ text, span.token.token = .stringLiteral text →
    span.text = '"' :: text.toList → spans.getLast? = some span

theorem Token.Written.after_eq_nil {mode : Mode} {text : String} {after : List Char}
    (h : (Token.stringLiteral text).Written mode ('"' :: text.toList) after) : after = [] := by
  generalize hText : '"' :: text.toList = written at h
  cases h with
  | string =>
    have hLength := congrArg List.length hText
    simp at hLength
  | openString => rfl

theorem Token.WordFor.written {t : Token} {word : List Char} (h : t.WordFor word) (mode : Mode)
    (after : List Char) : t.Written mode word after := by
  cases h with
  | number hDigits => exact .number hDigits
  | signedNumber hDigits => exact .signedNumber hDigits
  | @symbol word s hEntry =>
    have hSpelling : s.spelling = word := spelling_of_mem_wordTable (word, s) hEntry
    rw [← hSpelling]
    exact .symbol
  | identifier => exact .identifier

theorem Lexeme.Stands.written {mode : Mode} {afterValue : Bool} {t : Token} {text after : List Char}
    (h : (Lexeme.single t).Stands mode afterValue text after) : t.Written mode text after := by
  cases h with
  | @string text =>
    have hWritten := @Token.Written.string mode (String.ofList text) after
    rwa [String.toList_ofList] at hWritten
  | @openString text hMode =>
    have hWritten := @Token.Written.openString mode (String.ofList text) hMode
    rwa [String.toList_ofList] at hWritten
  | minus => cases afterValue <;> exact .symbol
  | mark hMark =>
    rw [← spelling_toList_of_mem_markTable hMark]
    exact .symbol
  | word hWord => exact hWord.written mode after

theorem drop_of_drop_eq_append {chars text after : List Char} {position : Nat}
    (h : chars.drop position = text ++ after) : chars.drop (position + text.length) = after := by
  rw [← List.drop_drop, h, List.drop_left]

theorem isSpace_of_drop {chars gap after : List Char} {position i : Nat} {c : Char}
    (hLine : chars.drop position = gap ++ after) (hGap : Text.isBlank gap = true) (hFrom : position ≤ i)
    (hTo : i < position + gap.length) (hChar : chars[i]? = some c) : Text.isSpace c = true := by
  obtain ⟨k, rfl⟩ := Nat.exists_eq_add_of_le hFrom
  rw [← List.getElem?_drop, hLine, List.getElem?_append_left (by omega)] at hChar
  exact List.all_eq_true.mp hGap c (List.mem_of_getElem? hChar)

namespace Tiling

theorem nil {chars gap : List Char} (mode : Mode) (position : Nat) (hLine : chars.drop position = gap)
    (hGap : Text.isBlank gap = true) : Tiling mode chars position [] where
  written _ hMem := nomatch hMem
  le_start _ hMem := nomatch hMem
  ordered := .nil
  uncovered i c hFrom hChar _ := by
    refine .inl (isSpace_of_drop (hLine.trans (List.append_nil gap).symm) hGap hFrom ?_ hChar)
    have hLength := congrArg List.length hLine
    have hInside := (List.getElem?_eq_some_iff.mp hChar).1
    rw [List.length_drop] at hLength
    omega
  separator _ hMem := nomatch hMem
  inside _ hMem := nomatch hMem
  comment _ hMem := nomatch hMem
  openString _ hMem := nomatch hMem

/-- A token that is neither REM nor a comment, before a tiling of what follows its text. -/
theorem cons {mode : Mode} {chars gap text after : List Char} {position : Nat} {afterValue : Bool} {t : Token}
    {spans : List Span} (hLine : chars.drop position = gap ++ (text ++ after)) (hGap : Text.isBlank gap = true)
    (hText : text ≠ []) (hWritten : t.Written mode text after) (hFits : t.Fits afterValue)
    (hLast : after = [] → spans = []) (h : Tiling mode chars (position + gap.length + text.length) spans) :
    Tiling mode chars position (⟨⟨position + gap.length, t⟩, text⟩ :: spans) := by
  have hDrop := drop_of_drop_eq_append hLine
  have hPositive := List.length_pos_iff.mpr hText
  have hInside : position + gap.length < chars.length := by
    have hLength := congrArg List.length hDrop
    rw [List.length_drop, List.length_append] at hLength
    omega
  generalize hSpan : (⟨⟨position + gap.length, t⟩, text⟩ : Span) = span
  have hToken : span.token.token = t := by rw [← hSpan]
  have hStart : span.start = position + gap.length := by rw [← hSpan, Span.start]
  have hStop : span.stop = span.start + text.length := by rw [← hSpan, Span.stop]
  have hRem : ¬ span.IsRem := fun hIsRem => hFits.ne_rem (hToken ▸ hIsRem)
  have hComment : ¬ span.IsComment := fun ⟨other, hIsComment⟩ => hFits.ne_comment other (hToken ▸ hIsComment)
  -- The span in front is no REM, so that it changes neither of the two clauses that look for one.
  have hRems (p : Span → Prop) :
      (∃ rem ∈ span :: spans, rem.IsRem ∧ p rem) ↔ ∃ rem ∈ spans, rem.IsRem ∧ p rem := by
    simp [hRem]
  have hNext : ∀ b ∈ spans, span.stop ≤ b.start := by
    rw [hStop, hStart]
    exact h.le_start
  refine ⟨?written, ?start, ?ordered, ?uncovered, ?separator, ?inside, ?comment, ?openString⟩
  case written =>
    refine List.forall_mem_cons.mpr ⟨⟨after, ?_, ?_⟩, h.written⟩
    · rw [hStart, hDrop, ← hSpan]
    · rwa [hToken, ← hSpan]
  case start =>
    refine List.forall_mem_cons.mpr ⟨by omega, fun b hMem => ?_⟩
    have hAfter := hNext b hMem
    omega
  case ordered =>
    refine List.pairwise_cons.mpr ⟨fun b hMem => ?_, h.ordered⟩
    have hAfter := hNext b hMem
    exact ⟨by omega, hAfter⟩
  case uncovered =>
    intro i c hFrom hChar hOutside
    obtain ⟨hHere, hThere⟩ := List.forall_mem_cons.mp hOutside
    rw [hRems]
    by_cases hBefore : i < span.start
    · exact .inl (isSpace_of_drop hLine hGap hFrom (by omega) hChar)
    · refine h.uncovered i c ?_ hChar hThere
      rw [Span.Covers] at hHere
      omega
  case separator =>
    exact List.forall_mem_cons.mpr ⟨fun hIsRem => absurd hIsRem hRem, h.separator⟩
  case inside =>
    exact List.forall_mem_cons.mpr ⟨fun _ => by omega, h.inside⟩
  case comment =>
    simp only [hRems]
    exact List.forall_mem_cons.mpr ⟨fun hIsComment => absurd hIsComment hComment, h.comment⟩
  case openString =>
    refine List.forall_mem_cons.mpr ⟨?_, ?_⟩
    · intro other hEq hOpen
      rw [hToken] at hEq
      rw [← hSpan] at hOpen
      dsimp only at hOpen
      rw [hEq, hOpen] at hWritten
      rw [hLast hWritten.after_eq_nil]
      rfl
    · intro b hMem other hEq hOpen
      rw [List.getLast?_cons, h.openString b hMem other hEq hOpen]
      rfl

/-- REM and its comment, which take all that is left. -/
theorem remark {chars gap tail : List Char} {position : Nat} (mode : Mode)
    (hLine : chars.drop position = gap ++ 'R' :: 'E' :: 'M' :: tail) (hGap : Text.isBlank gap = true)
    (hEnd : EndsWord tail) :
    Tiling mode chars position
      [Span.remAt (position + gap.length), Span.commentAt (position + gap.length + 4) tail.tail] := by
  have hDrop := drop_of_drop_eq_append hLine
  generalize hStart : position + gap.length = start at hDrop
  have hComment : chars.drop (start + 4) = tail.tail := by
    rw [← List.drop_drop, hDrop, ← List.drop_one]
    rfl
  have hSeparator : chars[start + 3]? = tail.head? := by
    rw [← List.getElem?_drop, hDrop, List.head?_eq_getElem?]
    rfl
  have hLength : start + 3 + tail.length = chars.length := by
    have hLengths := congrArg List.length hDrop
    simp only [List.length_drop, List.length_cons] at hLengths
    omega
  have hTail : tail.tail.length = tail.length - 1 := List.length_tail
  have hPair (p : Span → Prop) :
      (∀ span ∈ [Span.remAt start, .commentAt (start + 4) tail.tail], p span) ↔
        p (Span.remAt start) ∧ p (.commentAt (start + 4) tail.tail) := by
    simp
  refine ⟨?written, ?start, ?ordered, ?uncovered, ?separator, ?inside, ?comment, ?openString⟩
  case written =>
    have hText : chars.drop (start + 4) = tail.tail ++ [] := hComment.trans (List.append_nil _).symm
    exact (hPair _).mpr
      ⟨⟨tail, hDrop, Span.remAt_written mode start tail⟩, [], hText, Span.commentAt_written mode _ _⟩
  case start =>
    refine (hPair _).mpr ⟨?_, ?_⟩
    · rw [Span.remAt_start]
      omega
    · rw [Span.commentAt_start]
      omega
  case ordered =>
    refine List.pairwise_pair.mpr ?_
    simp
  case uncovered =>
    intro i c hFrom hChar hOutside
    obtain ⟨hRem, hRest⟩ := (hPair _).mp hOutside
    by_cases hBefore : i < start
    · exact .inl (isSpace_of_drop hLine hGap hFrom (by omega) hChar)
    · refine .inr ⟨_, List.mem_cons_self, Span.remAt_isRem start, ?_⟩
      have hInside := (List.getElem?_eq_some_iff.mp hChar).1
      simp only [Span.Covers, Span.remAt_start, Span.remAt_stop, Span.commentAt_start,
        Span.commentAt_stop] at hRem hRest ⊢
      omega
  case separator =>
    refine (hPair _).mpr ⟨fun _ c hChar => ?_, fun hIsRem => absurd hIsRem (Span.commentAt_isRem _ _)⟩
    rw [← isWordChar_eq_false_iff]
    exact hEnd c (hSeparator ▸ hChar)
  case inside =>
    refine (hPair _).mpr ⟨fun _ => ?_, fun hNot => absurd (Span.commentAt_isComment _ _) hNot⟩
    rw [Span.remAt_start]
    omega
  case comment =>
    refine (hPair _).mpr ⟨fun hIsComment => absurd hIsComment (Span.remAt_isComment _), fun _ => ?_⟩
    simp
    omega
  case openString =>
    exact (hPair _).mpr ⟨nofun, nofun⟩

end Tiling

/-- The tokens of a layout tile what it is a layout of. -/
theorem Layout.exists_tiling {mode : Mode} {afterValue last : Bool} {blocks : List Block}
    {chars gap : List Char} (h : Layout mode afterValue blocks gap last) (hGap : Text.isBlank gap = true)
    (position : Nat) (hLine : chars.drop position = Block.sources blocks ++ gap) :
    ∃ spans, spans.map Span.token = Block.tokensFrom position blocks ∧ Tiling mode chars position spans := by
  induction h generalizing position with
  | nil => exact ⟨[], rfl, .nil mode position hLine hGap⟩
  | @cons afterValue last b blocks gap hBlank hText hRest ih =>
    obtain ⟨before, text, lexeme⟩ := b
    rw [Block.sources_cons, Block.source, List.append_assoc, List.append_assoc] at hLine
    cases lexeme with
    | single t =>
      have hNext := drop_of_drop_eq_append (drop_of_drop_eq_append hLine)
      obtain ⟨spans, hTokens, hTiling⟩ := ih hGap _ hNext
      refine ⟨⟨⟨position + before.length, t⟩, text⟩ :: spans, ?_, ?_⟩
      · rw [List.map_cons, hTokens, Block.tokensFrom, Block.source, List.length_append, Nat.add_assoc]
        rfl
      · refine .cons hLine hBlank hText.ne_nil hText.written hText.fits ?_ hTiling
        intro hNil
        obtain ⟨rfl, -⟩ := hRest.eq_nil hNil
        exact List.map_eq_nil_iff.mp hTokens
    | remark remark =>
      -- A remark leaves nothing behind it for further blocks or whitespace.
      obtain ⟨tail, rfl, rfl, hEnd, hAfter⟩ := hText.exists_tail
      obtain ⟨rfl, rfl⟩ := hRest.eq_nil hAfter
      rw [Block.sources_nil, List.append_nil, List.append_nil] at hLine
      exact ⟨_, rfl, .remark mode hLine hBlank hEnd⟩

namespace Block

theorem le_offset_of_mem_tokensAt {b : Block} {position : Nat} {positioned : PositionedToken}
    (h : positioned ∈ b.tokensAt position) : position + b.gap.length ≤ positioned.offset := by
  obtain ⟨gap, text, lexeme⟩ := b
  cases lexeme with
  | single t =>
    cases List.mem_singleton.mp h
    exact Nat.le_refl _
  | remark remark =>
    rcases List.mem_cons.mp h with rfl | h
    · exact Nat.le_refl _
    · cases List.mem_singleton.mp h
      exact Nat.le_add_right _ 4

theorem le_offset {blocks : List Block} {position : Nat} {positioned : PositionedToken}
    (h : positioned ∈ tokensFrom position blocks) : position ≤ positioned.offset := by
  induction blocks generalizing position with
  | nil => cases h
  | cons b blocks ih =>
    rcases List.mem_append.mp h with hHere | hThere
    · exact Nat.le_of_add_right_le (le_offset_of_mem_tokensAt hHere)
    · exact Nat.le_of_add_right_le (ih hThere)

end Block

/-- A layout that begins with whitespace has no token where it begins. -/
theorem Layout.lt_offset {mode : Mode} {afterValue last : Bool} {blocks : List Block} {gap : List Char}
    (h : Layout mode afterValue blocks gap last) (hStart : StartsBlank (Block.sources blocks ++ gap))
    {position : Nat} {positioned : PositionedToken} (hMem : positioned ∈ Block.tokensFrom position blocks) :
    position < positioned.offset := by
  cases h with
  | nil => cases hMem
  | @cons _ _ b blocks _ _ hText _ =>
    obtain ⟨first, rest, hFirst⟩ := List.exists_cons_of_ne_nil hText.ne_nil
    have hGap : b.gap ≠ [] := by
      intro hNil
      rw [Block.sources_cons, Block.source, hNil, hFirst] at hStart
      rw [hFirst] at hText
      cases hText.isSpace_head.symm.trans (hStart first rfl)
    have hPositive := List.length_pos_iff.mpr hGap
    rcases List.mem_append.mp hMem with hHere | hThere
    · have hOffset := Block.le_offset_of_mem_tokensAt hHere
      omega
    · have hOffset := Block.le_offset hThere
      rw [Block.source, List.length_append] at hOffset
      omega

/-- The tokens of a record tile its line behind the label, which is the leading run without whitespace. -/
theorem exists_tiling_of_tokenize {mode : Mode} {line : String} {record : LineRecord}
    (h : tokenize mode line = .ok (.accepted record)) :
    ∃ spans, spans.map Span.token = record.tokens ∧
      Tiling mode line.toList (line.toList.takeWhile isLabelChar).length spans ∧
      ∀ positioned ∈ record.tokens, (line.toList.takeWhile isLabelChar).length + 1 ≤ positioned.offset := by
  obtain ⟨layout⟩ := tokenize_eq_accepted_iff.mp h
  have hLine : line.toList.drop layout.digits.length = Block.sources layout.blocks ++ layout.gap := by
    have hDrop := @List.drop_left _ layout.digits (Block.sources layout.blocks ++ layout.gap)
    rwa [← layout.line_eq] at hDrop
  obtain ⟨spans, hTokens, hTiling⟩ := layout.layout.exists_tiling layout.blank _ hLine
  rw [layout.takeWhile_eq, layout.tokens_eq]
  exact ⟨spans, hTokens, hTiling, fun _ hMem => layout.layout.lt_offset layout.boundary hMem⟩

theorem exists_tiling_of_tokenize_bare :
    let line := "7 +05)\"a b\" REM"
    let record : LineRecord := ⟨⟨7, by decide⟩, [⟨2, .number 5⟩, ⟨5, .symbol .rightParen⟩,
      ⟨6, .stringLiteral "a b"⟩, ⟨12, .symbol .kwRem⟩, ⟨16, .comment ""⟩]⟩
    tokenize .lenient line = .ok (.accepted record) ∧
      ∃ spans, spans.map Span.token = record.tokens ∧
        Tiling .lenient line.toList (line.toList.takeWhile isLabelChar).length spans ∧
        ∀ positioned ∈ record.tokens, (line.toList.takeWhile isLabelChar).length + 1 ≤ positioned.offset := by
  intro line record
  have h : tokenize .lenient line = .ok (.accepted record) := by cbv
  exact ⟨h, exists_tiling_of_tokenize h⟩

end LineBasic
