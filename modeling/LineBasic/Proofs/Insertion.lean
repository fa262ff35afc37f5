import LineBasic.Proofs.Concatenation
import LineBasic.Proofs.Tiling

/-! # More whitespace before a token

Whitespace may be put in before any token, and before a fault. It becomes part of the gap that is there,
or is a gap where there was none; a word before it ends where it ended. What comes later is read as it
was, further on.
-/
namespace LineBasic
set_option autoImplicit false

def insertAt (line : String) (offset : Nat) (space : String) : String :=
  String.ofList (line.toList.take offset ++ (space.toList ++ line.toList.drop offset))

/-- The tokens from an offset on stand `k` characters further on. -/
def PositionedToken.shiftFrom (offset k : Nat) (positioned : PositionedToken) : PositionedToken :=
  if positioned.offset < offset then positioned else positioned.shift k

theorem map_shiftFrom_of_lt {tokens : List PositionedToken} {offset : Nat} (k : Nat)
    (h : ∀ positioned ∈ tokens, positioned.offset < offset) :
    tokens.map (PositionedToken.shiftFrom offset k) = tokens :=
  (List.map_congr_left fun positioned hMem => if_pos (h positioned hMem)).trans (List.map_id' tokens)

theorem map_shiftFrom_of_le {tokens : List PositionedToken} {offset : Nat} (k : Nat)
    (h : ∀ positioned ∈ tokens, offset ≤ positioned.offset) :
    tokens.map (PositionedToken.shiftFrom offset k) = tokens.map (PositionedToken.shift k) :=
  List.map_congr_left fun positioned hMem => if_neg (Nat.not_lt.mpr (h positioned hMem))

theorem toList_insertAt {line : String} {before after : List Char} (hLine : line.toList = before ++ after)
    (space : String) : (insertAt line before.length space).toList = before ++ (space.toList ++ after) := by
  rw [insertAt, String.toList_ofList, hLine, List.take_left, List.drop_left]

section

variable {before after space : List Char}

theorem forall_head_insert {p : Char → Prop} (h : ∀ c ∈ (before ++ after).head?, p c) (hSpace : ∀ c ∈ space, p c) :
    ∀ c ∈ (before ++ (space ++ after)).head?, p c := by
  have hHead : ∀ c ∈ space.head?, p c := fun c hc => hSpace c (List.mem_of_mem_head? hc)
  cases before with
  | nil =>
    have hNext := forall_head_append hHead h
    exact hNext
  | cons first before => exact h

theorem StartsBlank.insert (h : StartsBlank (before ++ after)) (hSpace : Text.isBlank space = true) :
    StartsBlank (before ++ (space ++ after)) :=
  forall_head_insert h (List.all_eq_true.mp hSpace)

theorem EndsWord.insert (h : EndsWord (before ++ after)) (hSpace : Text.isBlank space = true) :
    EndsWord (before ++ (space ++ after)) := by
  apply forall_head_insert h
  intro c hc
  exact (isWordChar_eq_false_iff c).mpr (.inl (List.all_eq_true.mp hSpace c hc))

theorem isBlank_append (hBefore : Text.isBlank before = true) (hSpace : Text.isBlank space = true) :
    Text.isBlank (before ++ space) = true := by
  rw [Text.isBlank, List.all_append]
  exact Bool.and_eq_true_iff.mpr ⟨hBefore, hSpace⟩

end

namespace Block

def widen (space : List Char) (b : Block) : Block := { b with gap := b.gap ++ space }

theorem sources_widen (space : List Char) (front : List Block) (b : Block) (back : List Block) :
    sources (front ++ b.widen space :: back) =
      (sources front ++ b.gap) ++ (space ++ (b.text ++ sources back)) := by
  rw [sources_append, sources_cons, source, widen]
  simp only [List.append_assoc]

theorem shift_tokensFrom (k position : Nat) (blocks : List Block) :
    (tokensFrom position blocks).map (PositionedToken.shift k) = tokensFrom (position + k) blocks := by
  induction blocks generalizing position with
  | nil => rfl
  | cons b blocks ih =>
    rw [tokensFrom, List.map_append, ih, tokensAt, Lexeme.shift_tokensAt, tokensFrom, tokensAt, Nat.add_right_comm,
      Nat.add_right_comm position b.source.length]

theorem tokensFrom_widen (position : Nat) (space : List Char) (b : Block) (blocks : List Block) :
    tokensFrom position (b.widen space :: blocks) =
      (tokensFrom position (b :: blocks)).map (PositionedToken.shift space.length) := by
  have hGap : position + (b.widen space).gap.length = position + space.length + b.gap.length := by
    rw [widen, List.length_append]
    omega
  have hSource : position + (b.widen space).source.length = position + space.length + b.source.length := by
    rw [source, List.length_append, source, List.length_append, widen, List.length_append]
    dsimp only
    omega
  rw [shift_tokensFrom, tokensFrom, tokensFrom, tokensAt, tokensAt, hGap, hSource]
  rfl

theorem add_gap_le_offset {position : Nat} {b : Block} {blocks : List Block} {positioned : PositionedToken}
    (h : positioned ∈ tokensFrom position (b :: blocks)) : position + b.gap.length ≤ positioned.offset := by
  rcases List.mem_append.mp h with hHere | hThere
  · exact le_offset_of_mem_tokensAt hHere
  · have hOffset := le_offset hThere
    rw [source, List.length_append] at hOffset
    omega

/-- A token that is no comment is the first of some block, and stands behind the gap of it. -/
theorem exists_split_of_mem {position : Nat} {blocks : List Block} {positioned : PositionedToken}
    (hMem : positioned ∈ tokensFrom position blocks) (hComment : ∀ text, positioned.token ≠ .comment text) :
    ∃ front b back, blocks = front ++ b :: back ∧
      positioned.offset = position + (sources front).length + b.gap.length := by
  induction blocks generalizing position with
  | nil => cases hMem
  | cons b blocks ih =>
    rcases List.mem_append.mp hMem with hHere | hThere
    · refine ⟨[], b, blocks, rfl, ?_⟩
      obtain ⟨gap, text, lexeme⟩ := b
      cases lexeme with
      | single t =>
        cases List.mem_singleton.mp hHere
        rfl
      | remark remark =>
        rcases List.mem_cons.mp hHere with rfl | hThere
        · rfl
        · cases List.mem_singleton.mp hThere
          exact False.elim (hComment remark rfl)
    · obtain ⟨front, other, back, rfl, hOffset⟩ := ih hThere
      refine ⟨b :: front, other, back, rfl, ?_⟩
      rw [hOffset, sources_cons, List.length_append]
      omega

end Block

namespace Layout

variable {mode : Mode} {afterValue last : Bool} {blocks : List Block} {gap after space : List Char}

theorem insert (h : Layout mode afterValue blocks (gap ++ after) last) (hAfter : gap ++ after ≠ [])
    (hSpace : Text.isBlank space = true) : Layout mode afterValue blocks (gap ++ (space ++ after)) last :=
  h.transfer (h.isSingle_of_ne_nil hAfter) (.inr hAfter) fun hEnd => hEnd.insert hSpace

theorem widen {front back : List Block} {b : Block} (h : Layout mode afterValue (front ++ b :: back) after last)
    (hSpace : Text.isBlank space = true) : Layout mode afterValue (front ++ b.widen space :: back) after last := by
  obtain ⟨middle, hFront, hMore⟩ := h.exists_split
  cases hMore with
  | cons hGap hText hBack =>
    have hFollowing (b : Block) : Block.sources (b :: back) ++ after = b.gap ++ (b.text ++ (Block.sources back ++ after)) := by
      rw [Block.sources_cons, Block.source, List.append_assoc, List.append_assoc]
    -- The blocks in front may end in a word, which must still end where the gap of `b` was empty.
    refine append ?_ (.cons (isBlank_append hGap hSpace) hText hBack)
    have hSome : b.gap ++ (b.text ++ (Block.sources back ++ after)) ≠ [] := by
      apply List.append_ne_nil_of_right_ne_nil
      exact List.append_ne_nil_of_left_ne_nil hText.ne_nil _
    rw [hFollowing] at hFront ⊢
    have hInserted := hFront.insert hSome hSpace
    rwa [← List.append_assoc] at hInserted

theorem offset_lt (h : Layout mode afterValue blocks after last) (hSingle : ∀ b ∈ blocks, b.IsSingle) {position : Nat}
    {positioned : PositionedToken} (hMem : positioned ∈ Block.tokensFrom position blocks) :
    positioned.offset < position + (Block.sources blocks).length := by
  induction h generalizing position with
  | nil => cases hMem
  | @cons _ _ b blocks after _ hText hRest ih =>
    obtain ⟨⟨t, hToken⟩, hOthers⟩ := List.forall_mem_cons.mp hSingle
    have hPositive := List.length_pos_iff.mpr hText.ne_nil
    rw [Block.sources_cons, Block.source, List.length_append, List.length_append]
    rcases List.mem_append.mp hMem with hHere | hThere
    · rw [Block.tokensAt, hToken] at hHere
      cases List.mem_singleton.mp hHere
      dsimp only
      omega
    · have hOffset := ih hOthers hThere
      rw [Block.source, List.length_append] at hOffset
      omega

/-- Widening a block moves its tokens and all later ones, and none of the earlier ones. -/
theorem tokensFrom_widen {front back : List Block} {b : Block}
    (h : Layout mode afterValue (front ++ b :: back) after last) (position : Nat) (space : List Char) :
    Block.tokensFrom position (front ++ b.widen space :: back) =
      (Block.tokensFrom position (front ++ b :: back)).map
        (PositionedToken.shiftFrom (position + (Block.sources front).length + b.gap.length) space.length) := by
  obtain ⟨middle, hFront, hMore⟩ := h.exists_split
  have hSome : Block.sources (b :: back) ++ after ≠ [] := by
    intro hNil
    cases (hMore.eq_nil hNil).1
  have hBefore : ∀ positioned ∈ Block.tokensFrom position front,
      positioned.offset < position + (Block.sources front).length + b.gap.length := by
    intro positioned hMem
    have hOffset := hFront.offset_lt (hFront.isSingle_of_ne_nil hSome) hMem
    omega
  have hAfter : ∀ positioned ∈ Block.tokensFrom (position + (Block.sources front).length) (b :: back),
      position + (Block.sources front).length + b.gap.length ≤ positioned.offset :=
    fun positioned hMem => Block.add_gap_le_offset hMem
  rw [Block.tokensFrom_append, Block.tokensFrom_append, List.map_append, Block.tokensFrom_widen,
    map_shiftFrom_of_lt space.length hBefore, map_shiftFrom_of_le space.length hAfter]

end Layout

theorem LineLayout.tokenize_widen {mode : Mode} {line : String} {record : LineRecord}
    (layout : LineLayout mode line.toList record) {front back : List Block} {b : Block}
    (hBlocks : layout.blocks = front ++ b :: back) {space : String} (hSpace : Text.isBlank space.toList = true)
    {offset : Nat} (hOffset : offset = layout.digits.length + (Block.sources front).length + b.gap.length) :
    tokenize mode (insertAt line offset space) =
      .ok (.accepted ⟨record.label, record.tokens.map (PositionedToken.shiftFrom offset space.length)⟩) := by
  obtain ⟨digits, blocks, gap, last, hLine, hLabel, hBoundary, hLayout, hBlank, hTokens⟩ := layout
  subst hBlocks
  have hAround : Block.sources (front ++ b :: back) ++ gap =
      (Block.sources front ++ b.gap) ++ (b.text ++ Block.sources back ++ gap) := by
    rw [Block.sources_append, Block.sources_cons, Block.source]
    simp only [List.append_assoc]
  have hWide : Block.sources (front ++ b.widen space.toList :: back) ++ gap =
      (Block.sources front ++ b.gap) ++ (space.toList ++ (b.text ++ Block.sources back ++ gap)) := by
    rw [Block.sources_widen]
    simp only [List.append_assoc]
  have hInserted : (insertAt line offset space).toList =
      digits ++ (Block.sources (front ++ b.widen space.toList :: back) ++ gap) := by
    rw [hAround, ← List.append_assoc] at hLine
    have hLength : offset = (digits ++ (Block.sources front ++ b.gap)).length := by
      rw [hOffset, List.length_append, List.length_append, Nat.add_assoc]
    rw [hWide, hLength, toList_insertAt hLine, List.append_assoc]
  rw [hAround] at hBoundary
  refine tokenize_eq_accepted_iff.mpr ⟨⟨digits, _, gap, last, hInserted, hLabel, ?_, hLayout.widen hSpace, hBlank, ?_⟩⟩
  · rw [hWide]
    exact hBoundary.insert hSpace
  · rw [hLayout.tokensFrom_widen, ← hTokens, hOffset, String.length_toList]

/-- A fault moves with the whitespace put in before it. -/
theorem Refusal.tokenize_insertAt {mode : Mode} {line : String} {fault : Fault}
    (refusal : Refusal mode line.toList fault) {space : String} (hSpace : Text.isBlank space.toList = true) :
    ∃ shifted, tokenize mode (insertAt line refusal.before.length space) = .ok (.rejected shifted) ∧
      fault.diagnostic.Shifted space.length shifted := by
  have hWide : (insertAt line refusal.before.length space).toList = refusal.digits ++
      (Block.sources refusal.blocks ++ ((refusal.gap ++ space.toList) ++ refusal.text)) := by
    rw [toList_insertAt refusal.line_eq_before, before]
    simp only [List.append_assoc]
  have hBoundary := refusal.boundary
  rw [← List.append_assoc] at hBoundary
  have hLayout := refusal.layout.insert refusal.gap_append_text_ne_nil hSpace
  rw [← List.append_assoc] at hLayout
  have hOffset : refusal.digits.length + (Block.sources refusal.blocks).length +
      (refusal.gap ++ space.toList).length = refusal.before.length + space.length := by
    rw [before, List.length_append, List.length_append, List.length_append, String.length_toList]
    omega
  refine ⟨_, tokenize_eq_rejected_iff.mpr ⟨_, rfl, .inr ⟨⟨refusal.number, refusal.rejection, refusal.digits,
    refusal.blocks, refusal.gap ++ space.toList, refusal.text, refusal.last, hWide, refusal.label, ?_, hLayout,
    isBlank_append refusal.blank hSpace, refusal.stands, congrArg refusal.rejection.faultAt hOffset.symm⟩⟩⟩, ?_⟩
  · have hInserted := hBoundary.insert hSpace
    simpa only [List.append_assoc] using hInserted
  · have hShifted := refusal.rejection.shifted_faultAt space.length refusal.before.length
    rwa [← refusal.fault_eq_before] at hShifted

/-- Whitespace put in before a token or before a fault moves what comes from there on, and changes nothing else. -/
theorem tokenize_insert_space (mode : Mode) (line space : String) (hSpace : Text.isBlank space.toList = true) :
    (∀ record, tokenize mode line = .ok (.accepted record) → ∀ positioned ∈ record.tokens,
      (∀ text, positioned.token ≠ .comment text) →
        tokenize mode (insertAt line positioned.offset space) = .ok (.accepted
          ⟨record.label, record.tokens.map (PositionedToken.shiftFrom positioned.offset space.length)⟩)) ∧
      ∀ diagnostic, tokenize mode line = .ok (.rejected diagnostic) →
        diagnostic.code = .unrecognizedToken ∨ diagnostic.code = .unterminatedString →
        ∃ offset : Nat, diagnostic.offset = .whole offset ∧
          ∃ shifted, tokenize mode (insertAt line offset space) = .ok (.rejected shifted) ∧
            diagnostic.Shifted space.length shifted := by
  constructor
  · intro record h positioned hMem hComment
    obtain ⟨layout⟩ := tokenize_eq_accepted_iff.mp h
    rw [layout.tokens_eq] at hMem
    obtain ⟨front, b, back, hBlocks, hOffset⟩ := Block.exists_split_of_mem hMem hComment
    exact layout.tokenize_widen hBlocks hSpace hOffset
  · intro diagnostic h hCode
    obtain ⟨fault, rfl, hFault⟩ := tokenize_eq_rejected_iff.mp h
    obtain ⟨refusal⟩ := nonempty_refusal_of_code hFault hCode
    refine ⟨refusal.before.length, ?_, refusal.tokenize_insertAt hSpace⟩
    rw [← refusal.offset_eq]
    rfl

/-- A sign right behind a string, and a word of no token right behind a parenthesis. -/
theorem tokenize_insert_space_glued :
    let line := "10 (A)-\"x\"-1) REM y"
    let record : LineRecord := ⟨⟨10, by decide⟩, [⟨3, .symbol .leftParen⟩, ⟨4, .identifier "A"⟩,
      ⟨5, .symbol .rightParen⟩, ⟨6, .symbol .unaryMinus⟩, ⟨7, .stringLiteral "x"⟩, ⟨10, .symbol .minus⟩, ⟨11, .number 1⟩,
      ⟨12, .symbol .rightParen⟩, ⟨14, .symbol .kwRem⟩, ⟨18, .comment "y"⟩]⟩
    let refused := "20 (12X) \"z"
    let diagnostic := (Fault.unrecognizedToken 4 "12X").diagnostic
    let space := " \t"
    Text.isBlank space.toList = true ∧
      (tokenize .strict line = .ok (.accepted record) ∧ ⟨10, .symbol .minus⟩ ∈ record.tokens ∧
        tokenize .strict (insertAt line 10 space) =
          .ok (.accepted ⟨record.label, record.tokens.map (PositionedToken.shiftFrom 10 space.length)⟩)) ∧
      (tokenize .strict refused = .ok (.rejected diagnostic) ∧ diagnostic.code = .unrecognizedToken ∧
        ∃ offset : Nat, diagnostic.offset = .whole offset ∧
          ∃ shifted, tokenize .strict (insertAt refused offset space) = .ok (.rejected shifted) ∧
            diagnostic.Shifted space.length shifted) := by
  intro line record refused diagnostic space
  have hSpace : Text.isBlank space.toList = true := by decide
  have hLine : tokenize .strict line = .ok (.accepted record) := by cbv
  have hMem : ⟨10, .symbol .minus⟩ ∈ record.tokens := by decide
  have hRefused : tokenize .strict refused = .ok (.rejected diagnostic) :=
    tokenize_eq_rejected_iff_readLine.mpr ⟨_, rfl, by cbv⟩
  have hComment : ∀ text, Token.symbol .minus ≠ .comment text := by simp
  have hMoved := (tokenize_insert_space .strict line space hSpace).1 record hLine _ hMem hComment
  have hShifted := (tokenize_insert_space .strict refused space hSpace).2 diagnostic hRefused (.inl rfl)
  exact ⟨hSpace, ⟨hLine, hMem, hMoved⟩, hRefused, rfl, hShifted⟩

end LineBasic
