import LineBasic.Proofs.Lexeme
import LineBasic.Tokenize

/-! # Layouts: a line taken apart into its label, its lexemes and the whitespace before each

A layout is checked with the rest of the line present, so that no word and no remark can be cut.
Scanning a text that begins with a layout yields the tokens of the layout and goes on behind it, and
every line that is accepted has a layout.
-/
namespace LineBasic
set_option autoImplicit false

/-- A lexeme with its text and the whitespace before it. -/
structure Block where
  gap : List Char
  text : List Char
  lexeme : Lexeme

namespace Block

def source (b : Block) : List Char := b.gap ++ b.text

def sources (blocks : List Block) : List Char := blocks.flatMap source

def tokensAt (position : Nat) (b : Block) : List PositionedToken :=
  b.lexeme.tokensAt (position + b.gap.length)

def tokensFrom (position : Nat) : List Block → List PositionedToken
  | [] => []
  | b :: blocks => b.tokensAt position ++ tokensFrom (position + b.source.length) blocks

theorem sources_nil : sources [] = [] := rfl

theorem sources_cons (b : Block) (blocks : List Block) : sources (b :: blocks) = b.source ++ sources blocks :=
  List.flatMap_cons

end Block

/-- The blocks stand one after the other before the text `after`; `afterValue` and `last` tell whether
the token before the first block and the last token are values. -/
inductive Layout (mode : Mode) : Bool → List Block → List Char → Bool → Prop
  | nil {afterValue : Bool} {after : List Char} : Layout mode afterValue [] after afterValue
  | cons {afterValue last : Bool} {b : Block} {blocks : List Block} {after : List Char}
      (hGap : Text.isBlank b.gap = true)
      (hText : b.lexeme.Stands mode afterValue b.text (Block.sources blocks ++ after))
      (hRest : Layout mode b.lexeme.isValue blocks after last) :
      Layout mode afterValue (b :: blocks) after last

theorem Lexeme.Stands.isSpace_head {mode : Mode} {afterValue : Bool} {lexeme : Lexeme} {first : Char}
    {tail after : List Char} (h : lexeme.Stands mode afterValue (first :: tail) after) :
    Text.isSpace first = false := by
  have hMarks : ∀ entry ∈ markTable, Text.isSpace entry.1 = false := by decide
  cases h with
  | mark hMark => exact hMarks _ hMark
  | word hWord => exact hWord.isSpace first List.mem_cons_self
  | string | openString | minus | bareRemark | remark => rfl

theorem Cursor.skipSpace_append {gap : List Char} (after : List Char) (position : Nat)
    (hGap : Text.isBlank gap = true) (hAfter : ∀ c ∈ after.head?, Text.isSpace c = false) :
    (Cursor.mk position (gap ++ after)).skipSpace = ⟨position + gap.length, after⟩ :=
  (Cursor.run_skip_append after position (List.all_eq_true.mp hGap) hAfter).2

theorem scanTokens_of_end {mode : Mode} {afterValue : Bool} {c : Cursor} (h : c.skipSpace.advance? = none) :
    scanTokens mode afterValue c = .ok [] := by
  rw [scanTokens]
  split
  · rfl
  · rename_i hFirst
    cases h.symm.trans hFirst

theorem scanTokens_of_read {mode : Mode} {afterValue : Bool} {c body rest : Cursor} {first : Char}
    {lexeme : Lexeme} (hFirst : c.skipSpace.advance? = some (first, body))
    (hRead : Lexeme.read mode afterValue first body = .ok (lexeme, rest)) :
    scanTokens mode afterValue c =
      (scanTokens mode lexeme.isValue rest).map (lexeme.tokensAt c.skipSpace.position ++ ·) := by
  rw [scanTokens]
  split
  · rename_i hNone
    cases hNone.symm.trans hFirst
  · rename_i hSome
    cases hSome.symm.trans hFirst
    split
    · rename_i hError
      cases hError.symm.trans hRead
    · rename_i hOk
      cases hOk.symm.trans hRead
      cases scanTokens mode lexeme.isValue rest <;> rfl

theorem scanTokens_blank (mode : Mode) (afterValue : Bool) {gap : List Char} (position : Nat)
    (hGap : Text.isBlank gap = true) : scanTokens mode afterValue ⟨position, gap⟩ = .ok [] := by
  have hSkip := Cursor.skipSpace_append [] position hGap (by simp)
  rw [List.append_nil] at hSkip
  apply scanTokens_of_end
  rw [hSkip]
  rfl

theorem scanTokens_append {mode : Mode} {afterValue : Bool} {lexeme : Lexeme} {gap text after : List Char}
    (position : Nat) (hGap : Text.isBlank gap = true) (hText : lexeme.Stands mode afterValue text after) :
    scanTokens mode afterValue ⟨position, gap ++ text ++ after⟩ =
      (scanTokens mode lexeme.isValue ⟨position + (gap ++ text).length, after⟩).map
        (lexeme.tokensAt (position + gap.length) ++ ·) := by
  obtain ⟨first, tail, rfl⟩ := List.exists_cons_of_ne_nil hText.ne_nil
  have hHead : ∀ c ∈ (first :: tail ++ after).head?, Text.isSpace c = false := by
    intro c hc
    cases hc
    exact hText.isSpace_head
  have hSkip := Cursor.skipSpace_append (first :: tail ++ after) position hGap hHead
  have hRead := hText.read (position + gap.length + 1)
  have hPosition : position + (gap ++ first :: tail).length = position + gap.length + 1 + tail.length := by
    rw [List.length_append, List.length_cons]
    omega
  rw [List.append_assoc, scanTokens_of_read (by rw [hSkip]; rfl) hRead, hSkip, hPosition]

/-- A lexeme that stands alone is all that is scanned. -/
theorem Lexeme.Stands.scanTokens {mode : Mode} {afterValue : Bool} {lexeme : Lexeme} {text : List Char}
    (h : lexeme.Stands mode afterValue text []) (position : Nat) :
    scanTokens mode afterValue ⟨position, text⟩ = .ok (lexeme.tokensAt position) := by
  have hScan := @scanTokens_append mode afterValue lexeme [] text [] position rfl h
  rw [List.nil_append, List.append_nil, @scanTokens_blank mode _ [] _ rfl] at hScan
  exact hScan.trans (congrArg Except.ok (List.append_nil _))

/-- Scanning passes over a layout and yields its tokens. -/
theorem Layout.scanTokens {mode : Mode} {afterValue last : Bool} {blocks : List Block} {after : List Char}
    (h : Layout mode afterValue blocks after last) (position : Nat) :
    scanTokens mode afterValue ⟨position, Block.sources blocks ++ after⟩ =
      (scanTokens mode last ⟨position + (Block.sources blocks).length, after⟩).map
        (Block.tokensFrom position blocks ++ ·) := by
  induction h generalizing position with
  | nil =>
    rw [Block.sources_nil, List.nil_append]
    cases LineBasic.scanTokens mode _ _ <;> rfl
  | @cons afterValue last b blocks after hGap hText hRest ih =>
    have hLength : position + (b.source ++ Block.sources blocks).length =
        position + b.source.length + (Block.sources blocks).length := by
      rw [List.length_append, Nat.add_assoc]
    have hStep := scanTokens_append position hGap hText
    rw [← Block.source, ih] at hStep
    rw [Block.sources_cons, List.append_assoc, hStep, hLength]
    cases LineBasic.scanTokens mode last _ with
    | error fault => rfl
    | ok tokens =>
      simp only [Except.map, Block.tokensFrom, Block.tokensAt, List.append_assoc]

theorem Layout.scanTokens_eq_ok {mode : Mode} {afterValue last : Bool} {blocks : List Block} {gap : List Char}
    (h : Layout mode afterValue blocks gap last) (hGap : Text.isBlank gap = true) (position : Nat) :
    LineBasic.scanTokens mode afterValue ⟨position, Block.sources blocks ++ gap⟩ =
      .ok (Block.tokensFrom position blocks) := by
  rw [h.scanTokens, scanTokens_blank mode last _ hGap]
  exact congrArg Except.ok (List.append_nil _)

/-- Whatever is scanned without a fault has a layout. -/
theorem exists_layout_of_scanTokens {mode : Mode} {afterValue : Bool} {c : Cursor}
    {tokens : List PositionedToken} (h : scanTokens mode afterValue c = .ok tokens) :
    ∃ blocks gap last, Layout mode afterValue blocks gap last ∧ Text.isBlank gap = true ∧
      c.ahead = Block.sources blocks ++ gap ∧ tokens = Block.tokensFrom c.position blocks := by
  fun_induction scanTokens mode afterValue c generalizing tokens with
  | case1 afterValue c hEnd =>
    cases h
    obtain ⟨gap, after, hAhead, -, hSkip, hBlank, -⟩ := c.exists_run_skip Text.isSpace
    rw [Cursor.skipSpace, hSkip] at hEnd
    cases after with
    | nil =>
      rw [List.append_nil] at hAhead
      exact ⟨[], gap, afterValue, .nil, List.all_eq_true.mpr hBlank, hAhead, rfl⟩
    | cons first rest => cases hEnd
  | case2 => cases h
  | case3 => cases h
  | case4 afterValue c first body hFirst lexeme rest hRead tokens _ ih =>
    cases h
    obtain ⟨gap, after, hAhead, -, hSkip, hBlank, -⟩ := c.exists_run_skip Text.isSpace
    obtain ⟨blocks, final, last, hLayout, hFinal, hRest, rfl⟩ := ih ‹_›
    obtain ⟨tail, hBody, hPosition, hStands⟩ := Lexeme.stands_of_read hRead
    rw [Cursor.skipSpace, hSkip] at hFirst ⊢
    cases after with
    | nil => cases hFirst
    | cons x after =>
      cases hFirst
      refine ⟨⟨gap, first :: tail, lexeme⟩ :: blocks, final, last, .cons ?_ ?_ hLayout, hFinal, ?_, ?_⟩
      · exact List.all_eq_true.mpr hBlank
      · rwa [← hRest]
      · dsimp only at hBody
        rw [hAhead, hBody, hRest, Block.sources_cons, Block.source]
        simp
      · have hStop : rest.position = c.position + (gap ++ first :: tail).length := by
          rw [hPosition, List.length_append, List.length_cons]
          dsimp only
          omega
        rw [hStop]
        rfl

end LineBasic
