import LineBasic.Proofs.Line

/-! # Layouts of the same blocks in another mode or before another text

A block looks at what follows it only to see that its word ends there, or that nothing follows a string
without a closing quote. So the blocks of a line stand as well where it is cut or continued, as long as
no word runs on.
-/
namespace LineBasic
set_option autoImplicit false

section

variable {p : Char → Prop} {before after : List Char}

theorem forall_head_of_append (h : ∀ c ∈ (before ++ after).head?, p c) : ∀ c ∈ before.head?, p c := by
  cases before with
  | nil => exact nofun
  | cons first before => exact h

theorem forall_head_append_of_ne_nil (h : ∀ c ∈ before.head?, p c) (hBefore : before ≠ []) (after : List Char) :
    ∀ c ∈ (before ++ after).head?, p c := by
  cases before with
  | nil => exact False.elim (hBefore rfl)
  | cons first before => exact h

theorem forall_head_append (h : ∀ c ∈ before.head?, p c) (hAfter : ∀ c ∈ after.head?, p c) :
    ∀ c ∈ (before ++ after).head?, p c := by
  cases before with
  | nil => exact hAfter
  | cons first before => exact h

end

section

variable {before after : List Char}

theorem EndsWord.of_append (h : EndsWord (before ++ after)) : EndsWord before := forall_head_of_append h

theorem EndsWord.append (h : EndsWord before) (hAfter : EndsWord after) : EndsWord (before ++ after) :=
  forall_head_append h hAfter

theorem EndsWord.append_of_ne_nil (h : EndsWord before) (hBefore : before ≠ []) (after : List Char) :
    EndsWord (before ++ after) := forall_head_append_of_ne_nil h hBefore after

theorem StartsBlank.of_append (h : StartsBlank (before ++ after)) : StartsBlank before := forall_head_of_append h

theorem StartsBlank.append (h : StartsBlank before) (hAfter : StartsBlank after) : StartsBlank (before ++ after) :=
  forall_head_append h hAfter

theorem StartsBlank.append_of_ne_nil (h : StartsBlank before) (hBefore : before ≠ []) (after : List Char) :
    StartsBlank (before ++ after) := forall_head_append_of_ne_nil h hBefore after

end

theorem StartsBlank.endsWord {rest : List Char} (h : StartsBlank rest) : EndsWord rest := by
  intro c hc
  exact (isWordChar_eq_false_iff c).mpr (.inl (h c hc))

/-- Every lexeme but a remark and an open string stands wherever its word ends. -/
theorem Lexeme.Stands.transfer {mode other : Mode} {afterValue : Bool} {t : Token} {text after following : List Char}
    (h : (Lexeme.single t).Stands mode afterValue text after) (hClosed : mode = .strict ∨ after ≠ [])
    (hEnd : EndsWord after → EndsWord following) : (Lexeme.single t).Stands other afterValue text following := by
  cases h with
  | string hText => exact .string hText
  | openString hMode =>
    subst hMode
    rcases hClosed with hStrict | hAfter
    · cases hStrict
    · exact False.elim (hAfter rfl)
  | minus => exact .minus
  | mark hMark => exact .mark hMark
  | word hWord hToken hStop => exact .word hWord hToken (hEnd hStop)

/-- What is read in strict mode is read in the same way in lenient mode. -/
theorem Lexeme.Stands.of_strict {mode : Mode} {afterValue : Bool} {lexeme : Lexeme} {text after : List Char}
    (h : lexeme.Stands .strict afterValue text after) : lexeme.Stands mode afterValue text after := by
  cases h with
  | string hText => exact .string hText
  | openString hMode => cases hMode
  | minus => exact .minus
  | mark hMark => exact .mark hMark
  | word hWord hToken hEnd => exact .word hWord hToken hEnd
  | bareRemark => exact .bareRemark
  | remark hSeparator => exact .remark hSeparator

theorem Lexeme.Stands.ne_rem {mode : Mode} {afterValue : Bool} {t : Token} {text after : List Char}
    (h : (Lexeme.single t).Stands mode afterValue text after) : t ≠ .symbol .kwRem := by
  have hMarks : ∀ entry ∈ markTable, Token.symbol entry.2 ≠ .symbol .kwRem := by decide
  cases h with
  | string | openString => nofun
  | minus => cases afterValue <;> nofun
  | mark hMark => exact hMarks _ hMark
  | word _ hToken => exact hToken

namespace Block

def IsSingle (b : Block) : Prop := ∃ t, b.lexeme = .single t

theorem sources_append (blocks more : List Block) : sources (blocks ++ more) = sources blocks ++ sources more :=
  List.flatMap_append

theorem tokensFrom_append (position : Nat) (blocks more : List Block) :
    tokensFrom position (blocks ++ more) =
      tokensFrom position blocks ++ tokensFrom (position + (sources blocks).length) more := by
  induction blocks generalizing position with
  | nil => rfl
  | cons b blocks ih =>
    rw [List.cons_append, tokensFrom, ih, tokensFrom, sources_cons, List.length_append, Nat.add_assoc,
      List.append_assoc]

end Block

namespace Layout

theorem append {mode : Mode} {afterValue middle last : Bool} {blocks more : List Block} {after : List Char}
    (h : Layout mode afterValue blocks (Block.sources more ++ after) middle)
    (hMore : Layout mode middle more after last) :
    Layout mode afterValue (blocks ++ more) after last := by
  generalize hAfter : Block.sources more ++ after = following at h
  induction h with
  | nil => exact hMore
  | @cons afterValue last b blocks following hGap hText hRest ih =>
    refine .cons hGap ?_ (ih hMore hAfter)
    change b.lexeme.Stands mode afterValue b.text (Block.sources (blocks ++ more) ++ after)
    rw [Block.sources_append, List.append_assoc, hAfter]
    exact hText

/-- Any place between two blocks divides a layout. -/
theorem exists_split {mode : Mode} {afterValue last : Bool} {blocks more : List Block} {after : List Char}
    (h : Layout mode afterValue (blocks ++ more) after last) :
    ∃ middle, Layout mode afterValue blocks (Block.sources more ++ after) middle ∧ Layout mode middle more after last := by
  induction blocks generalizing afterValue with
  | nil => exact ⟨afterValue, .nil, h⟩
  | cons b blocks ih =>
    cases h with
    | cons hGap hText hRest =>
      obtain ⟨middle, hBlocks, hMore⟩ := ih hRest
      change b.lexeme.Stands mode afterValue b.text (Block.sources (blocks ++ more) ++ after) at hText
      rw [Block.sources_append, List.append_assoc] at hText
      exact ⟨middle, .cons hGap hText hBlocks, hMore⟩

theorem of_strict {mode : Mode} {afterValue last : Bool} {blocks : List Block} {after : List Char}
    (h : Layout .strict afterValue blocks after last) : Layout mode afterValue blocks after last := by
  induction h with
  | nil => exact .nil
  | cons hGap hText _ ih => exact .cons hGap hText.of_strict ih

theorem transfer {mode other : Mode} {afterValue last : Bool} {blocks : List Block} {after following : List Char}
    (h : Layout mode afterValue blocks after last) (hSingle : ∀ b ∈ blocks, b.IsSingle)
    (hClosed : mode = .strict ∨ after ≠ []) (hEnd : EndsWord after → EndsWord following) :
    Layout other afterValue blocks following last := by
  induction h with
  | nil => exact .nil
  | @cons afterValue last b blocks after hGap hText hRest ih =>
    obtain ⟨⟨t, hToken⟩, hOthers⟩ := List.forall_mem_cons.mp hSingle
    refine .cons hGap ?_ (ih hOthers hClosed hEnd)
    rw [hToken] at hText ⊢
    refine hText.transfer ?_ ?_
    · exact hClosed.imp_right (List.append_ne_nil_of_right_ne_nil _)
    · cases hSources : Block.sources blocks with
      | nil => exact hEnd
      | cons c sources => exact id

/-- A remark takes all that is left, so that no text can follow one. -/
theorem isSingle_of_ne_nil {mode : Mode} {afterValue last : Bool} {blocks : List Block} {after : List Char}
    (h : Layout mode afterValue blocks after last) (hAfter : after ≠ []) : ∀ b ∈ blocks, b.IsSingle := by
  induction h with
  | nil => exact fun _ hMem => nomatch hMem
  | @cons _ _ b blocks after _ hText _ ih =>
    refine List.forall_mem_cons.mpr ⟨?_, ih hAfter⟩
    obtain ⟨gap, text, lexeme⟩ := b
    cases lexeme with
    | single t => exact ⟨t, rfl⟩
    | remark remark =>
      obtain ⟨-, -, -, -, hNil⟩ := hText.exists_tail
      exact False.elim (hAfter (List.append_eq_nil_iff.mp hNil).2)

/-- REM is read as the start of a remark and as nothing else. -/
theorem isSingle_iff {mode : Mode} {afterValue last : Bool} {blocks : List Block} {after : List Char}
    (h : Layout mode afterValue blocks after last) (position : Nat) :
    (∀ b ∈ blocks, b.IsSingle) ↔
      ∀ positioned ∈ Block.tokensFrom position blocks, positioned.token ≠ .symbol .kwRem := by
  induction h generalizing position with
  | nil => simp [Block.tokensFrom]
  | @cons afterValue last b blocks after hGap hText hRest ih =>
    obtain ⟨gap, text, lexeme⟩ := b
    rw [List.forall_mem_cons, ih, Block.tokensFrom, List.forall_mem_append]
    refine and_congr_left fun _ => ?_
    cases lexeme with
    | single t => simpa [Block.IsSingle, Block.tokensAt, Lexeme.tokensAt] using hText.ne_rem
    | remark remark => simp [Block.IsSingle, Block.tokensAt, Lexeme.tokensAt]

/-- Where more text follows, the mode does not matter, and neither does all but the start of that text. -/
theorem cut {mode : Mode} (other : Mode) {afterValue last : Bool} {blocks : List Block} {after rest : List Char}
    (h : Layout mode afterValue blocks (after ++ rest) last) (hRest : rest ≠ []) :
    Layout other afterValue blocks after last := by
  have hAfter : after ++ rest ≠ [] := List.append_ne_nil_of_right_ne_nil after hRest
  exact h.transfer (h.isSingle_of_ne_nil hAfter) (.inr hAfter) EndsWord.of_append

theorem of_ne_nil {mode : Mode} (other : Mode) {afterValue last : Bool} {blocks : List Block} {after : List Char}
    (h : Layout mode afterValue blocks after last) (hAfter : after ≠ []) :
    Layout other afterValue blocks after last :=
  h.transfer (h.isSingle_of_ne_nil hAfter) (.inr hAfter) id

end Layout

end LineBasic
