import LineBasic.Lexeme
import LineBasic.Proofs.Word

/-! # Lexemes as they stand in a line: the text of each and what may follow it

What follows is part of the judgment, since a word runs up to its end and a remark takes all that is
left. `Lexeme.read` finds exactly the lexemes that stand at its place.
-/
namespace LineBasic
set_option autoImplicit false

/-- Where a word may stop. -/
def EndsWord (after : List Char) : Prop := ∀ c ∈ after.head?, isWordChar c = false

namespace Lexeme

/-- A lexeme, its text and what follows, given whether the token before it is a value. -/
inductive Stands (mode : Mode) (afterValue : Bool) : Lexeme → List Char → List Char → Prop
  | string {text after : List Char} (hText : '"' ∉ text) :
      Stands mode afterValue (.single (.stringLiteral (String.ofList text))) ('"' :: (text ++ ['"'])) after
  | openString {text : List Char} (hMode : mode = .lenient) (hText : '"' ∉ text) :
      Stands mode afterValue (.single (.stringLiteral (String.ofList text))) ('"' :: text) []
  | minus {after : List Char} :
      Stands mode afterValue (.single (.symbol (minusSymbol afterValue))) ['-'] after
  | mark {c : Char} {s : Symbol} {after : List Char} (hMark : (c, s) ∈ markTable) :
      Stands mode afterValue (.single (.symbol s)) [c] after
  | word {t : Token} {word after : List Char} (hWord : t.WordFor word) (hToken : t ≠ .symbol .kwRem)
      (hEnd : EndsWord after) : Stands mode afterValue (.single t) word after
  | bareRemark : Stands mode afterValue (.remark "") ['R', 'E', 'M'] []
  | remark {c : Char} {text : List Char} (hSeparator : isWordChar c = false) :
      Stands mode afterValue (.remark (String.ofList text)) ('R' :: 'E' :: 'M' :: c :: text) []

theorem Stands.ne_nil {mode : Mode} {afterValue : Bool} {lexeme : Lexeme} {text after : List Char}
    (h : Stands mode afterValue lexeme text after) : text ≠ [] := by
  cases h with
  | word hWord => exact hWord.ne_nil
  | string | openString | minus | mark | bareRemark | remark => exact List.cons_ne_nil _ _

theorem Stands.exists_tail {mode : Mode} {afterValue : Bool} {remark : String} {text after : List Char}
    (h : Stands mode afterValue (.remark remark) text after) :
    ∃ tail, text = 'R' :: 'E' :: 'M' :: tail ∧ remark = String.ofList tail.tail ∧ EndsWord tail ∧
      after = [] := by
  cases h with
  | bareRemark => exact ⟨[], rfl, rfl, by simp [EndsWord], rfl⟩
  | @remark c text hSeparator =>
    refine ⟨c :: text, rfl, rfl, ?_, rfl⟩
    intro x hx
    cases hx
    exact hSeparator

theorem run_skip_of_quoteless {text : List Char} (after : List Char) (position : Nat)
    (hText : '"' ∉ text) (hAfter : ∀ c ∈ after.head?, c = '"') :
    (Cursor.mk position (text ++ after)).run (· != '"') = text ∧
      (Cursor.mk position (text ++ after)).skip (· != '"') = ⟨position + text.length, after⟩ := by
  apply Cursor.run_skip_append
  · intro c hc
    rw [bne_iff_ne]
    rintro rfl
    exact hText hc
  · intro c hc
    rw [hAfter c hc]
    rfl

theorem readString_of_closed (mode : Mode) {text after : List Char} (position : Nat) (hText : '"' ∉ text) :
    readString mode ⟨position, text ++ '"' :: after⟩ =
      .ok (.single (.stringLiteral (String.ofList text)), ⟨position + text.length + 1, after⟩) := by
  obtain ⟨hRun, hSkip⟩ := run_skip_of_quoteless ('"' :: after) position hText (by simp)
  rw [readString, hRun, hSkip]
  rfl

theorem readString_of_open {text : List Char} (position : Nat) (hText : '"' ∉ text) :
    readString .lenient ⟨position, text⟩ =
      .ok (.single (.stringLiteral (String.ofList text)), ⟨position + text.length, []⟩) := by
  obtain ⟨hRun, hSkip⟩ := run_skip_of_quoteless [] position hText (by simp)
  rw [List.append_nil] at hRun hSkip
  rw [readString, hRun, hSkip]
  rfl

theorem stands_of_readString {mode : Mode} {afterValue : Bool} {body rest : Cursor} {lexeme : Lexeme}
    (h : readString mode body = .ok (lexeme, rest)) :
    ∃ tail, body.ahead = tail ++ rest.ahead ∧ rest.position = body.position + tail.length ∧
      Stands mode afterValue lexeme ('"' :: tail) rest.ahead := by
  obtain ⟨text, after, hAhead, hRun, hSkip, hInside, hAfter⟩ := body.exists_run_skip (· != '"')
  have hText : '"' ∉ text := by
    intro hMem
    cases hInside _ hMem
  rw [readString, hRun, hSkip] at h
  split at h
  · cases h
  · rename_i hEnd
    cases h
    cases after with
    | nil =>
      have hMode : mode = .lenient := by
        cases mode with
        | strict => exact False.elim (hEnd rfl)
        | lenient => rfl
      exact ⟨text, hAhead, rfl, .openString hMode hText⟩
    | cons c after =>
      have hQuote : c = '"' := by simpa using hAfter c rfl
      subst hQuote
      refine ⟨text ++ ['"'], ?_, ?_, .string hText⟩
      · rw [hAhead, Cursor.next_cons, List.append_assoc, List.singleton_append]
      · rw [Cursor.next_cons, List.length_append, List.length_singleton, Nat.add_assoc]

theorem readWord_of_wordFor {t : Token} {first : Char} {tail after : List Char} (position : Nat)
    (hWord : t.WordFor (first :: tail)) (hToken : t ≠ .symbol .kwRem) (hEnd : EndsWord after) :
    readWord first ⟨position, tail ++ after⟩ = .ok (.single t, ⟨position + tail.length, after⟩) := by
  have hInside : ∀ c ∈ tail, isWordChar c = true := by
    intro c hc
    exact ((opensWord_iff c).mp (hWord.all_opensWord c (List.mem_cons_of_mem first hc))).1
  obtain ⟨hRun, hSkip⟩ := Cursor.run_skip_append after position hInside hEnd
  rw [readWord, hRun, hSkip, hWord.ofWord?]
  split
  · rename_i hNone
    cases hNone
  · rename_i hRem
    exact False.elim (hToken (Option.some.inj hRem))
  · rename_i hSome
    cases hSome
    rfl

theorem readWord_of_remark (after : List Char) (position : Nat) (hEnd : EndsWord after) :
    readWord 'R' ⟨position, 'E' :: 'M' :: after⟩ = .ok (readRemark ⟨position + 2, after⟩) := by
  have hInside : ∀ c ∈ ['E', 'M'], isWordChar c = true := List.all_eq_true.mp rfl
  obtain ⟨hRun, hSkip⟩ := Cursor.run_skip_append after position hInside hEnd
  change readWord 'R' ⟨position, ['E', 'M'] ++ after⟩ = _
  rw [readWord, hRun, hSkip, Token.wordFor_rem.ofWord?]
  rfl

theorem stands_of_readWord {mode : Mode} {afterValue : Bool} {first : Char} {body rest : Cursor}
    {lexeme : Lexeme} (hFirst : first ≠ '-') (h : readWord first body = .ok (lexeme, rest)) :
    ∃ tail, body.ahead = tail ++ rest.ahead ∧ rest.position = body.position + tail.length ∧
      Stands mode afterValue lexeme (first :: tail) rest.ahead := by
  obtain ⟨inside, after, hAhead, hRun, hSkip, hInside, hEnd⟩ := body.exists_run_skip isWordChar
  have hSign : (first :: inside).head? ≠ some '-' := by simpa using hFirst
  rw [readWord, hRun, hSkip] at h
  split at h
  · cases h
  · rename_i hWord
    have hRem := (Token.wordFor_of_ofWord? hSign hWord).eq_rem
    cases hRem
    cases h
    cases after with
    | nil => exact ⟨['E', 'M'], hAhead, rfl, .bareRemark⟩
    | cons c text =>
      refine ⟨'E' :: 'M' :: c :: text, ?_, ?_, .remark (hEnd c rfl)⟩
      · rw [hAhead]
        simp [Cursor.next_cons, Cursor.finish]
      · simp [Cursor.next_cons, Cursor.finish]
        omega
  · rename_i t hToken hWord
    cases h
    refine ⟨inside, hAhead, rfl, .word (Token.wordFor_of_ofWord? hSign hWord) ?_ hEnd⟩
    rintro rfl
    exact hToken rfl

/-- A lexeme that stands at a place is read there, up to the end of its text. -/
theorem Stands.read {mode : Mode} {afterValue : Bool} {lexeme : Lexeme} {first : Char}
    {tail after : List Char} (h : Stands mode afterValue lexeme (first :: tail) after) (position : Nat) :
    Lexeme.read mode afterValue first ⟨position, tail ++ after⟩ =
      .ok (lexeme, ⟨position + tail.length, after⟩) := by
  cases h with
  | @string text _ hText =>
    rw [List.append_assoc, List.length_append]
    exact readString_of_closed mode position hText
  | openString hMode hText =>
    rw [hMode, List.append_nil]
    exact readString_of_open position hText
  | minus => rfl
  | mark hMark =>
    have hMarks : ∀ entry ∈ markTable, entry.1 ≠ '"' ∧ entry.1 ≠ '-' := by decide
    obtain ⟨hQuote, hMinus⟩ := hMarks _ hMark
    rw [Lexeme.read, if_neg hQuote, if_neg hMinus, lookupMark_eq_some_iff.mpr hMark]
    rfl
  | word hWord hToken hEnd =>
    have hFirst := hWord.all_opensWord first List.mem_cons_self
    obtain ⟨-, hQuote, hMinus, -⟩ := (opensWord_iff first).mp hFirst
    rw [Lexeme.read, if_neg hQuote, if_neg hMinus, lookupMark_of_opensWord hFirst]
    exact readWord_of_wordFor position hWord hToken hEnd
  | bareRemark => exact readWord_of_remark [] position (by simp [EndsWord])
  | @remark c text hSeparator =>
    have hEnd : EndsWord (c :: text) := by
      intro x hx
      cases hx
      exact hSeparator
    rw [List.append_nil]
    refine (readWord_of_remark (c :: text) position hEnd).trans ?_
    simp [readRemark, Cursor.next_cons, Cursor.finish]
    omega

theorem stands_of_read {mode : Mode} {afterValue : Bool} {first : Char} {body rest : Cursor}
    {lexeme : Lexeme} (h : Lexeme.read mode afterValue first body = .ok (lexeme, rest)) :
    ∃ tail, body.ahead = tail ++ rest.ahead ∧ rest.position = body.position + tail.length ∧
      Stands mode afterValue lexeme (first :: tail) rest.ahead := by
  unfold Lexeme.read at h
  split at h
  · rename_i hQuote
    cases hQuote
    exact stands_of_readString h
  · split at h
    · rename_i hMinus
      cases hMinus
      cases h
      exact ⟨[], rfl, rfl, .minus⟩
    · rename_i hMinus
      split at h
      · rename_i mark hMark
        cases h
        exact ⟨[], rfl, rfl, .mark (lookupMark_eq_some_iff.mp hMark)⟩
      · exact stands_of_readWord hMinus h

end Lexeme

end LineBasic
