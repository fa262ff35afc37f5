import LineBasic.Proofs.Transfer

/-! # Refused lines: what stands at the fault, and the layout of all that is read before it

A line is refused for its label, or it has a layout up to a place where nothing can be read. The two
cases together with the layouts of accepted lines account for every line.
-/
namespace LineBasic
set_option autoImplicit false

/-- What stands at a place where no lexeme does: a word of no token, with what follows it, or an
opening quote that is never closed. -/
inductive Rejection.Stands (mode : Mode) : Rejection → List Char → Prop
  | unrecognized {first : Char} {tail after : List Char} (hFirst : opensWord first = true)
      (hTail : ∀ c ∈ tail, isWordChar c = true) (hEnd : EndsWord after)
      (hWord : ∀ t : Token, ¬ t.WordFor (first :: tail)) :
      Stands mode (.unrecognized (String.ofList (first :: tail))) (first :: tail ++ after)
  | unterminated {text : List Char} (hMode : mode = .strict) (hText : '"' ∉ text) :
      Stands mode .unterminated ('"' :: text)

theorem opensWord_of_lookupMark {c : Char} (hSpace : Text.isSpace c = false) (hQuote : c ≠ '"')
    (hMinus : c ≠ '-') (hMark : lookupMark c = none) : opensWord c = true := by
  have hOther {mark : Char} {s : Symbol} (hEntry : (mark, s) ∈ markTable) : c ≠ mark := by
    rintro rfl
    cases hMark.symm.trans (lookupMark_eq_some_iff.mpr hEntry)
  have hBang : c ≠ '!' := hOther (by decide : ('!', Symbol.bang) ∈ markTable)
  have hOpen : c ≠ '(' := hOther (by decide : ('(', Symbol.leftParen) ∈ markTable)
  have hClose : c ≠ ')' := hOther (by decide : (')', Symbol.rightParen) ∈ markTable)
  rw [opensWord_iff]
  simp [isWordChar, hSpace, hQuote, hMinus, hBang, hOpen, hClose]

theorem Token.ofWord?_eq_none_iff {word : List Char} (hSign : word.head? ≠ some '-') :
    Token.ofWord? word = none ↔ ∀ t : Token, ¬ t.WordFor word := by
  constructor
  · intro h t hWord
    cases h.symm.trans hWord.ofWord?
  · intro h
    cases hToken : Token.ofWord? word with
    | none => rfl
    | some t => exact False.elim (h t (wordFor_of_ofWord? hSign hToken))

namespace Rejection.Stands

theorem exists_cons {mode : Mode} {rejection : Rejection} {text : List Char} (h : rejection.Stands mode text) :
    ∃ first rest, text = first :: rest ∧ Text.isSpace first = false := by
  cases h with
  | @unrecognized first tail after hFirst => exact ⟨first, tail ++ after, rfl, isSpace_of_opensWord hFirst⟩
  | @unterminated text => exact ⟨'"', text, rfl, rfl⟩

theorem transfer {mode : Mode} {rejection : Rejection} {text : List Char} (h : rejection.Stands mode text)
    (other : Mode) (hRejection : rejection ≠ .unterminated) : rejection.Stands other text := by
  cases h with
  | unrecognized hFirst hTail hEnd hWord => exact .unrecognized hFirst hTail hEnd hWord
  | unterminated => exact False.elim (hRejection rfl)

theorem exists_quote {mode : Mode} {text : List Char} (h : Rejection.unterminated.Stands mode text) :
    mode = .strict ∧ ∃ body, text = '"' :: body ∧ '"' ∉ body := by
  cases h with
  | @unterminated body hMode hText => exact ⟨hMode, body, rfl, hText⟩

theorem read {mode : Mode} {rejection : Rejection} {first : Char} {rest : List Char}
    (h : rejection.Stands mode (first :: rest)) (afterValue : Bool) (position : Nat) :
    Lexeme.read mode afterValue first ⟨position, rest⟩ = .error rejection := by
  generalize hText : first :: rest = text at h
  cases h with
  | @unrecognized start tail after hFirst hTail hEnd hWord =>
    cases hText
    obtain ⟨-, hQuote, hMinus, -⟩ := (opensWord_iff first).mp hFirst
    obtain ⟨hRun, -⟩ := Cursor.run_skip_append after position hTail hEnd
    have hSign : (first :: tail).head? ≠ some '-' := by simpa using hMinus
    change Lexeme.read mode afterValue first ⟨position, tail ++ after⟩ = _
    rw [Lexeme.read, if_neg hQuote, if_neg hMinus, lookupMark_of_opensWord hFirst]
    dsimp only
    rw [Lexeme.readWord, hRun, (Token.ofWord?_eq_none_iff hSign).mpr hWord]
  | unterminated hMode hText' =>
    cases hText
    subst hMode
    obtain ⟨-, hSkip⟩ := Lexeme.run_skip_of_quoteless [] position hText' (by simp)
    rw [List.append_nil] at hSkip
    rw [Lexeme.read, if_pos rfl, Lexeme.readString, hSkip]
    rfl

end Rejection.Stands

theorem Rejection.stands_of_readString {mode : Mode} {body : Cursor} {rejection : Rejection}
    (h : Lexeme.readString mode body = .error rejection) : rejection.Stands mode ('"' :: body.ahead) := by
  obtain ⟨text, after, hAhead, hRun, hSkip, hInside, -⟩ := body.exists_run_skip (· != '"')
  have hText : '"' ∉ text := by
    intro hMem
    cases hInside _ hMem
  rw [Lexeme.readString, hRun, hSkip] at h
  split at h
  · rename_i hEnd
    cases h
    rw [Bool.and_eq_true, Cursor.atEnd, List.isEmpty_iff, beq_iff_eq] at hEnd
    obtain ⟨hNil, hMode⟩ := hEnd
    dsimp only at hNil
    rw [hAhead, hNil, List.append_nil]
    exact .unterminated hMode hText
  · cases h

theorem Rejection.stands_of_readWord {mode : Mode} {first : Char} {body : Cursor} {rejection : Rejection}
    (hFirst : opensWord first = true) (h : Lexeme.readWord first body = .error rejection) :
    rejection.Stands mode (first :: body.ahead) := by
  obtain ⟨tail, after, hAhead, hRun, hSkip, hTail, hEnd⟩ := body.exists_run_skip isWordChar
  have hMinus := ((opensWord_iff first).mp hFirst).2.2.1
  have hSign : (first :: tail).head? ≠ some '-' := by simpa using hMinus
  rw [Lexeme.readWord, hRun, hSkip] at h
  split at h
  · rename_i hNone
    cases h
    rw [hAhead]
    exact .unrecognized hFirst hTail hEnd ((Token.ofWord?_eq_none_iff hSign).mp hNone)
  · cases h
  · cases h

theorem Rejection.stands_of_read {mode : Mode} {afterValue : Bool} {first : Char} {body : Cursor}
    {rejection : Rejection} (hSpace : Text.isSpace first = false)
    (h : Lexeme.read mode afterValue first body = .error rejection) :
    rejection.Stands mode (first :: body.ahead) := by
  unfold Lexeme.read at h
  split at h
  · rename_i hQuote
    cases hQuote
    exact stands_of_readString h
  · rename_i hQuote
    split at h
    · cases h
    · rename_i hMinus
      split at h
      · cases h
      · rename_i hMark
        exact stands_of_readWord (opensWord_of_lookupMark hSpace hQuote hMinus hMark) h

theorem scanTokens_of_read_error {mode : Mode} {afterValue : Bool} {c body : Cursor} {first : Char}
    {rejection : Rejection} (hFirst : c.skipSpace.advance? = some (first, body))
    (hRead : Lexeme.read mode afterValue first body = .error rejection) :
    scanTokens mode afterValue c = .error (rejection.faultAt c.skipSpace.position) := by
  rw [scanTokens]
  split
  · rename_i hNone
    cases hNone.symm.trans hFirst
  · rename_i hSome
    cases hSome.symm.trans hFirst
    split
    · rename_i hError
      cases hError.symm.trans hRead
      rfl
    · rename_i hOk
      cases hOk.symm.trans hRead

theorem scanTokens_of_rejection {mode : Mode} {rejection : Rejection} {gap text : List Char}
    (hGap : Text.isBlank gap = true) (hText : rejection.Stands mode text) (afterValue : Bool) (position : Nat) :
    scanTokens mode afterValue ⟨position, gap ++ text⟩ = .error (rejection.faultAt (position + gap.length)) := by
  obtain ⟨first, rest, rfl, hSpace⟩ := hText.exists_cons
  have hSkip := Cursor.skipSpace_append (first :: rest) position hGap (by simpa using hSpace)
  have hRead := hText.read afterValue (position + gap.length + 1)
  rw [scanTokens_of_read_error (by rw [hSkip]; rfl) hRead, hSkip]

/-- Whatever is scanned with a fault has a layout up to the fault. -/
theorem exists_layout_of_scanTokens_error {mode : Mode} {afterValue : Bool} {c : Cursor} {fault : Fault}
    (h : scanTokens mode afterValue c = .error fault) :
    ∃ (rejection : Rejection) (blocks : List Block) (gap text : List Char) (last : Bool),
      Layout mode afterValue blocks (gap ++ text) last ∧ Text.isBlank gap = true ∧
      rejection.Stands mode text ∧ c.ahead = Block.sources blocks ++ (gap ++ text) ∧
      fault = rejection.faultAt (c.position + (Block.sources blocks).length + gap.length) := by
  fun_induction scanTokens mode afterValue c generalizing fault with
  | case1 => cases h
  | case2 afterValue c first body hFirst rejection hRead =>
    cases h
    obtain ⟨gap, after, hAhead, -, hSkip, hBlank, hStop⟩ := c.exists_run_skip Text.isSpace
    rw [Cursor.skipSpace, hSkip] at hFirst ⊢
    cases after with
    | nil => cases hFirst
    | cons x after =>
      cases hFirst
      have hStands := Rejection.stands_of_read (hStop first rfl) hRead
      exact ⟨rejection, [], gap, _, afterValue, .nil, List.all_eq_true.mpr hBlank, hStands, hAhead, rfl⟩
  | case3 afterValue c first body hFirst lexeme rest hRead other hRest ih =>
    cases h
    obtain ⟨gap, after, hAhead, -, hSkip, hBlank, -⟩ := c.exists_run_skip Text.isSpace
    obtain ⟨rejection, blocks, final, text, last, hLayout, hFinal, hText, hAfter, rfl⟩ := ih hRest
    obtain ⟨tail, hBody, hPosition, hStands⟩ := Lexeme.stands_of_read hRead
    rw [Cursor.skipSpace, hSkip] at hFirst
    cases after with
    | nil => cases hFirst
    | cons x after =>
      cases hFirst
      refine ⟨rejection, ⟨gap, first :: tail, lexeme⟩ :: blocks, final, text, last, .cons ?_ ?_ hLayout,
        hFinal, hText, ?_, ?_⟩
      · exact List.all_eq_true.mpr hBlank
      · rwa [← hAfter]
      · dsimp only at hBody
        rw [hAhead, hBody, hAfter, Block.sources_cons, Block.source]
        simp
      · rw [hPosition, Block.sources_cons, Block.source]
        simp only [List.length_append, List.length_cons]
        congr 1
        omega
  | case4 => cases h

/-- What is wrong with the label of a line. -/
inductive LabelFault (line : List Char) : Fault → Prop
  | missing (hFirst : ∀ c ∈ line.head?, c.isDigit = false) : LabelFault line .missingLineNumber
  | invalid (hFirst : ∃ c ∈ line.head?, c.isDigit = true)
      (hLabel : labelNumber? (line.takeWhile isLabelChar) = none) :
      LabelFault line (.invalidLineNumber (String.ofList (line.takeWhile isLabelChar)))

/-- All that there is in a line with a good label, told for the fault it is refused for. -/
structure Refusal (mode : Mode) (line : List Char) (fault : Fault) where
  number : LineNumber
  rejection : Rejection
  digits : List Char
  blocks : List Block
  gap : List Char
  text : List Char
  last : Bool
  line_eq : line = digits ++ (Block.sources blocks ++ (gap ++ text))
  label : Text.Numeral digits number.val
  boundary : StartsBlank (Block.sources blocks ++ (gap ++ text))
  layout : Layout mode false blocks (gap ++ text) last
  blank : Text.isBlank gap = true
  stands : rejection.Stands mode text
  fault_eq : fault = rejection.faultAt (digits.length + (Block.sources blocks).length + gap.length)

theorem labelNumber?_eq_none_iff {label : List Char} :
    labelNumber? label = none ↔ ∀ n, Text.Numeral label n → maxLineNumber < n := by
  constructor
  · intro h n hDigits
    apply Nat.lt_of_not_le
    intro hMax
    cases h.symm.trans (labelNumber?_eq_some_iff.mpr ⟨n, rfl, hDigits, hMax⟩)
  · intro h
    cases hLabel : labelNumber? label with
    | none => rfl
    | some value =>
      obtain ⟨n, -, hDigits, hMax⟩ := labelNumber?_eq_some_iff.mp hLabel
      exact absurd (h n hDigits) (Nat.not_lt.mpr hMax)

theorem peek?_start_any_iff {line : List Char} {test : Char → Bool} :
    (Cursor.start line).peek?.any test = true ↔ ∃ c ∈ line.head?, test c = true := Option.any_eq_true _ _

theorem LabelFault.readLabel {line : List Char} {fault : Fault} (h : LabelFault line fault) :
    readLabel (Cursor.start line) = .error (.fault fault) := by
  rw [LineBasic.readLabel]
  cases h with
  | missing hFirst =>
    rw [if_neg]
    intro hDigit
    obtain ⟨c, hc, hIsDigit⟩ := peek?_start_any_iff.mp hDigit
    cases hIsDigit.symm.trans (hFirst c hc)
  | invalid hFirst hLabel =>
    have hRun : (Cursor.start line).run isLabelChar = line.takeWhile isLabelChar := rfl
    rw [if_pos (peek?_start_any_iff.mpr hFirst), hRun]
    dsimp only
    rw [hLabel]

/-- The label is refused for a fault of the line and for nothing else. -/
theorem exists_labelFault {line : List Char} {error : LineError}
    (h : readLabel (Cursor.start line) = .error error) : ∃ fault, error = .fault fault ∧ LabelFault line fault := by
  rw [readLabel] at h
  split at h
  · rename_i hDigit
    dsimp only at h
    split at h
    · rename_i hLabel
      cases h
      exact ⟨_, rfl, .invalid (peek?_start_any_iff.mp hDigit) hLabel⟩
    · rename_i value hLabel
      obtain ⟨n, rfl, -, hMax⟩ := labelNumber?_eq_some_iff.mp hLabel
      rw [ofNumber_whole hMax] at h
      cases h
  · rename_i hDigit
    cases h
    refine ⟨_, rfl, .missing ?_⟩
    intro c hc
    rw [Bool.eq_false_iff]
    intro hIsDigit
    exact hDigit (peek?_start_any_iff.mpr ⟨c, hc, hIsDigit⟩)

theorem Refusal.readLine {mode : Mode} {line : List Char} {fault : Fault} (refusal : Refusal mode line fault) :
    readLine mode (String.ofList line) = .error (.fault fault) := by
  have hScan := refusal.layout.scanTokens refusal.digits.length
  rw [scanTokens_of_rejection refusal.blank refusal.stands] at hScan
  rw [LineBasic.readLine, String.toList_ofList, refusal.line_eq, readLabel_append refusal.label refusal.boundary]
  dsimp only
  rw [scanTokens_next mode refusal.digits.length refusal.boundary, hScan]
  exact congrArg (fun fault => Except.error (LineError.fault fault)) refusal.fault_eq.symm

/-- A line is refused for its label, or for what stands behind a layout. -/
theorem readLine_eq_error_iff {mode : Mode} {line : String} {error : LineError} :
    readLine mode line = .error error ↔
      ∃ fault, error = .fault fault ∧ (LabelFault line.toList fault ∨ Nonempty (Refusal mode line.toList fault)) := by
  constructor
  · intro h
    rw [readLine] at h
    split at h
    · rename_i hLabel
      cases h
      obtain ⟨fault, rfl, hFault⟩ := exists_labelFault hLabel
      exact ⟨fault, rfl, .inl hFault⟩
    · rename_i label body hLabel
      split at h
      · rename_i fault hScan
        cases h
        obtain ⟨digits, rest, hLine, hDigits, hRest, rfl⟩ := exists_of_readLabel hLabel
        rw [scanTokens_next mode digits.length hRest] at hScan
        obtain ⟨rejection, blocks, gap, text, last, hLayout, hGap, hText, rfl, rfl⟩ :=
          exists_layout_of_scanTokens_error hScan
        exact ⟨_, rfl, .inr ⟨⟨label, rejection, digits, blocks, gap, text, last, hLine, hDigits, hRest, hLayout,
          hGap, hText, rfl⟩⟩⟩
      · cases h
  · rintro ⟨fault, rfl, hLabel | ⟨⟨refusal⟩⟩⟩
    · rw [readLine, hLabel.readLabel]
    · simpa using refusal.readLine

theorem tokenize_eq_rejected_iff_readLine {mode : Mode} {line : String} {diagnostic : LexDiagnostic} :
    tokenize mode line = .ok (.rejected diagnostic) ↔
      ∃ fault, diagnostic = fault.diagnostic ∧ readLine mode line = .error (.fault fault) := by
  rw [tokenize]
  cases readLine mode line with
  | ok record => simp
  | error error => cases error <;> simp [eq_comm]

theorem tokenize_eq_rejected_iff {mode : Mode} {line : String} {diagnostic : LexDiagnostic} :
    tokenize mode line = .ok (.rejected diagnostic) ↔
      ∃ fault, diagnostic = fault.diagnostic ∧
        (LabelFault line.toList fault ∨ Nonempty (Refusal mode line.toList fault)) := by
  simp [tokenize_eq_rejected_iff_readLine, readLine_eq_error_iff]

/-- Every line is accepted or refused; no error of another sort arises. -/
theorem exists_reading (mode : Mode) (line : String) : ∃ reading, tokenize mode line = .ok reading := by
  rw [tokenize]
  cases hRead : readLine mode line with
  | ok record => exact ⟨_, rfl⟩
  | error error =>
    obtain ⟨fault, rfl, -⟩ := readLine_eq_error_iff.mp hRead
    exact ⟨_, rfl⟩

namespace Refusal

variable {mode : Mode} {line : List Char} {fault : Fault}

/-- What stands before the fault, label included. -/
def before (refusal : Refusal mode line fault) : List Char :=
  refusal.digits ++ (Block.sources refusal.blocks ++ refusal.gap)

def tokens (refusal : Refusal mode line fault) : List PositionedToken :=
  Block.tokensFrom refusal.digits.length refusal.blocks

theorem line_eq_before (refusal : Refusal mode line fault) : line = refusal.before ++ refusal.text := by
  rw [before, List.append_assoc, List.append_assoc]
  exact refusal.line_eq

theorem fault_eq_before (refusal : Refusal mode line fault) :
    fault = refusal.rejection.faultAt refusal.before.length := by
  rw [before, List.length_append, List.length_append, ← Nat.add_assoc]
  exact refusal.fault_eq

theorem take_eq_before (refusal : Refusal mode line fault) : line.take refusal.before.length = refusal.before :=
  (congrArg (List.take refusal.before.length) refusal.line_eq_before).trans List.take_left

theorem drop_eq_text (refusal : Refusal mode line fault) : line.drop refusal.before.length = refusal.text :=
  (congrArg (List.drop refusal.before.length) refusal.line_eq_before).trans List.drop_left

theorem text_ne_nil (refusal : Refusal mode line fault) : refusal.text ≠ [] := by
  obtain ⟨first, rest, hText, -⟩ := refusal.stands.exists_cons
  rw [hText]
  exact List.cons_ne_nil first rest

theorem gap_append_text_ne_nil (refusal : Refusal mode line fault) : refusal.gap ++ refusal.text ≠ [] :=
  List.append_ne_nil_of_right_ne_nil refusal.gap refusal.text_ne_nil

/-- Behind a remark nothing is read, so none stands before a fault. -/
theorem ne_rem (refusal : Refusal mode line fault) :
    ∀ positioned ∈ refusal.tokens, positioned.token ≠ .symbol .kwRem := by
  apply (refusal.layout.isSingle_iff refusal.digits.length).mp
  exact refusal.layout.isSingle_of_ne_nil refusal.gap_append_text_ne_nil

/-- Up to its fault a line is accepted, in either mode. -/
theorem tokenize_before (refusal : Refusal mode line fault) (other : Mode) :
    tokenize other (String.ofList (line.take refusal.before.length)) =
      .ok (.accepted ⟨refusal.number, refusal.tokens⟩) := by
  have hBoundary : StartsBlank (Block.sources refusal.blocks ++ refusal.gap) := by
    have hAll := refusal.boundary
    rw [← List.append_assoc] at hAll
    exact hAll.of_append
  rw [refusal.take_eq_before, tokenize_eq_accepted_iff, String.toList_ofList]
  exact ⟨⟨refusal.digits, refusal.blocks, refusal.gap, refusal.last, rfl, refusal.label, hBoundary,
    refusal.layout.cut other refusal.text_ne_nil, refusal.blank, rfl⟩⟩

theorem eq_unrecognized_or_eq_unterminated (refusal : Refusal mode line fault) :
    (∃ word, refusal.rejection = .unrecognized word ∧ fault = .unrecognizedToken refusal.before.length word) ∨
      (refusal.rejection = .unterminated ∧ fault = .unterminatedString refusal.before.length) := by
  have hFault := refusal.fault_eq_before
  cases hRejection : refusal.rejection with
  | unrecognized word =>
    rw [hRejection] at hFault
    exact .inl ⟨word, rfl, hFault⟩
  | unterminated =>
    rw [hRejection] at hFault
    exact .inr ⟨rfl, hFault⟩

theorem offset_eq (refusal : Refusal mode line fault) : fault.offset = refusal.before.length := by
  rcases refusal.eq_unrecognized_or_eq_unterminated with ⟨word, -, hFault⟩ | ⟨-, hFault⟩
  · exact congrArg Fault.offset hFault
  · exact congrArg Fault.offset hFault

theorem code_eq_unterminated_iff (refusal : Refusal mode line fault) :
    fault.code = .unterminatedString ↔ refusal.rejection = .unterminated := by
  rcases refusal.eq_unrecognized_or_eq_unterminated with ⟨word, hRejection, hFault⟩ | ⟨hRejection, hFault⟩
  · rw [congrArg Fault.code hFault, hRejection]
    simp [Fault.code]
  · rw [congrArg Fault.code hFault, hRejection]
    simp [Fault.code]

/-- An open string is refused in strict mode only, and it takes all that is left of the line. -/
theorem exists_quote (refusal : Refusal mode line fault) (hCode : fault.code = .unterminatedString) :
    mode = .strict ∧ ∃ body, refusal.text = '"' :: body ∧ '"' ∉ body := by
  have hStands := refusal.stands
  rw [refusal.code_eq_unterminated_iff.mp hCode] at hStands
  exact hStands.exists_quote

/-- The same refusal in another mode, where what stands at the fault stands there as well. -/
def transfer (refusal : Refusal mode line fault) (other : Mode)
    (hStands : refusal.rejection.Stands other refusal.text) : Refusal other line fault :=
  { refusal with
    layout := refusal.layout.of_ne_nil other refusal.gap_append_text_ne_nil
    stands := hStands }

end Refusal

theorem LabelFault.kind {line : List Char} {fault : Fault} (h : LabelFault line fault) :
    fault.code.kind = .missingOrInvalidLineNumber := by
  cases h with
  | missing | invalid => rfl

theorem Refusal.kind {mode : Mode} {line : List Char} {fault : Fault} (refusal : Refusal mode line fault) :
    fault.code.kind ≠ .missingOrInvalidLineNumber := by
  rcases refusal.eq_unrecognized_or_eq_unterminated with ⟨word, -, hFault⟩ | ⟨-, hFault⟩
  · rw [congrArg Fault.code hFault]
    nofun
  · rw [congrArg Fault.code hFault]
    nofun

theorem labelFault_of_kind {mode : Mode} {line : List Char} {fault : Fault}
    (h : LabelFault line fault ∨ Nonempty (Refusal mode line fault))
    (hKind : fault.code.kind = .missingOrInvalidLineNumber) : LabelFault line fault := by
  rcases h with hLabel | ⟨⟨refusal⟩⟩
  · exact hLabel
  · exact absurd hKind refusal.kind

theorem nonempty_refusal_of_code {mode : Mode} {line : List Char} {fault : Fault}
    (h : LabelFault line fault ∨ Nonempty (Refusal mode line fault))
    (hCode : fault.code = .unrecognizedToken ∨ fault.code = .unterminatedString) :
    Nonempty (Refusal mode line fault) := by
  rcases h with hLabel | hRefusal
  · cases hLabel with
    | missing | invalid => rcases hCode with hCode | hCode <;> cases hCode
  · exact hRefusal

/-- The line is refused, and the diagnostic has this code and this offset. -/
def FailsAt (mode : Mode) (line : String) (code : LexCode) (offset : Nat) : Prop :=
  ∃ diagnostic, tokenize mode line = .ok (.rejected diagnostic) ∧ diagnostic.code = code ∧
    diagnostic.offset = .whole offset

theorem failsAt_iff {mode : Mode} {line : String} {code : LexCode} {offset : Nat} :
    FailsAt mode line code offset ↔
      ∃ fault : Fault, fault.code = code ∧ fault.offset = offset ∧
        (LabelFault line.toList fault ∨ Nonempty (Refusal mode line.toList fault)) := by
  constructor
  · rintro ⟨diagnostic, hReading, hCode, hOffset⟩
    obtain ⟨fault, rfl, hFault⟩ := tokenize_eq_rejected_iff.mp hReading
    exact ⟨fault, hCode, Int.ofNat_inj.mp (Number.whole.inj hOffset), hFault⟩
  · rintro ⟨fault, rfl, rfl, hFault⟩
    exact ⟨fault.diagnostic, tokenize_eq_rejected_iff.mpr ⟨fault, rfl, hFault⟩, rfl, rfl⟩

theorem exists_failsAt {mode : Mode} {line : String} {diagnostic : LexDiagnostic}
    (h : tokenize mode line = .ok (.rejected diagnostic)) :
    ∃ offset : Nat, diagnostic.offset = .whole offset ∧ FailsAt mode line diagnostic.code offset := by
  obtain ⟨fault, rfl, -⟩ := tokenize_eq_rejected_iff.mp h
  exact ⟨fault.offset, rfl, _, h, rfl, rfl⟩

theorem FailsAt.exists_refusal {mode : Mode} {line : String} {offset : Nat}
    (h : FailsAt mode line .unterminatedString offset) :
    ∃ (fault : Fault) (refusal : Refusal mode line.toList fault),
      fault.code = .unterminatedString ∧ offset = refusal.before.length := by
  obtain ⟨fault, hCode, rfl, hFault⟩ := failsAt_iff.mp h
  obtain ⟨refusal⟩ := nonempty_refusal_of_code hFault (.inr hCode)
  exact ⟨fault, refusal, hCode, refusal.offset_eq⟩

end LineBasic
