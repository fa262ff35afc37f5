import LineBasic.Proofs.Refusal
import LineBasic.Proofs.Tiling

/-! # Lenient reading as a conservative extension of strict reading

Only a string without a closing quote is read differently in the two modes. Where strict reading
refuses a line for one, lenient reading makes it the last token, and up to it the line is the same.
-/
namespace LineBasic
set_option autoImplicit false

/-- The last token is a string whose text is all that follows its opening quote. -/
def LineRecord.EndsOpen (record : LineRecord) (line : List Char) (offset : Nat) : Prop :=
  ∃ text, record.tokens.getLast? = some ⟨offset, .stringLiteral text⟩ ∧ text.toList = line.drop (offset + 1)

/-- How the readings of one line in the two modes are related. -/
structure Conservative (line : String) : Prop where
  accepted : ∀ record, tokenize .strict line = .ok (.accepted record) →
    tokenize .lenient line = .ok (.accepted record)
  rejected : ∀ diagnostic, tokenize .strict line = .ok (.rejected diagnostic) →
    diagnostic.code ≠ .unterminatedString → tokenize .lenient line = .ok (.rejected diagnostic)
  lenient_rejected : ∀ diagnostic, tokenize .lenient line = .ok (.rejected diagnostic) →
    tokenize .strict line = .ok (.rejected diagnostic) ∧ diagnostic.code ≠ .unterminatedString
  unterminated_iff : ∀ offset, FailsAt .strict line .unterminatedString offset ↔
    ∃ record, tokenize .lenient line = .ok (.accepted record) ∧ record.EndsOpen line.toList offset
  before : ∀ record offset, tokenize .lenient line = .ok (.accepted record) →
    record.EndsOpen line.toList offset → '"' ∉ line.toList.drop (offset + 1) ∧
      tokenize .strict (String.ofList (line.toList.take offset)) =
        .ok (.accepted ⟨record.label, record.tokens.dropLast⟩)

theorem tokenize_lenient_of_strict {line : String} {record : LineRecord}
    (h : tokenize .strict line = .ok (.accepted record)) : tokenize .lenient line = .ok (.accepted record) := by
  rw [tokenize_eq_accepted_iff] at h ⊢
  obtain ⟨layout⟩ := h
  exact ⟨{ layout with layout := layout.layout.of_strict }⟩

/-- Any fault but an open string is a fault in the other mode as well. -/
theorem tokenize_rejected_of_code_ne {mode : Mode} (other : Mode) {line : String} {diagnostic : LexDiagnostic}
    (h : tokenize mode line = .ok (.rejected diagnostic)) (hCode : diagnostic.code ≠ .unterminatedString) :
    tokenize other line = .ok (.rejected diagnostic) := by
  rw [tokenize_eq_rejected_iff] at h ⊢
  obtain ⟨fault, rfl, hLabel | ⟨⟨refusal⟩⟩⟩ := h
  · exact ⟨fault, rfl, .inl hLabel⟩
  · have hRejection := mt refusal.code_eq_unterminated_iff.mpr hCode
    exact ⟨fault, rfl, .inr ⟨refusal.transfer other (refusal.stands.transfer other hRejection)⟩⟩

/-- An open string is a fault in strict mode only. -/
theorem FailsAt.eq_strict {mode : Mode} {line : String} {offset : Nat}
    (h : FailsAt mode line .unterminatedString offset) : mode = .strict := by
  obtain ⟨fault, refusal, hCode, -⟩ := h.exists_refusal
  exact (refusal.exists_quote hCode).1

/-- Where strict reading meets an open string, lenient reading ends with it. -/
theorem Refusal.tokenize_lenient {mode : Mode} {line : List Char} {fault : Fault} (refusal : Refusal mode line fault)
    {body : List Char} (hText : refusal.text = '"' :: body) (hBody : '"' ∉ body) :
    tokenize .lenient (String.ofList line) = .ok (.accepted ⟨refusal.number,
      refusal.tokens ++ [⟨refusal.before.length, .stringLiteral (String.ofList body)⟩]⟩) := by
  let b : Block := ⟨refusal.gap, '"' :: body, .single (.stringLiteral (String.ofList body))⟩
  have hSources : refusal.gap ++ refusal.text = Block.sources [b] := by
    rw [hText, Block.sources_cons, Block.sources_nil, List.append_nil]
    rfl
  have hAll : Block.sources refusal.blocks ++ (refusal.gap ++ refusal.text) =
      Block.sources (refusal.blocks ++ [b]) ++ [] := by
    rw [hSources, Block.sources_append, List.append_nil]
  have hLayout : Layout .lenient false refusal.blocks (Block.sources [b] ++ []) refusal.last := by
    rw [List.append_nil, ← hSources]
    exact refusal.layout.of_ne_nil .lenient refusal.gap_append_text_ne_nil
  have hLast : Layout .lenient refusal.last [b] [] true := .cons refusal.blank (.openString rfl hBody) .nil
  rw [tokenize_eq_accepted_iff, String.toList_ofList]
  refine ⟨⟨refusal.digits, refusal.blocks ++ [b], [], true, ?_, refusal.label, ?_, hLayout.append hLast, rfl, ?_⟩⟩
  · rw [← hAll]
    exact refusal.line_eq
  · rw [← hAll]
    exact refusal.boundary
  · rw [Block.tokensFrom_append, before, List.length_append, List.length_append, ← Nat.add_assoc]
    rfl

/-- In a strict reading a string has its closing quote. -/
theorem exists_closing_quote {line : String} {record : LineRecord} {offset : Nat} {text : String}
    (h : tokenize .strict line = .ok (.accepted record)) (hMem : ⟨offset, .stringLiteral text⟩ ∈ record.tokens) :
    ∃ after, line.toList.drop (offset + 1) = text.toList ++ '"' :: after := by
  obtain ⟨layout⟩ := tokenize_eq_accepted_iff.mp h
  have hLine : line.toList.drop layout.digits.length = Block.sources layout.blocks ++ layout.gap :=
    (congrArg (List.drop layout.digits.length) layout.line_eq).trans List.drop_left
  obtain ⟨spans, hTokens, hTiling⟩ := layout.layout.exists_tiling layout.blank _ hLine
  rw [layout.tokens_eq, ← hTokens] at hMem
  obtain ⟨⟨token, written⟩, hSpan, rfl⟩ := List.mem_map.mp hMem
  obtain ⟨after, hDrop, hWritten⟩ := hTiling.written _ hSpan
  cases hWritten with
  | string =>
    refine ⟨after, ?_⟩
    rw [Span.start] at hDrop
    rw [← List.drop_drop, hDrop]
    simp
  | openString hMode => cases hMode

/-- What lenient reading makes of a line with an open string, and strict reading of the part before it. -/
theorem FailsAt.exists_record {line : String} {offset : Nat} (h : FailsAt .strict line .unterminatedString offset) :
    ∃ record, tokenize .lenient line = .ok (.accepted record) ∧ record.EndsOpen line.toList offset ∧
      '"' ∉ line.toList.drop (offset + 1) ∧
      tokenize .strict (String.ofList (line.toList.take offset)) =
        .ok (.accepted ⟨record.label, record.tokens.dropLast⟩) := by
  obtain ⟨fault, refusal, hCode, rfl⟩ := h.exists_refusal
  obtain ⟨-, body, hText, hBody⟩ := refusal.exists_quote hCode
  have hDrop : line.toList.drop (refusal.before.length + 1) = body := by
    rw [← List.drop_drop, refusal.drop_eq_text, hText, List.drop_one, List.tail_cons]
  have hLenient := refusal.tokenize_lenient hText hBody
  rw [String.ofList_toList] at hLenient
  refine ⟨_, hLenient, ⟨String.ofList body, ?_, ?_⟩, ?_, ?_⟩
  · exact List.getLast?_concat
  · rw [hDrop, String.toList_ofList]
  · rwa [hDrop]
  · rw [List.dropLast_concat]
    exact refusal.tokenize_before .strict

theorem failsAt_of_endsOpen {line : String} {record : LineRecord} {offset : Nat}
    (h : tokenize .lenient line = .ok (.accepted record)) (hOpen : record.EndsOpen line.toList offset) :
    FailsAt .strict line .unterminatedString offset := by
  obtain ⟨text, hLast, hText⟩ := hOpen
  obtain ⟨reading, hStrict⟩ := exists_reading .strict line
  cases reading with
  | accepted other =>
    have hSame := h.symm.trans (tokenize_lenient_of_strict hStrict)
    cases hSame
    obtain ⟨after, hClosed⟩ := exists_closing_quote hStrict (List.mem_of_getLast? hLast)
    have hLength := congrArg List.length (hText.trans hClosed)
    simp at hLength
  | rejected diagnostic =>
    by_cases hCode : diagnostic.code = .unterminatedString
    · obtain ⟨place, -, hFails⟩ := exists_failsAt hStrict
      rw [hCode] at hFails
      obtain ⟨other, hOther, ⟨_, hOtherLast, -⟩, -⟩ := hFails.exists_record
      cases h.symm.trans hOther
      obtain rfl : offset = place :=
        congrArg PositionedToken.offset (Option.some.inj (hLast.symm.trans hOtherLast))
      exact hFails
    · cases h.symm.trans (tokenize_rejected_of_code_ne .lenient hStrict hCode)

theorem conservative (line : String) : Conservative line where
  accepted _ := tokenize_lenient_of_strict
  rejected _ := tokenize_rejected_of_code_ne .lenient
  lenient_rejected diagnostic h := by
    have hCode : diagnostic.code ≠ .unterminatedString := by
      intro hCode
      obtain ⟨offset, -, hFails⟩ := exists_failsAt h
      rw [hCode] at hFails
      cases hFails.eq_strict
    exact ⟨tokenize_rejected_of_code_ne .strict h hCode, hCode⟩
  unterminated_iff offset := by
    constructor
    · intro h
      obtain ⟨record, hLenient, hOpen, -⟩ := h.exists_record
      exact ⟨record, hLenient, hOpen⟩
    · rintro ⟨record, hLenient, hOpen⟩
      exact failsAt_of_endsOpen hLenient hOpen
  before record offset h hOpen := by
    obtain ⟨other, hOther, -, hBefore⟩ := (failsAt_of_endsOpen h hOpen).exists_record
    cases h.symm.trans hOther
    exact hBefore

end LineBasic
