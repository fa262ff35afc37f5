import Mathlib
import LineBasic.Diagnostic.Report
import LineBasic.Proofs.Interpolation
import LineBasic.Proofs.LeftmostFault
import LineBasic.Proofs.Pieces

/-! # Messages: what is said of a refused line, and that it is the same wherever it is said

The words of the line that a message quotes are filled in once and not read again, whatever they are.
They hold no whitespace, so a message keeps to one row.
-/
namespace LineBasic
set_option autoImplicit false

/-- What is said of a line, told for each code. The text of the line is quoted as it is there. -/
structure LexDiagnostic.Quotes (diagnostic : LexDiagnostic) (line : String) : Prop where
  missing : diagnostic.code = .missingLineNumber → diagnostic.message = "line must start with a line number"
  invalid : diagnostic.code = .invalidLineNumber →
    ∃ text, diagnostic.args.lookup "text" = some (.text text) ∧ text.toList = labelOf line ∧
      diagnostic.message = "invalid line number \"" ++ text ++ "\""
  unrecognized : diagnostic.code = .unrecognizedToken →
    ∃ (offset : Nat) (text : String), diagnostic.offset = .whole offset ∧
      diagnostic.args.lookup "text" = some (.text text) ∧
      text.toList = (line.toList.drop offset).takeWhile (fun c => !Text.isSpace c && c != ')') ∧
      diagnostic.message = "unrecognized token \"" ++ text ++ "\" at " ++ Text.decimal offset
  unterminated : diagnostic.code = .unterminatedString →
    ∃ offset : Nat, diagnostic.offset = .whole offset ∧
      diagnostic.message = "unterminated string literal at " ++ Text.decimal offset

namespace Fault

def message : Fault → String
  | .missingLineNumber => "line must start with a line number"
  | .invalidLineNumber text => "invalid line number \"" ++ text ++ "\""
  | .unrecognizedToken offset text => "unrecognized token \"" ++ text ++ "\" at " ++ Text.decimal offset
  | .unterminatedString offset => "unterminated string literal at " ++ Text.decimal offset

theorem diagnostic_message (fault : Fault) : fault.diagnostic.message = fault.message := by
  have hKeys : "text".toList.all Text.isKeyChar = true ∧ "offset".toList.all Text.isKeyChar = true := by decide
  have hText {text : String} {args : Args} (rest : String) (h : args.value? "text" = some text) :
      Text.interpolate ("\x7b" ++ "text" ++ "\x7d" ++ rest) args.value? = text ++ Text.interpolate rest args.value? :=
    Text.interpolate_placeholder rest (by decide) (List.all_eq_true.mp hKeys.1) h
  have hOffset {offset : Nat} {args : Args} (h : args.value? "offset" = some (Text.decimal offset)) :
      Text.interpolate ("\x7b" ++ "offset" ++ "\x7d" ++ "") args.value? = Text.decimal offset := by
    rw [Text.interpolate_placeholder "" (by decide) (List.all_eq_true.mp hKeys.2) h,
      Text.interpolate_literal _ (by decide), String.append_empty]
  -- Each template is told with its literals and its placeholders apart.
  cases fault with
  | missingLineNumber =>
    change Text.interpolate "line must start with a line number" _ = "line must start with a line number"
    exact Text.interpolate_literal _ (by simp)
  | invalidLineNumber text =>
    change Text.interpolate ("invalid line number \"" ++ ("\x7b" ++ "text" ++ "\x7d" ++ "\"")) _ =
      "invalid line number \"" ++ text ++ "\""
    rw [Text.interpolate_append _ _ (by simp), hText _ rfl, Text.interpolate_literal _ (by simp),
      String.append_assoc]
    rfl
  | unrecognizedToken offset text =>
    change Text.interpolate ("unrecognized token \"" ++ ("\x7b" ++ "text" ++ "\x7d" ++
      ("\" at " ++ ("\x7b" ++ "offset" ++ "\x7d" ++ "")))) _ =
      "unrecognized token \"" ++ text ++ "\" at " ++ Text.decimal offset
    rw [Text.interpolate_append _ _ (by simp), hText _ rfl, Text.interpolate_append _ _ (by simp), hOffset rfl,
      String.append_assoc, String.append_assoc]
    rfl
  | unterminatedString offset =>
    change Text.interpolate ("unterminated string literal at " ++ ("\x7b" ++ "offset" ++ "\x7d" ++ "")) _ =
      "unterminated string literal at " ++ Text.decimal offset
    rw [Text.interpolate_append _ _ (by simp), hOffset rfl]

theorem definition_code (fault : Fault) : fault.diagnostic.definition.code = fault.code.name := by
  cases fault <;> rfl

theorem diagnostic_codedMessage (fault : Fault) :
    fault.diagnostic.codedMessage = "[" ++ fault.code.name ++ "] " ++ fault.message := by
  -- The values are filled in a second time, but into the same template.
  rw [LexDiagnostic.codedMessage, Definition.codedMessage, definition_code, ← diagnostic_message]
  rfl

theorem header_diagnostic (fault : Fault) :
    Report.header fault.diagnostic = "error[" ++ fault.code.name ++ "]: " ++ fault.message := by
  rw [Report.header, definition_code, diagnostic_message]
  cases fault <;> rfl

variable {mode : Mode} {line : String}

theorem text_eq_labelOf {text : String} (h : LabelFault line.toList (.invalidLineNumber text) ∨
    Nonempty (Refusal mode line.toList (.invalidLineNumber text))) : text.toList = labelOf line := by
  obtain ⟨rfl, -⟩ := labelFault_invalid_iff.mp (labelFault_of_kind h rfl)
  exact String.toList_ofList

theorem unrecognizedAt {offset : Nat} {text : String} (h : LabelFault line.toList (.unrecognizedToken offset text) ∨
    Nonempty (Refusal mode line.toList (.unrecognizedToken offset text))) :
    UnrecognizedAt line.toList offset text.toList := by
  obtain ⟨refusal⟩ := nonempty_refusal_of_code h (.inl rfl)
  obtain ⟨word, hText, hWord⟩ := refusal.exists_unrecognizedAt rfl
  have hOffset : offset = refusal.before.length := refusal.offset_eq
  obtain rfl : text = String.ofList word := ArgValue.text.inj (Option.some.inj hText)
  rwa [String.toList_ofList, hOffset]

theorem quotes_line {fault : Fault}
    (h : LabelFault line.toList fault ∨ Nonempty (Refusal mode line.toList fault)) : fault.diagnostic.Quotes line where
  missing hCode := by
    cases fault with
    | missingLineNumber => exact diagnostic_message _
    | invalidLineNumber | unrecognizedToken | unterminatedString => cases hCode
  invalid hCode := by
    cases fault with
    | invalidLineNumber text => exact ⟨text, rfl, text_eq_labelOf h, diagnostic_message _⟩
    | missingLineNumber | unrecognizedToken | unterminatedString => cases hCode
  unrecognized hCode := by
    cases fault with
    | unrecognizedToken offset text => exact ⟨offset, text, rfl, rfl, (unrecognizedAt h).run, diagnostic_message _⟩
    | missingLineNumber | invalidLineNumber | unterminatedString => cases hCode
  unterminated hCode := by
    cases fault with
    | unterminatedString offset => exact ⟨offset, rfl, diagnostic_message _⟩
    | missingLineNumber | invalidLineNumber | unrecognizedToken => cases hCode

end Fault

/-- What a message quotes holds no whitespace, so the message keeps to one row. -/
theorem Fault.not_mem_message {mode : Mode} {line : String} {fault : Fault}
    (h : LabelFault line.toList fault ∨ Nonempty (Refusal mode line.toList fault)) : '\n' ∉ fault.message.toList := by
  cases fault with
  | missingLineNumber =>
    change '\n' ∉ "line must start with a line number".toList
    simp
  | invalidLineNumber text =>
    have hText : '\n' ∉ text.toList := by
      rw [text_eq_labelOf h]
      intro hBreak
      cases List.all_eq_true.mp List.all_takeWhile '\n' hBreak
    change '\n' ∉ ("invalid line number \"" ++ text ++ "\"").toList
    simp [hText]
  | unrecognizedToken offset text =>
    have hText : '\n' ∉ text.toList := by
      rw [(unrecognizedAt h).run]
      intro hBreak
      cases List.all_eq_true.mp List.all_takeWhile '\n' hBreak
    change '\n' ∉ ("unrecognized token \"" ++ text ++ "\" at " ++ Text.decimal offset).toList
    simp [hText, Text.not_mem_decimal]
  | unterminatedString offset =>
    change '\n' ∉ ("unterminated string literal at " ++ Text.decimal offset).toList
    simp [Text.not_mem_decimal]

theorem Fault.not_mem_header {mode : Mode} {line : String} {fault : Fault}
    (h : LabelFault line.toList fault ∨ Nonempty (Refusal mode line.toList fault)) :
    '\n' ∉ ("error[" ++ fault.code.name ++ "]: " ++ fault.message).toList := by
  have hCodes : ∀ code ∈ LexCode.all, '\n' ∉ code.name.toList := by decide
  simp [hCodes _ fault.code.mem_all, not_mem_message h]

theorem Fault.report_eq (fault : Fault) (line : String) (location : Location) :
    fault.diagnostic.report line location =
      .ok ("\n".intercalate (Report.rows fault.diagnostic line location fault.offset)) := rfl

/-- The diagnostic of a refused line, the error that is thrown for it and its report all say the same, and
what they quote is the text of the line. -/
theorem message_of_tokenize {mode : Mode} {line : String} {diagnostic : LexDiagnostic}
    (h : tokenize mode line = .ok (.rejected diagnostic)) :
    diagnostic.Quotes line ∧
      (∃ error, tokenizeOrThrow mode line = .error (.lex error) ∧ error.diagnostic = diagnostic ∧
        error.code = diagnostic.code ∧ error.offset = diagnostic.offset ∧
        error.message = "[" ++ diagnostic.code.name ++ "] " ++ diagnostic.message) ∧
      ∀ location, ∃ report, diagnostic.report line location = .ok report ∧
        (report.toList.splitOn '\n').head? =
          some ("error[" ++ diagnostic.code.name ++ "]: " ++ diagnostic.message).toList := by
  obtain ⟨fault, rfl, hRead⟩ := tokenize_eq_rejected_iff_readLine.mp h
  obtain ⟨_, hCause, hFault⟩ := readLine_eq_error_iff.mp hRead
  cases hCause
  rw [fault.diagnostic_message]
  refine ⟨Fault.quotes_line hFault, ⟨.ofDiagnostic fault.diagnostic, ?_, rfl, rfl, rfl, ?_⟩, ?_⟩
  · rw [tokenizeOrThrow, hRead]
    rfl
  · exact fault.diagnostic_codedMessage
  · intro location
    refine ⟨_, fault.report_eq line location, ?_⟩
    rw [Report.rows, fault.header_diagnostic, List.cons_append]
    exact Text.head?_splitOn_intercalate _ (Fault.not_mem_header hFault)

/-- A placeholder and a pattern in the text that is quoted. -/
theorem message_of_tokenize_placeholder :
    let line := "10 \x7btext\x7d$&"
    let message := "unrecognized token \"" ++ "\x7btext\x7d$&" ++ "\" at " ++ Text.decimal 3
    let diagnostic := (Fault.unrecognizedToken 3 "\x7btext\x7d$&").diagnostic
    tokenize .strict line = .ok (.rejected diagnostic) ∧ diagnostic.Quotes line ∧ diagnostic.message = message ∧
      (∃ error, tokenizeOrThrow .strict line = .error (.lex error) ∧
        error.message = "[" ++ "BSLEX003" ++ "] " ++ message) ∧
      ∃ report, diagnostic.report line ⟨"<input>", .whole 1⟩ = .ok report ∧
        (report.toList.splitOn '\n').head? = some ("error[" ++ "BSLEX003" ++ "]: " ++ message).toList := by
  intro line message diagnostic
  have h : tokenize .strict line = .ok (.rejected diagnostic) :=
    tokenize_eq_rejected_iff_readLine.mpr ⟨_, rfl, by cbv⟩
  have hMessage : diagnostic.message = message := Fault.diagnostic_message _
  obtain ⟨hQuotes, ⟨error, hError, -, -, -, hThrown⟩, hReports⟩ := message_of_tokenize h
  obtain ⟨report, hReport, hRow⟩ := hReports ⟨"<input>", .whole 1⟩
  rw [hMessage] at hThrown hRow
  exact ⟨h, hQuotes, hMessage, ⟨error, hError, hThrown⟩, report, hReport, hRow⟩

end LineBasic
