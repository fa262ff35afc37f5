import LineBasic.Program
import LineBasic.Proofs.Message
import LineBasic.Proofs.Sizes

/-! # Carets: the rows of a report, and the character that its caret stands below

The gutter is as wide on the row of the caret as on the row of the line, whatever number the line has. A
fault is inside its line, so there is a character above the caret unless there is none in the line.
-/
namespace LineBasic
set_option autoImplicit false

/-- The rows of a report over the line at this index. The caret is in the column of the character at the
offset, behind a gutter of the same width. -/
structure Report.Points (index offset : Nat) (line : String) (rows : List (List Char)) : Prop where
  length : rows.length = 7
  place : ∃ before, rows[1]? = some (before ++ ':' :: (Nat.toDigits 10 index ++ ':' :: Nat.toDigits 10 (offset + 1)))
  excerpt : rows[3]? = some (' ' :: (Nat.toDigits 10 index ++ [' ', '|', ' '] ++ line.toList))
  caret : rows[4]? = some (' ' :: (List.replicate (Nat.toDigits 10 index).length ' ' ++ [' ', '|', ' '] ++
    List.replicate offset ' ' ++ ['^']))
  column : ∀ row ∈ rows[4]?, row.length = (Nat.toDigits 10 index).length + 4 + offset + 1 ∧
    row[(Nat.toDigits 10 index).length + 4 + offset]? = some '^' ∧ row.count '^' = 1
  above : ∀ row ∈ rows[3]?, row[(Nat.toDigits 10 index).length + 4 + offset]? = line.toList[offset]?

/-- The character at the offset is the one that the diagnostic is about; there is none in an empty line. -/
structure LexDiagnostic.Aims (diagnostic : LexDiagnostic) (line : String) (offset : Nat) : Prop where
  offset_eq : diagnostic.offset = .whole offset
  missing : diagnostic.code = .missingLineNumber → offset = 0 ∧ (line.toList[offset]? = none ↔ line = "")
  quoted : diagnostic.code = .invalidLineNumber ∨ diagnostic.code = .unrecognizedToken →
    ∃ text first rest, diagnostic.args.lookup "text" = some (.text text) ∧ text.toList = first :: rest ∧
      line.toList[offset]? = some first
  unterminated : diagnostic.code = .unterminatedString → line.toList[offset]? = some '"'

theorem getElem?_of_takeWhile {test : Char → Bool} {chars rest : List Char} {offset : Nat} {first : Char}
    (h : (chars.drop offset).takeWhile test = first :: rest) : chars[offset]? = some first := by
  have hFirst := @List.head?_takeWhile _ test (chars.drop offset)
  rw [h, List.head?_drop] at hFirst
  exact (Option.filter_eq_some_iff.mp hFirst.symm).1

theorem Fault.aims {mode : Mode} {line : String} {fault : Fault}
    (h : LabelFault line.toList fault ∨ Nonempty (Refusal mode line.toList fault)) :
    fault.diagnostic.Aims line fault.offset where
  offset_eq := rfl
  missing hCode := by
    cases fault with
    | missingLineNumber => exact ⟨rfl, by simp [offset]⟩
    | invalidLineNumber | unrecognizedToken | unterminatedString => cases hCode
  quoted hCode := by
    cases fault with
    | invalidLineNumber text =>
      obtain ⟨-, ⟨_, _, hLine, hDigit⟩, -⟩ := labelFault_invalid_iff.mp (labelFault_of_kind h rfl)
      obtain ⟨first, rest, hLabel⟩ := List.exists_cons_of_ne_nil (labelOf_ne_nil hLine hDigit)
      refine ⟨text, first, rest, rfl, (text_eq_labelOf h).trans hLabel, ?_⟩
      exact @getElem?_of_takeWhile _ _ rest 0 first hLabel
    | unrecognizedToken offset text =>
      have hText := unrecognizedAt h
      obtain ⟨first, rest, hWord⟩ := List.exists_cons_of_ne_nil hText.nonempty
      exact ⟨text, first, rest, rfl, hWord, getElem?_of_takeWhile (hText.run.symm.trans hWord)⟩
    | missingLineNumber | unterminatedString => rcases hCode with hCode | hCode <;> cases hCode
  unterminated hCode := by
    cases fault with
    | unterminatedString offset => exact (failsAt_iff.mpr ⟨_, rfl, rfl, h⟩ : FailsAt mode line _ offset).unclosed.2.1
    | missingLineNumber | invalidLineNumber | unrecognizedToken => cases hCode

theorem LexCode.exists_suggestion (code : LexCode) :
    ∃ suggestion, code.definition.suggestion = some suggestion ∧ suggestion.isEmpty = false ∧
      '{' ∉ suggestion.toList ∧ '\n' ∉ suggestion.toList ∧ Text.units suggestion ≤ 100 := by
  simp only [Text.units_eq]
  cases code with
  | missingLineNumber => exact ⟨_, rfl, by simp, by simp, by simp, by decide⟩
  | invalidLineNumber => exact ⟨_, rfl, by simp, by simp, by simp, by decide⟩
  | unrecognizedToken => exact ⟨_, rfl, by simp, by simp, by simp, by decide⟩
  | unterminatedString => exact ⟨_, rfl, by simp, by simp, by simp, by decide⟩

theorem Fault.exists_help (fault : Fault) (index : Number) :
    ∃ suggestion : String, '\n' ∉ suggestion.toList ∧ Text.units suggestion ≤ 100 ∧
      Report.help fault.diagnostic index = [Report.emptyGutter index, "   = help: " ++ suggestion] := by
  obtain ⟨suggestion, hSuggestion, hNonempty, hBrace, hRow, hUnits⟩ := fault.code.exists_suggestion
  refine ⟨suggestion, hRow, hUnits, ?_⟩
  have hHelp : fault.diagnostic.definition.suggestion = some suggestion := hSuggestion
  rw [Report.help, hHelp]
  dsimp only
  rw [hNonempty, Text.interpolate_literal _ hBrace]
  rfl

namespace Report

theorem rows_eq (fault : Fault) (line filename : String) (index : Nat) :
    ∃ suggestion : String, '\n' ∉ suggestion.toList ∧ Text.units suggestion ≤ 100 ∧
      rows fault.diagnostic line ⟨filename, .whole index⟩ fault.offset =
        ["error[" ++ fault.code.name ++ "]: " ++ fault.message,
          "  --> " ++ filename ++ ":" ++ Text.decimal index ++ ":" ++ Text.decimal (fault.offset + 1 : Nat),
          emptyGutter (.whole index), gutter (Text.decimal index) ++ line,
          emptyGutter (.whole index) ++ spaces fault.offset ++ "^", emptyGutter (.whole index),
          "   = help: " ++ suggestion] := by
  obtain ⟨suggestion, hRow, hUnits, hHelp⟩ := fault.exists_help (.whole index)
  refine ⟨suggestion, hRow, hUnits, ?_⟩
  rw [rows, hHelp, fault.header_diagnostic]
  rfl

theorem toList_gutter (content : String) : (gutter content).toList = ' ' :: (content.toList ++ [' ', '|', ' ']) := by
  simp [gutter]

theorem toList_emptyGutter (index : Nat) : (emptyGutter (.whole index)).toList =
    ' ' :: (List.replicate (Nat.toDigits 10 index).length ' ' ++ [' ', '|', ' ']) := by
  have hWidth : (Number.whole index).text.length = (Nat.toDigits 10 index).length := by
    rw [← Text.toList_decimal index, String.length_toList]
    rfl
  rw [emptyGutter, toList_gutter, spaces, hWidth, String.toList_ofList]

theorem points_of_rows {index offset : Nat} {line header place empty other help : String}
    (hPlace : ∃ before, place = before ++ ":" ++ Text.decimal index ++ ":" ++ Text.decimal (offset + 1 : Nat)) :
    Points index offset line (List.map String.toList
      [header, place, empty, gutter (Text.decimal index) ++ line, emptyGutter (.whole index) ++ spaces offset ++ "^",
        other, help]) := by
  have hExcerpt : (gutter (Text.decimal index) ++ line).toList =
      ' ' :: (Nat.toDigits 10 index ++ [' ', '|', ' '] ++ line.toList) := by
    rw [String.toList_append, toList_gutter, Text.toList_decimal, List.cons_append]
  have hCaret : (emptyGutter (.whole index) ++ spaces offset ++ "^").toList =
      ' ' :: (List.replicate (Nat.toDigits 10 index).length ' ' ++ [' ', '|', ' '] ++ List.replicate offset ' ' ++
        ['^']) := by
    rw [String.toList_append, String.toList_append, toList_emptyGutter, spaces, String.toList_ofList]
    rfl
  refine ⟨rfl, ?place, congrArg some hExcerpt, congrArg some hCaret, ?column, ?above⟩
  case place =>
    obtain ⟨before, rfl⟩ := hPlace
    refine ⟨before.toList, congrArg some ?_⟩
    simp only [String.toList_append, Text.toList_decimal, List.append_assoc]
    rfl
  case column =>
    intro row hRow
    obtain rfl : _ = row := Option.some.inj hRow
    -- The row ends in the caret, so its column is the number of characters before it.
    let before := ' ' :: (List.replicate (Nat.toDigits 10 index).length ' ' ++ [' ', '|', ' '] ++
      List.replicate offset ' ')
    have hBefore : before.length = (Nat.toDigits 10 index).length + 4 + offset := by
      simp [before]
      omega
    rw [hCaret, ← List.cons_append, ← hBefore]
    refine ⟨List.length_append, List.getElem?_concat_length, ?_⟩
    simp [List.count_replicate]
  case above =>
    intro row hRow
    obtain rfl : _ = row := Option.some.inj hRow
    have hGutter : (' ' :: (Nat.toDigits 10 index ++ [' ', '|', ' '])).length = (Nat.toDigits 10 index).length + 4 := by
      simp
    rw [hExcerpt, ← List.cons_append, ← hGutter, List.getElem?_append_right (Nat.le_add_right _ _),
      Nat.add_sub_cancel_left]

theorem not_mem_emptyGutter (index : Nat) : '\n' ∉ (emptyGutter (.whole index)).toList := by
  rw [toList_emptyGutter]
  simp

end Report

/-- The report of a refused line has seven rows, and its caret stands below the character that the line is
refused for. -/
theorem LineOutcome.report_points {mode : Mode} {line filename : String} {diagnostic : LexDiagnostic} {index : Nat}
    (hLine : '\n' ∉ line.toList) (hName : '\n' ∉ filename.toList)
    (h : tokenize mode line = .ok (.rejected diagnostic)) :
    ∃ report offset, report? filename ⟨⟨index, line⟩, .rejected diagnostic⟩ = .ok (some report) ∧
      Report.Points index offset line (report.toList.splitOn '\n') ∧ diagnostic.Aims line offset := by
  obtain ⟨fault, rfl, hFault⟩ := tokenize_eq_rejected_iff.mp h
  obtain ⟨suggestion, hSuggestion, -, hRows⟩ := Report.rows_eq fault line filename index
  have hReport : report? filename ⟨⟨index, line⟩, .rejected fault.diagnostic⟩ =
      .ok (some ("\n".intercalate (Report.rows fault.diagnostic line ⟨filename, .whole index⟩ fault.offset))) := rfl
  rw [hRows] at hReport
  refine ⟨_, fault.offset, hReport, ?_, Fault.aims hFault⟩
  rw [Text.splitOn_intercalate ?rows (List.cons_ne_nil _ _)]
  · exact Report.points_of_rows ⟨_, rfl⟩
  case rows =>
    have hEmpty := Report.not_mem_emptyGutter index
    simp only [List.forall_mem_cons]
    refine ⟨Fault.not_mem_header hFault, ?place, hEmpty, ?excerpt, ?caret, hEmpty, ?help, nofun⟩
    case place => simp [hName, Text.not_mem_decimal]
    case excerpt => simp [Report.toList_gutter, hLine, Text.not_mem_decimal]
    case caret => simp [hEmpty, Report.spaces]
    case help => simp [hSuggestion]

/-- The index of the line has more digits than its label, and the word at fault ends at a bracket. -/
theorem LineOutcome.report_points_word :
    let line := "5 PRINT ($A)"
    let diagnostic := (Fault.unrecognizedToken 9 "$A").diagnostic
    '\n' ∉ line.toList ∧ '\n' ∉ "demo.bas".toList ∧ tokenize .strict line = .ok (.rejected diagnostic) ∧
      ∃ report, report? "demo.bas" ⟨⟨120, line⟩, .rejected diagnostic⟩ = .ok (some report) ∧
        Report.Points 120 9 line (report.toList.splitOn '\n') ∧ diagnostic.Aims line 9 := by
  intro line diagnostic
  have hLine : '\n' ∉ line.toList := by decide
  have hName : '\n' ∉ "demo.bas".toList := by decide
  have h : tokenize .strict line = .ok (.rejected diagnostic) :=
    tokenize_eq_rejected_iff_readLine.mpr ⟨_, rfl, by cbv⟩
  obtain ⟨report, offset, hReport, hPoints, hAims⟩ := LineOutcome.report_points hLine hName h
  obtain rfl : 9 = offset := Int.ofNat_inj.mp (Number.whole.inj hAims.offset_eq)
  exact ⟨hLine, hName, h, report, hReport, hPoints, hAims⟩

end LineBasic
