import LineBasic.Command
import LineBasic.Proofs.Interpolation
import LineBasic.Proofs.Pieces
import LineBasic.Proofs.Refusal
import Mathlib.Logic.Basic

/-! # The account of a source: each line with text in it is recorded or reported, once and in its place

A run of the command writes the records first, then the reports, then how many lines failed. All three,
and the exit code, are those of one account of the source.
-/
namespace LineBasic
set_option autoImplicit false

structure FailedLine where
  index : Nat
  report : String

structure Account (mode : Mode) (filename source : String) (records : List IndexedRecord)
    (failures : List FailedLine) : Prop where
  recorded : ∀ entry, entry ∈ records ↔ ∃ line, Source.Holds source line ∧ line.index = entry.index ∧
    tokenize mode line.text = .ok (.accepted entry.record)
  reported : ∀ failure, failure ∈ failures ↔ ∃ line diagnostic, Source.Holds source line ∧
    line.index = failure.index ∧ tokenize mode line.text = .ok (.rejected diagnostic) ∧
      diagnostic.report line.text ⟨filename, .whole line.index⟩ = .ok failure.report
  record_order : records.Pairwise fun earlier later => earlier.index < later.index
  failure_order : failures.Pairwise fun earlier later => earlier.index < later.index
  once : ∀ line, Source.Holds source line →
    Xor (∃ entry ∈ records, entry.index = line.index) (∃ failure ∈ failures, failure.index = line.index)

/-- The tokenizer places every fault in the line, so its report can be drawn. -/
theorem exists_report {mode : Mode} {line : String} {diagnostic : LexDiagnostic}
    (h : tokenize mode line = .ok (.rejected diagnostic)) (sourceLine : String) (location : Location) :
    ∃ report, diagnostic.report sourceLine location = .ok report := by
  obtain ⟨offset, hOffset, -⟩ := exists_failsAt h
  rw [LexDiagnostic.report, hOffset, Report.column_whole]
  exact ⟨_, rfl⟩

namespace LineOutcome

/-- The outcome of a line is how the line is read. -/
def Reads (mode : Mode) (outcome : LineOutcome) : Prop :=
  LineBasic.tokenize mode outcome.line.text = .ok outcome.reading

def failedLine? (filename : String) (outcome : LineOutcome) : Option FailedLine :=
  match outcome.reading with
  | .accepted _ => none
  | .rejected diagnostic =>
    (diagnostic.report outcome.line.text ⟨filename, .whole outcome.line.index⟩).toOption.map (⟨outcome.line.index, ·⟩)

theorem record?_eq_some_iff {outcome : LineOutcome} {entry : IndexedRecord} :
    outcome.record? = some entry ↔ outcome.line.index = entry.index ∧ outcome.reading = .accepted entry.record := by
  obtain ⟨line, reading⟩ := outcome
  obtain ⟨index, record⟩ := entry
  cases reading <;> simp [record?]

theorem failedLine?_eq_some_iff {filename : String} {outcome : LineOutcome} {failure : FailedLine} :
    outcome.failedLine? filename = some failure ↔ outcome.line.index = failure.index ∧
      ∃ diagnostic, outcome.reading = .rejected diagnostic ∧
        diagnostic.report outcome.line.text ⟨filename, .whole outcome.line.index⟩ = .ok failure.report := by
  obtain ⟨line, reading⟩ := outcome
  obtain ⟨index, report⟩ := failure
  cases reading with
  | accepted record => simp [failedLine?]
  | rejected diagnostic =>
    rw [failedLine?]
    dsimp only
    cases hReport : diagnostic.report line.text ⟨filename, .whole line.index⟩ <;> simp [hReport, Except.toOption]

theorem Reads.report? {mode : Mode} {outcome : LineOutcome} (h : outcome.Reads mode) (filename : String) :
    outcome.report? filename = .ok ((outcome.failedLine? filename).map FailedLine.report) := by
  obtain ⟨line, reading⟩ := outcome
  cases reading with
  | accepted record => rfl
  | rejected diagnostic =>
    obtain ⟨report, hReport⟩ := exists_report h line.text ⟨filename, .whole line.index⟩
    rw [LineOutcome.report?, failedLine?]
    dsimp only
    rw [hReport]
    rfl

end LineOutcome

namespace Program

theorem tokenize_cons {mode : Mode} {line : SourceLine} {reading : Reading}
    (h : LineBasic.tokenize mode line.text = .ok reading) (failFast : Bool) (rest : List SourceLine) :
    tokenize mode failFast (line :: rest) =
      if failFast && !reading.isAccepted then .ok [⟨line, reading⟩]
      else (tokenize mode failFast rest).map (⟨line, reading⟩ :: ·) := by
  rw [tokenize, outcomes, h]
  rfl

def failedLines (filename : String) (outcomes : List LineOutcome) : List FailedLine :=
  outcomes.filterMap (LineOutcome.failedLine? filename)

theorem reports_eq {mode : Mode} {outcomes : List LineOutcome}
    (h : ∀ outcome ∈ outcomes, outcome.Reads mode) (filename : String) :
    reports filename outcomes =
      .ok (outcomes.map fun outcome => (outcome.failedLine? filename).map FailedLine.report) := by
  induction outcomes with
  | nil => rfl
  | cons outcome outcomes ih =>
    obtain ⟨hFirst, hRest⟩ := List.forall_mem_cons.mp h
    rw [reports, List.mapM_cons, hFirst.report?, ← reports, ih hRest]
    rfl

/-- The outcomes are those of the lines, one for each and in order. -/
structure Covers (mode : Mode) (lines : List SourceLine) (outcomes : List LineOutcome) : Prop where
  lines_eq : outcomes.map LineOutcome.line = lines
  reads : ∀ outcome ∈ outcomes, outcome.Reads mode

/-- A run that does not stop at a failure comes to the end of the lines. -/
theorem exists_covers (mode : Mode) (lines : List SourceLine) :
    ∃ outcomes, tokenize mode false lines = .ok outcomes ∧ Covers mode lines outcomes := by
  induction lines with
  | nil => exact ⟨[], rfl, rfl, nofun⟩
  | cons line rest ih =>
    obtain ⟨outcomes, hOutcomes, hCovers⟩ := ih
    obtain ⟨reading, hReading⟩ := exists_reading mode line.text
    refine ⟨⟨line, reading⟩ :: outcomes, ?_, ?_, ?_⟩
    · rw [tokenize_cons hReading, hOutcomes]
      rfl
    · rw [List.map_cons, hCovers.lines_eq]
    · exact List.forall_mem_cons.mpr ⟨hReading, hCovers.reads⟩

namespace Covers

theorem mem_iff {mode : Mode} {lines : List SourceLine} {outcomes : List LineOutcome}
    (h : Covers mode lines outcomes) {outcome : LineOutcome} :
    outcome ∈ outcomes ↔ outcome.line ∈ lines ∧ outcome.Reads mode := by
  rw [← h.lines_eq, List.mem_map]
  constructor
  · intro hMem
    exact ⟨⟨outcome, hMem, rfl⟩, h.reads outcome hMem⟩
  · rintro ⟨⟨other, hMem, hLine⟩, hReads⟩
    -- A line has one reading, so no other outcome has the same line.
    have hOther := h.reads other hMem
    rw [LineOutcome.Reads, hLine] at hOther
    have hReading : other.reading = outcome.reading := Except.ok.inj (hOther.symm.trans hReads)
    obtain ⟨line, reading⟩ := other
    cases hLine
    cases hReading
    exact hMem

variable {mode : Mode} {source : String} {outcomes : List LineOutcome}

/-- What is taken from the outcomes with their indexes comes in the order of the lines. -/
theorem pairwise_filterMap (h : Covers mode (Source.lines source) outcomes) {α : Type}
    {f : LineOutcome → Option α} {index : α → Nat}
    (hIndex : ∀ outcome entry, f outcome = some entry → outcome.line.index = index entry) :
    (outcomes.filterMap f).Pairwise fun earlier later => index earlier < index later := by
  have hOrder := Source.lines_pairwise source
  rw [← h.lines_eq, List.pairwise_map] at hOrder
  refine hOrder.filterMap f ?_
  intro earlier later hLess entry hEntry other hOther
  rwa [← hIndex earlier entry hEntry, ← hIndex later other hOther]

theorem mem_records_iff (h : Covers mode (Source.lines source) outcomes) {entry : IndexedRecord} :
    entry ∈ records outcomes ↔ ∃ line, Source.Holds source line ∧ line.index = entry.index ∧
      LineBasic.tokenize mode line.text = .ok (.accepted entry.record) := by
  simp only [records, List.mem_filterMap, h.mem_iff, Source.mem_lines_iff, LineOutcome.record?_eq_some_iff]
  constructor
  · rintro ⟨⟨line, reading⟩, ⟨hLine, hReads⟩, hIndex, rfl⟩
    exact ⟨line, hLine, hIndex, hReads⟩
  · rintro ⟨line, hLine, hIndex, hReads⟩
    exact ⟨⟨line, .accepted entry.record⟩, ⟨hLine, hReads⟩, hIndex, rfl⟩

theorem mem_failedLines_iff (h : Covers mode (Source.lines source) outcomes) {filename : String}
    {failure : FailedLine} :
    failure ∈ failedLines filename outcomes ↔ ∃ line diagnostic, Source.Holds source line ∧
      line.index = failure.index ∧ LineBasic.tokenize mode line.text = .ok (.rejected diagnostic) ∧
        diagnostic.report line.text ⟨filename, .whole line.index⟩ = .ok failure.report := by
  simp only [failedLines, List.mem_filterMap, h.mem_iff, Source.mem_lines_iff, LineOutcome.failedLine?_eq_some_iff]
  constructor
  · rintro ⟨⟨line, reading⟩, ⟨hLine, hReads⟩, hIndex, diagnostic, rfl, hReport⟩
    exact ⟨line, diagnostic, hLine, hIndex, hReads, hReport⟩
  · rintro ⟨line, diagnostic, hLine, hIndex, hReads, hReport⟩
    exact ⟨⟨line, .rejected diagnostic⟩, ⟨hLine, hReads⟩, hIndex, diagnostic, rfl, hReport⟩

theorem exists_record_iff (h : Covers mode (Source.lines source) outcomes) {line : SourceLine}
    (hLine : Source.Holds source line) :
    (∃ entry ∈ records outcomes, entry.index = line.index) ↔
      ∃ record, LineBasic.tokenize mode line.text = .ok (.accepted record) := by
  constructor
  · rintro ⟨entry, hEntry, hIndex⟩
    obtain ⟨other, hOther, hOtherIndex, hReading⟩ := h.mem_records_iff.mp hEntry
    obtain rfl := hOther.eq_of_index hLine (hOtherIndex.trans hIndex)
    exact ⟨entry.record, hReading⟩
  · rintro ⟨record, hReading⟩
    exact ⟨⟨line.index, record⟩, h.mem_records_iff.mpr ⟨line, hLine, rfl, hReading⟩, rfl⟩

theorem exists_failure_iff (h : Covers mode (Source.lines source) outcomes) (filename : String) {line : SourceLine}
    (hLine : Source.Holds source line) :
    (∃ failure ∈ failedLines filename outcomes, failure.index = line.index) ↔
      ∃ diagnostic, LineBasic.tokenize mode line.text = .ok (.rejected diagnostic) := by
  constructor
  · rintro ⟨failure, hFailure, hIndex⟩
    obtain ⟨other, diagnostic, hOther, hOtherIndex, hReading, -⟩ := h.mem_failedLines_iff.mp hFailure
    obtain rfl := hOther.eq_of_index hLine (hOtherIndex.trans hIndex)
    exact ⟨diagnostic, hReading⟩
  · rintro ⟨diagnostic, hReading⟩
    obtain ⟨report, hReport⟩ := exists_report hReading line.text ⟨filename, .whole line.index⟩
    exact ⟨⟨line.index, report⟩, h.mem_failedLines_iff.mpr ⟨line, diagnostic, hLine, rfl, hReading, hReport⟩, rfl⟩

theorem account (h : Covers mode (Source.lines source) outcomes) (filename : String) :
    Account mode filename source (records outcomes) (failedLines filename outcomes) where
  recorded _ := h.mem_records_iff
  reported _ := h.mem_failedLines_iff
  record_order := h.pairwise_filterMap fun _ _ hEntry => (LineOutcome.record?_eq_some_iff.mp hEntry).1
  failure_order := h.pairwise_filterMap fun _ _ hEntry => (LineOutcome.failedLine?_eq_some_iff.mp hEntry).1
  once line hLine := by
    rw [h.exists_record_iff hLine, h.exists_failure_iff filename hLine]
    obtain ⟨reading, hReading⟩ := exists_reading mode line.text
    rw [hReading]
    cases reading with
    | accepted record => exact .inl ⟨⟨record, rfl⟩, nofun⟩
    | rejected diagnostic => exact .inr ⟨⟨diagnostic, rfl⟩, nofun⟩

end Covers

end Program

namespace Command

theorem runSource_eq (options : Options) (format : OutputFormat) (source : String) {outcomes : List LineOutcome}
    (hTokenize : Program.tokenize (mode options) options.failFast (Source.lines source) = .ok outcomes)
    (hReads : ∀ outcome ∈ outcomes, outcome.Reads (mode options)) :
    runSource options format source = .ok
      { entries := recordEntries format (Program.records outcomes) ++
          failureEntries ((Program.failedLines options.input outcomes).map FailedLine.report)
        exitCode := if Program.failedLines options.input outcomes = [] then 0 else 1 } := by
  rw [runSource, hTokenize]
  dsimp only
  rw [transcript, Program.reports_eq hReads]
  have hReports : (outcomes.map fun outcome => (outcome.failedLine? options.input).map FailedLine.report).filterMap id =
      (Program.failedLines options.input outcomes).map FailedLine.report := by
    rw [List.filterMap_map, Program.failedLines, List.map_filterMap]
    rfl
  dsimp only
  rw [hReports]
  simp

theorem recordEntries_eq (format : OutputFormat) (records : List IndexedRecord) :
    recordEntries format records =
      if records = [] ∧ format = .text then [] else [.log (format.render records)] := by
  cases records <;> cases format <;> rfl

theorem failureEntries_eq (failures : List FailedLine) :
    failureEntries (failures.map FailedLine.report) =
      failures.map (fun failure => .error failure.report) ++ if failures = [] then []
        else [.error ("[BSCLI004] " ++ Text.decimal failures.length ++ " line(s) failed to tokenize")] := by
  rw [failureEntries, failureSummary_eq, List.map_map, List.length_map]
  cases failures <;> rfl

/-- A run to the end of the file, and a run that is asked for a format that there is not. -/
theorem run_account (options : Options) (read : String → Except Failure (List UInt8)) :
    (options.format ≠ "text" → options.format ≠ "json" →
      run options read = .ok ⟨[.error ("[BSCLI003] unknown format \"" ++ options.format ++ "\"")], 1⟩) ∧
    ∀ format bytes, OutputFormat.ofName? options.format = some format → read options.input = .ok bytes →
      options.failFast = false →
        ∃ records failures,
          Account (if options.lenient then .lenient else .strict) options.input (Text.Utf8.decode bytes)
            records failures ∧
          run options read = .ok
            { entries :=
                (if records = [] ∧ format = .text then [] else [.log (format.render records)]) ++
                failures.map (fun failure => .error failure.report) ++
                (if failures = [] then []
                  else [.error ("[BSCLI004] " ++ Text.decimal failures.length ++ " line(s) failed to tokenize")])
              exitCode := if failures = [] then 0 else 1 } := by
  constructor
  · intro hText hJson
    rw [run, OutputFormat.ofName?, if_neg hText, if_neg hJson]
    exact congrArg (Except.ok ∘ failure) (unknownFormatMessage_eq options.format)
  · intro format bytes hFormat hRead hComplete
    obtain ⟨outcomes, hOutcomes, hCovers⟩ :=
      Program.exists_covers (mode options) (Source.lines (Text.Utf8.decode bytes))
    refine ⟨_, _, hCovers.account options.input, ?_⟩
    rw [← hComplete] at hOutcomes
    rw [run, hFormat, hRead]
    dsimp only
    rw [runSource_eq options format (Text.Utf8.decode bytes) hOutcomes hCovers.reads, recordEntries_eq,
      failureEntries_eq, List.append_assoc]

/-- A line of each sort, after a byte order mark; the second piece is blank and counts all the same. -/
theorem run_account_mixed :
    let options : Options := ⟨"a.bas", "json", true, false⟩
    let other : Options := ⟨"a.bas", "xml", true, false⟩
    let bytes := "\uFEFF10 PRINT \"A\r\n \r\n20 ?\nX".toUTF8.toList
    let read (_ : String) : Except Failure (List UInt8) := .ok bytes
    OutputFormat.ofName? options.format = some .json ∧ read options.input = .ok bytes ∧ options.failFast = false ∧
      run other read = .ok ⟨[.error ("[BSCLI003] unknown format \"xml\"")], 1⟩ ∧
      ∃ records failures,
        Account .lenient options.input (Text.Utf8.decode bytes) records failures ∧
        run options read = .ok
          { entries := [.log (OutputFormat.json.render records)] ++
              failures.map (fun failure => .error failure.report) ++
              (if failures = [] then []
                else [.error ("[BSCLI004] " ++ Text.decimal failures.length ++ " line(s) failed to tokenize")])
            exitCode := if failures = [] then 0 else 1 } := by
  intro options other bytes read
  have hFormat : OutputFormat.ofName? options.format = some .json := by decide
  have hRefused := (run_account other read).1 (by decide) (by decide)
  obtain ⟨records, failures, hAccount, hRun⟩ := (run_account options read).2 .json bytes hFormat rfl rfl
  rw [if_neg (by simp)] at hRun
  exact ⟨hFormat, rfl, rfl, hRefused, records, failures, hAccount, hRun⟩

end Command

end LineBasic
