import LineBasic.Proofs.FailFast
import LineBasic.Proofs.Overflow
import LineBasic.Proofs.Room
import LineBasic.Proofs.Rows

/-! # Totality: nothing goes wrong but what is wrong in a line, as long as there is room

A label that is made into a line number is in range, so the only errors of a line are its faults. A fault is
inside its line, so its report has a column for the caret. A run of the command on a file that there is room
for therefore comes to its end, or to a text that is too long, and none of what it logs tells of an unexpected
failure.
-/
namespace LineBasic
set_option autoImplicit false

namespace CommandCode

/-- The text begins with the code in brackets, as every message with this code does. -/
def Heads (code : CommandCode) (text : String) : Prop := ("[" ++ code.name ++ "]").toList <+: text.toList

theorem Heads.exists_cons {code : CommandCode} {text : String} (h : code.Heads text) :
    ∃ rest, text.toList = '[' :: 'B' :: rest := by
  have hStart : ∀ code ∈ all, ("[" ++ code.name ++ "]").toList.take 2 = ['[', 'B'] := by decide
  obtain ⟨after, hText⟩ := h
  refine ⟨("[" ++ code.name ++ "]").toList.drop 2 ++ after, ?_⟩
  rw [← hText, ← List.cons_append, ← List.cons_append, ← List.take_append_drop 2 ("[" ++ code.name ++ "]").toList,
    hStart code code.mem_all]
  rfl

end CommandCode

namespace Program

theorem exists_reads (mode : Mode) (failFast : Bool) (lines : List SourceLine) :
    ∃ outcomes, tokenize mode failFast lines = .ok outcomes ∧ outcomes.map LineOutcome.line <+: lines ∧
      ∀ outcome ∈ outcomes, outcome.Reads mode := by
  obtain ⟨outcomes, hOutcomes, hCovers⟩ := exists_covers mode lines
  obtain ⟨all, upTo, hAll, hUpTo, hStops⟩ := exists_upToFailure mode lines
  cases hOutcomes.symm.trans hAll
  cases failFast with
  | false => exact ⟨outcomes, hOutcomes, hCovers.lines_eq ▸ List.prefix_rfl, hCovers.reads⟩
  | true =>
    refine ⟨upTo, hUpTo, hCovers.lines_eq ▸ hStops.starts.map LineOutcome.line, ?_⟩
    intro outcome hMem
    exact hCovers.reads outcome (hStops.starts.subset hMem)

end Program

namespace Command

/-- A run on a source comes to its end, for the lines that it reads. -/
theorem exists_runSource (options : Options) (format : OutputFormat) (source : String) :
    ∃ outcomes, outcomes.map LineOutcome.line <+: Source.lines source ∧
      (∀ outcome ∈ outcomes, outcome.Reads (mode options)) ∧
      runSource options format source = .ok
        { entries := recordEntries format (Program.records outcomes) ++
            failureEntries ((Program.failedLines options.input outcomes).map FailedLine.report)
          exitCode := if Program.failedLines options.input outcomes = [] then 0 else 1 } := by
  obtain ⟨outcomes, hOutcomes, hStarts, hReads⟩ :=
    Program.exists_reads (mode options) options.failFast (Source.lines source)
  exact ⟨outcomes, hStarts, hReads, runSource_eq options format source hOutcomes hReads⟩

end Command

end LineBasic
