import LineBasic.Proofs.Splitting
import LineBasic.Proofs.Totality

/-! # Line endings and the byte order mark: what a file has of them is no part of the program

A carriage return is dropped at the end of a piece, and a mark at the start of the text. Neither is looked for
anywhere else, so a text is read alike with and without them, down to what is reported of its lines.
-/
namespace LineBasic
set_option autoImplicit false

namespace Source

/-- The text with a carriage return before every line feed. -/
def withReturns (text : List Char) : List Char := text.flatMap fun c => if c = '\n' then ['\r', '\n'] else [c]

/-- What becomes of a source: the outcomes of its lines, the records among them and the reports of the others. -/
structure Yields (mode : Mode) (failFast : Bool) (filename source : String) (outcomes : List LineOutcome)
    (records : List IndexedRecord) (reports : List (Option String)) : Prop where
  outcomes_eq : Program.tokenize mode failFast (lines source) = .ok outcomes
  records_eq : Program.records outcomes = records
  reports_eq : Program.reports filename outcomes = .ok reports

/-- The two texts have the same lines at the same places, and the same becomes of them. -/
structure SameProgram (source other : String) : Prop where
  lines_eq : lines other = lines source
  yields : ∀ mode failFast filename, ∃ outcomes records reports,
    Yields mode failFast filename source outcomes records reports ∧
      Yields mode failFast filename other outcomes records reports
  logged : ∀ options format, ∃ transcript, Command.runSource options format source = .ok transcript ∧
    Command.runSource options format other = .ok transcript

theorem SameProgram.of_lines {source other : String} (h : lines other = lines source) : SameProgram source other where
  lines_eq := h
  yields mode failFast filename := by
    obtain ⟨outcomes, hOutcomes, -, hReads⟩ := Program.exists_reads mode failFast (lines source)
    have hReports := Program.reports_eq hReads filename
    exact ⟨outcomes, _, _, ⟨hOutcomes, rfl, hReports⟩, ⟨h ▸ hOutcomes, rfl, hReports⟩⟩
  logged options format := by
    obtain ⟨outcomes, -, -, hRun⟩ := Command.exists_runSource options format source
    refine ⟨_, hRun, ?_⟩
    rw [Command.runSource, h]
    exact hRun

theorem linesFrom_append {piece : List Char} (h : '\n' ∉ piece) (rest : List Char) (first : Nat) :
    linesFrom first (piece ++ '\n' :: rest) = (lineOfPiece? (piece, first)).toList ++ linesFrom (first + 1) rest := by
  rw [← linesFrom_of_notMem h, linesFrom, linesFrom, linesFrom, pieces_append, pieces_of_notMem h, List.zipIdx_append,
    List.filterMap_append]
  rfl

theorem withReturns_cons_of_ne {c : Char} (h : c ≠ '\n') (text : List Char) :
    withReturns (c :: text) = c :: withReturns text := by
  rw [withReturns, List.flatMap_cons, if_neg h]
  rfl

theorem withReturns_of_notMem {text : List Char} (h : '\n' ∉ text) : withReturns text = text := by
  induction text with
  | nil => rfl
  | cons c text ih =>
    obtain ⟨hFirst, hRest⟩ := not_or.mp (mt List.mem_cons.mpr h)
    rw [withReturns_cons_of_ne (Ne.symm hFirst), ih hRest]

theorem withReturns_append {piece : List Char} (h : '\n' ∉ piece) (rest : List Char) :
    withReturns (piece ++ '\n' :: rest) = piece ++ ['\r'] ++ '\n' :: withReturns rest := by
  rw [withReturns, List.flatMap_append, ← withReturns, withReturns_of_notMem h, List.flatMap_cons, ← withReturns]
  simp

theorem lineOfPiece?_return {piece : List Char} (h : piece.getLast? ≠ some '\r') (index : Nat) :
    lineOfPiece? (piece ++ ['\r'], index) = lineOfPiece? (piece, index) := by
  have hReturn : withoutReturn (piece ++ ['\r']) = piece := by simp [withoutReturn]
  have hPiece : withoutReturn piece = piece := by rw [withoutReturn, if_neg h]
  rw [lineOfPiece?, lineOfPiece?, hReturn, hPiece]

theorem linesFrom_withReturns {text : List Char} (h : ¬ ['\r', '\n'] <:+: text) (first : Nat) :
    linesFrom first (withReturns text) = linesFrom first text := by
  by_cases hFeed : '\n' ∈ text
  -- The induction is on what is behind the first piece, which is counted from one place further down.
  · obtain ⟨piece, rest, hText, hPiece⟩ := List.eq_append_cons_of_mem hFeed
    subst hText
    have hReturn : piece.getLast? ≠ some '\r' := by
      intro hLast
      obtain ⟨before, rfl⟩ := List.getLast?_eq_some_iff.mp hLast
      exact h ⟨before, rest, by simp⟩
    have hRest : ¬ ['\r', '\n'] <:+: rest := by
      intro hInside
      exact h ((hInside.trans (List.suffix_cons '\n' rest).isInfix).trans (List.suffix_append piece _).isInfix)
    have hEnded : '\n' ∉ piece ++ ['\r'] := by simp [hPiece]
    rw [withReturns_append hPiece, linesFrom_append hEnded, linesFrom_append hPiece, lineOfPiece?_return hReturn,
      linesFrom_withReturns hRest]
  · rw [withReturns_of_notMem hFeed]
termination_by text.length
decreasing_by
  subst_vars
  simp
  omega

theorem withoutMark_withReturns (text : List Char) : withoutMark (withReturns text) = withReturns (withoutMark text) := by
  cases text with
  | nil => rfl
  | cons c text =>
    by_cases hFeed : c = '\n'
    · subst hFeed
      rfl
    · rw [withReturns_cons_of_ne hFeed, withoutMark, withoutMark]
      split
      · rfl
      · exact (withReturns_cons_of_ne hFeed text).symm

theorem withoutMark_suffix (text : List Char) : withoutMark text <:+ text := by
  cases text with
  | nil => exact List.suffix_rfl
  | cons c text =>
    rw [withoutMark]
    split
    · exact List.suffix_cons c text
    · exact List.suffix_rfl

/-- Carriage returns before the line feeds change nothing where there was none, and a mark changes nothing
where there was none. -/
theorem sameProgram (source : String) :
    (¬ ['\r', '\n'] <:+: source.toList → SameProgram source (String.ofList (withReturns source.toList))) ∧
    (source.toList.head? ≠ some '\uFEFF' → SameProgram source ("\uFEFF" ++ source)) := by
  constructor
  · intro h
    have hUnmarked : ¬ ['\r', '\n'] <:+: withoutMark source.toList := by
      intro hInside
      exact h (hInside.trans (withoutMark_suffix source.toList).isInfix)
    apply SameProgram.of_lines
    rw [lines_eq_linesFrom, String.toList_ofList, withoutMark_withReturns, linesFrom_withReturns hUnmarked]
    rfl
  · intro h
    have hMarked : withoutMark ("\uFEFF" ++ source).toList = source.toList := by
      rw [String.toList_append]
      rfl
    apply SameProgram.of_lines
    rw [lines_eq_linesFrom, hMarked, lines_eq_linesFrom, withoutMark_of_head? h]

/-- A line of nothing, a carriage return inside a line and one at the very end, and a mark that is not first. -/
theorem sameProgram_returns :
    let source := "10 PRINT\n\n\uFEFF\r20 ?\r"
    let lines := [⟨1, "10 PRINT"⟩, ⟨3, "\uFEFF\r20 ?"⟩]
    ¬ ['\r', '\n'] <:+: source.toList ∧ source.toList.head? ≠ some '\uFEFF' ∧ Source.lines source = lines ∧
      SameProgram source "10 PRINT\r\n\r\n\uFEFF\r20 ?\r" ∧
      SameProgram source "\uFEFF10 PRINT\n\n\uFEFF\r20 ?\r" := by
  intro source lines
  have hReturn : ¬ ['\r', '\n'] <:+: source.toList := by decide
  have hMark : source.toList.head? ≠ some '\uFEFF' := by decide
  have hReturned : String.ofList (withReturns source.toList) = "10 PRINT\r\n\r\n\uFEFF\r20 ?\r" := by decide
  obtain ⟨hReturns, hMarked⟩ := sameProgram source
  exact ⟨hReturn, hMark, by decide, hReturned ▸ hReturns hReturn, hMarked hMark⟩

end Source

end LineBasic
