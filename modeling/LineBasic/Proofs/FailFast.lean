import Mathlib
import LineBasic.Proofs.Account

/-! # Stopping at the first failure

A run that stops at the first line that fails is a run to the end of a shorter source: the pieces up to
that line. The mark at the start and the places of the lines are the same in both, and so is all that is
logged.
-/
namespace LineBasic
set_option autoImplicit false

def SourceLine.Fails (mode : Mode) (line : SourceLine) : Prop :=
  ∃ diagnostic, tokenize mode line.text = .ok (.rejected diagnostic)

theorem SourceLine.exists_record {mode : Mode} {line : SourceLine} (h : ¬ line.Fails mode) :
    ∃ record, tokenize mode line.text = .ok (.accepted record) := by
  obtain ⟨reading, hReading⟩ := exists_reading mode line.text
  cases reading with
  | accepted record => exact ⟨record, hReading⟩
  | rejected diagnostic => exact False.elim (h ⟨diagnostic, hReading⟩)

namespace Source

/-- The first pieces of a source, with the line feeds between them. -/
def truncate (count : Nat) (source : String) : String :=
  String.ofList (['\n'].intercalate ((source.toList.splitOn '\n').take count))

structure FirstFailure (mode : Mode) (source : String) (index : Nat) : Prop where
  fails : ∃ line, Holds source line ∧ line.index = index ∧ line.Fails mode
  first : ∀ line, Holds source line → line.index < index → ¬ line.Fails mode

theorem pieces_intercalate_take {count : Nat} (text : List Char) (hCount : 0 < count) :
    pieces (['\n'].intercalate ((pieces text).take count)) = (pieces text).take count := by
  rw [pieces]
  apply List.splitOn_intercalate
  · intro piece hPiece
    exact not_mem_of_mem_pieces (List.mem_of_mem_take hPiece)
  · obtain ⟨first, others, hPieces⟩ := List.exists_cons_of_ne_nil (pieces_ne_nil text)
    obtain ⟨n, rfl⟩ := Nat.exists_eq_succ_of_ne_zero (Nat.ne_of_gt hCount)
    rw [hPieces, List.take_succ_cons]
    exact List.cons_ne_nil _ _

/-- The mark belongs to the first piece, which is never cut off. -/
theorem withoutMark_intercalate_take {count : Nat} (text : List Char) (hCount : 0 < count) :
    withoutMark (['\n'].intercalate ((pieces text).take count)) =
      ['\n'].intercalate ((pieces (withoutMark text)).take count) := by
  obtain ⟨n, rfl⟩ := Nat.exists_eq_succ_of_ne_zero (Nat.ne_of_gt hCount)
  cases text with
  | nil => simp [pieces, withoutMark]
  | cons c rest =>
    obtain ⟨first, others, hPieces⟩ := List.exists_cons_of_ne_nil (pieces_ne_nil rest)
    by_cases hFeed : c = '\n'
    · subst hFeed
      have hMark (after : List Char) : withoutMark ('\n' :: after) = '\n' :: after := by
        rw [withoutMark, if_neg (by decide)]
      rw [hMark, pieces_cons, if_pos rfl, List.take_succ_cons]
      cases (pieces rest).take n with
      | nil => rfl
      | cons second later =>
        rw [List.intercalate_cons_cons]
        exact hMark _
    · have hJoined : ['\n'].intercalate ((pieces (c :: rest)).take (n + 1)) =
          c :: ['\n'].intercalate ((pieces rest).take (n + 1)) := by
        rw [pieces_cons, if_neg hFeed, hPieces, List.modifyHead_cons, List.take_succ_cons, List.take_succ_cons]
        cases others.take n with
        | nil => simp
        | cons second later => simp [List.intercalate_cons_cons]
      rw [hJoined, withoutMark, withoutMark]
      split
      · rfl
      · exact hJoined.symm

theorem exists_lines_eq_append {count : Nat} (source : String) (hCount : 0 < count) :
    ∃ later, lines source = lines (truncate count source) ++ later ∧
      (∀ line ∈ lines (truncate count source), line.index ≤ count) ∧ ∀ line ∈ later, count < line.index := by
  have hLines : lines (truncate count source) =
      (((pieces (withoutMark source.toList)).take count).zipIdx 1).filterMap lineOfPiece? := by
    rw [lines, truncate, String.toList_ofList, ← pieces, withoutMark_intercalate_take _ hCount,
      pieces_intercalate_take _ hCount]
  rw [hLines, lines]
  generalize pieces (withoutMark source.toList) = all
  have hIndex {piece : List Char × Nat} {line : SourceLine} (h : lineOfPiece? piece = some line) :
      line.index = piece.2 := by
    obtain ⟨-, rfl⟩ := lineOfPiece?_eq_some_iff.mp h
    rfl
  -- Pieces are numbered before the empty ones are left out, so a cut between pieces is a bound on indices.
  refine ⟨((all.drop count).zipIdx (1 + (all.take count).length)).filterMap lineOfPiece?, ?split, ?low, ?high⟩
  case split =>
    rw [← List.filterMap_append, ← List.zipIdx_append, List.take_append_drop]
  case low =>
    intro line hMem
    obtain ⟨⟨piece, place⟩, hPiece, hLine⟩ := List.mem_filterMap.mp hMem
    obtain ⟨-, hPlace, -⟩ := List.mem_zipIdx hPiece
    have hLength := List.length_take_le count all
    rw [hIndex hLine]
    dsimp only
    omega
  case high =>
    intro line hMem
    obtain ⟨⟨piece, place⟩, hPiece, hLine⟩ := List.mem_filterMap.mp hMem
    obtain ⟨hFrom, hPlace, -⟩ := List.mem_zipIdx hPiece
    rw [List.length_take, List.length_drop] at hPlace
    rw [List.length_take] at hFrom
    rw [hIndex hLine]
    dsimp only
    omega

/-- Up to its first failing line a source has the lines of its first pieces; that line is the last of them. -/
theorem FirstFailure.exists_lines {mode : Mode} {source : String} {index : Nat}
    (h : FirstFailure mode source index) :
    ∃ before line later, lines (truncate index source) = before ++ [line] ∧
      lines source = before ++ line :: later ∧ (∀ earlier ∈ before, ¬ earlier.Fails mode) ∧ line.Fails mode := by
  obtain ⟨line, hHolds, rfl, hFails⟩ := h.fails
  have hPositive : 0 < line.index := by
    cases hHolds
    exact Nat.succ_pos _
  obtain ⟨later, hLines, hLow, hHigh⟩ := exists_lines_eq_append source hPositive
  have hMem : line ∈ lines (truncate line.index source) := by
    have hAll := mem_lines_iff.mpr hHolds
    rw [hLines] at hAll
    rcases List.mem_append.mp hAll with hHere | hThere
    · exact hHere
    · exact False.elim (Nat.lt_irrefl _ (hHigh line hThere))
  obtain ⟨before, rest, hSplit⟩ := List.append_of_mem hMem
  have hOrder := lines_pairwise (truncate line.index source)
  rw [hSplit] at hLow hOrder
  obtain ⟨-, hRest, hBefore⟩ := List.pairwise_append.mp hOrder
  -- The failing line has the index of the last piece, so nothing can come behind it.
  have hNil : rest = [] := by
    apply List.eq_nil_iff_forall_not_mem.mpr
    intro other hOther
    have hLess := (List.pairwise_cons.mp hRest).1 other hOther
    have hMost := hLow other (List.mem_append_right before (List.mem_cons_of_mem line hOther))
    omega
  subst hNil
  refine ⟨before, line, later, hSplit, ?_, ?_, hFails⟩
  · rw [hLines, hSplit, List.append_assoc]
    rfl
  · intro earlier hEarlier
    refine h.first earlier ?_ (hBefore earlier hEarlier line List.mem_cons_self)
    rw [← mem_lines_iff, hLines, hSplit]
    exact List.mem_append_left later (List.mem_append_left [line] hEarlier)

end Source

namespace Program

/-- The outcomes of a run that stops at the first failure, told against those of a run to the end: the
shortest part at the start that has the first failure in it, or everything if there is none. -/
structure UpToFailure (all upTo : List LineOutcome) : Prop where
  starts : upTo <+: all
  whole : (∀ outcome ∈ all, outcome.failed = false) → upTo = all
  failing : ∀ outcome, all.find? LineOutcome.failed = some outcome → outcome ∈ upTo
  shortest : ∀ outcome other, all.find? LineOutcome.failed = some outcome → other <+: all → outcome ∈ other →
    upTo <+: other

theorem UpToFailure.refl {all : List LineOutcome} (h : ∀ outcome ∈ all, outcome.failed = false) :
    UpToFailure all all where
  starts := List.prefix_rfl
  whole _ := rfl
  failing _ hFirst := List.mem_of_find?_eq_some hFirst
  shortest outcome _ hFirst _ _ := by
    have hFailed := List.find?_some hFirst
    rw [h outcome (List.mem_of_find?_eq_some hFirst)] at hFailed
    cases hFailed

theorem UpToFailure.append {before : List LineOutcome} {outcome : LineOutcome}
    (hBefore : ∀ earlier ∈ before, earlier.failed = false) (hFailed : outcome.failed = true)
    (after : List LineOutcome) : UpToFailure (before ++ outcome :: after) (before ++ [outcome]) := by
  have hStarts : before ++ [outcome] <+: before ++ outcome :: after := ⟨after, by rw [List.append_assoc]; rfl⟩
  have hFind : (before ++ outcome :: after).find? LineOutcome.failed = some outcome := by
    rw [List.find?_eq_some_iff_append]
    refine ⟨hFailed, before, after, rfl, ?_⟩
    intro earlier hEarlier
    rw [hBefore earlier hEarlier]
    rfl
  refine ⟨hStarts, ?whole, ?failing, ?shortest⟩
  case whole =>
    intro hNone
    cases hFailed.symm.trans (hNone outcome (by simp))
  case failing =>
    intro first hFirst
    cases hFind.symm.trans hFirst
    exact List.mem_append_right before List.mem_cons_self
  case shortest =>
    intro first other hFirst hOther hMem
    cases hFind.symm.trans hFirst
    apply List.prefix_of_prefix_length_le hStarts hOther
    apply Nat.le_of_not_lt
    -- A shorter part would be one of the outcomes before the failure, of which none failed.
    intro hShort
    have hInside : other <+: before := by
      apply List.prefix_of_prefix_length_le hOther (List.prefix_append before _)
      rw [List.length_append, List.length_singleton] at hShort
      omega
    cases hFailed.symm.trans (hBefore outcome (hInside.subset hMem))

theorem exists_tokenize_append {mode : Mode} {before : List SourceLine} (h : ∀ line ∈ before, ¬ line.Fails mode) :
    ∃ outcomes : List LineOutcome, (∀ outcome ∈ outcomes, outcome.failed = false) ∧ ∀ failFast rest,
      tokenize mode failFast (before ++ rest) = (tokenize mode failFast rest).map (outcomes ++ ·) := by
  induction before with
  | nil =>
    refine ⟨[], nofun, ?_⟩
    intro failFast rest
    rw [List.nil_append]
    cases tokenize mode failFast rest <;> rfl
  | cons line before ih =>
    obtain ⟨hLine, hBefore⟩ := List.forall_mem_cons.mp h
    obtain ⟨record, hRecord⟩ := SourceLine.exists_record hLine
    obtain ⟨outcomes, hOutcomes, hTokenize⟩ := ih hBefore
    refine ⟨⟨line, .accepted record⟩ :: outcomes, List.forall_mem_cons.mpr ⟨rfl, hOutcomes⟩, ?_⟩
    intro failFast rest
    have hGoesOn : (failFast && !(Reading.accepted record).isAccepted) = false := Bool.and_false failFast
    rw [List.cons_append, tokenize_cons hRecord, hGoesOn, hTokenize]
    cases tokenize mode failFast rest <;> rfl

theorem tokenize_failFast_of_not_fails {mode : Mode} {lines : List SourceLine}
    (h : ∀ line ∈ lines, ¬ line.Fails mode) : tokenize mode true lines = tokenize mode false lines := by
  obtain ⟨outcomes, -, hTokenize⟩ := exists_tokenize_append h
  have hSame (failFast : Bool) := hTokenize failFast []
  rw [List.append_nil] at hSame
  rw [hSame true, hSame false]
  rfl

theorem tokenize_failFast_append {mode : Mode} {before : List SourceLine} {line : SourceLine}
    (h : ∀ earlier ∈ before, ¬ earlier.Fails mode) (hFails : line.Fails mode) (later : List SourceLine) :
    tokenize mode true (before ++ line :: later) = tokenize mode false (before ++ [line]) := by
  obtain ⟨outcomes, -, hTokenize⟩ := exists_tokenize_append h
  obtain ⟨diagnostic, hReading⟩ := hFails
  rw [hTokenize, hTokenize, tokenize_cons hReading, tokenize_cons hReading]
  rfl

theorem not_fails_or_exists (mode : Mode) (lines : List SourceLine) :
    (∀ line ∈ lines, ¬ line.Fails mode) ∨ ∃ before line later, lines = before ++ line :: later ∧
      (∀ earlier ∈ before, ¬ earlier.Fails mode) ∧ line.Fails mode := by
  induction lines with
  | nil => exact .inl nofun
  | cons line rest ih =>
    by_cases hFails : line.Fails mode
    · exact .inr ⟨[], line, rest, rfl, nofun, hFails⟩
    · rcases ih with hNone | ⟨before, first, later, rfl, hBefore, hFirst⟩
      · exact .inl (List.forall_mem_cons.mpr ⟨hFails, hNone⟩)
      · exact .inr ⟨line :: before, first, later, rfl, List.forall_mem_cons.mpr ⟨hFails, hBefore⟩, hFirst⟩

theorem exists_upToFailure (mode : Mode) (lines : List SourceLine) :
    ∃ all upTo, tokenize mode false lines = .ok all ∧ tokenize mode true lines = .ok upTo ∧
      UpToFailure all upTo := by
  rcases not_fails_or_exists mode lines with hNone | ⟨before, line, later, rfl, hBefore, hFails⟩
  · obtain ⟨outcomes, hOutcomes, hTokenize⟩ := exists_tokenize_append hNone
    have hAll (failFast : Bool) : tokenize mode failFast lines = .ok outcomes := by
      have hWhole := hTokenize failFast []
      rw [List.append_nil] at hWhole
      exact hWhole.trans (congrArg Except.ok (List.append_nil outcomes))
    exact ⟨outcomes, outcomes, hAll false, hAll true, .refl hOutcomes⟩
  · obtain ⟨outcomes, hOutcomes, hTokenize⟩ := exists_tokenize_append hBefore
    obtain ⟨diagnostic, hReading⟩ := hFails
    obtain ⟨rest, hRest, -⟩ := exists_covers mode later
    let failing : LineOutcome := ⟨line, .rejected diagnostic⟩
    refine ⟨outcomes ++ failing :: rest, outcomes ++ [failing], ?_, ?_, .append hOutcomes rfl rest⟩
    · rw [hTokenize, tokenize_cons hReading, hRest]
      rfl
    · rw [hTokenize, tokenize_cons hReading]
      rfl

end Program

namespace Command

/-- The file at the path has this text. -/
def FileHolds (read : String → Except Failure (List UInt8)) (path source : String) : Prop :=
  ∃ bytes, read path = .ok bytes ∧ Text.Utf8.decode bytes = source

theorem exists_transcript (options : Options) {source truncated : String}
    {read other : String → Except Failure (List UInt8)} (hRead : FileHolds read options.input source)
    (hOther : FileHolds other options.input truncated)
    (hSame : Program.tokenize (mode options) true (Source.lines source) =
      Program.tokenize (mode options) false (Source.lines truncated)) :
    ∃ transcript, run { options with failFast := true } read = .ok transcript ∧
      run { options with failFast := false } other = .ok transcript := by
  obtain ⟨bytes, hBytes, rfl⟩ := hRead
  obtain ⟨cut, hCut, rfl⟩ := hOther
  rw [run, run]
  dsimp only
  cases OutputFormat.ofName? options.format with
  | none => exact ⟨_, rfl, rfl⟩
  | some format =>
    rw [hBytes, hCut]
    dsimp only
    obtain ⟨outcomes, hOutcomes, hCovers⟩ :=
      Program.exists_covers (mode options) (Source.lines (Text.Utf8.decode cut))
    refine ⟨_, runSource_eq { options with failFast := true } format _ (hSame.trans hOutcomes) hCovers.reads, ?_⟩
    exact runSource_eq { options with failFast := false } format _ hOutcomes hCovers.reads

/-- Stopping at the first failure writes what a run to the end writes of the source up to that line. -/
theorem run_failFast (options : Options) {source : String} {read : String → Except Failure (List UInt8)}
    (hRead : FileHolds read options.input source) :
    ((∀ line, Source.Holds source line → ¬ line.Fails (mode options)) →
      ∃ transcript, run { options with failFast := true } read = .ok transcript ∧
        run { options with failFast := false } read = .ok transcript) ∧
    (∀ index other, Source.FirstFailure (mode options) source index →
      FileHolds other options.input (Source.truncate index source) →
        ∃ transcript, run { options with failFast := true } read = .ok transcript ∧
          run { options with failFast := false } other = .ok transcript) ∧
    ∀ lines, ∃ all upTo, Program.tokenize (mode options) false lines = .ok all ∧
      Program.tokenize (mode options) true lines = .ok upTo ∧ Program.UpToFailure all upTo := by
  refine ⟨?_, ?_, Program.exists_upToFailure (mode options)⟩
  · intro hNone
    apply exists_transcript options hRead hRead
    apply Program.tokenize_failFast_of_not_fails
    intro line hLine
    exact hNone line (Source.mem_lines_iff.mp hLine)
  · intro index other hFirst hOther
    obtain ⟨before, line, later, hTruncated, hLines, hBefore, hFails⟩ := hFirst.exists_lines
    apply exists_transcript options hRead hOther
    rw [hLines, hTruncated]
    exact Program.tokenize_failFast_append hBefore hFails later

/-- The third piece is the first to fail; with it gone, none does. -/
theorem run_failFast_third :
    let options : Options := ⟨"a.bas", "json", false, true⟩
    let source := "\uFEFF10 PRINT\r\n \n20 ?\n30 GOTO 10\nX"
    let read (text _ : String) : Except Failure (List UInt8) := .ok text.toUTF8.toList
    let whole := Source.truncate 2 source
    FileHolds (read source) options.input source ∧ Source.FirstFailure .strict source 3 ∧
      FileHolds (read (Source.truncate 3 source)) options.input (Source.truncate 3 source) ∧
      (∃ transcript, run { options with failFast := true } (read source) = .ok transcript ∧
        run { options with failFast := false } (read (Source.truncate 3 source)) = .ok transcript) ∧
      FileHolds (read whole) options.input whole ∧
      (∀ line, Source.Holds whole line → ¬ line.Fails .strict) ∧
      ∃ transcript, run { options with failFast := true } (read whole) = .ok transcript ∧
        run { options with failFast := false } (read whole) = .ok transcript := by
  intro options source read whole
  have hSource : FileHolds (read source) options.input source := ⟨_, rfl, by cbv⟩
  have hCut : FileHolds (read (Source.truncate 3 source)) options.input (Source.truncate 3 source) := ⟨_, rfl, by cbv⟩
  have hWhole : FileHolds (read (Source.truncate 2 source)) options.input (Source.truncate 2 source) :=
    ⟨_, rfl, by cbv⟩
  have hLines : Source.lines source = [⟨1, "10 PRINT"⟩, ⟨3, "20 ?"⟩, ⟨4, "30 GOTO 10"⟩, ⟨5, "X"⟩] := by decide
  have hWholeLines : Source.lines whole = [⟨1, "10 PRINT"⟩] := by decide
  have hAccepted : ¬ (SourceLine.mk 1 "10 PRINT").Fails .strict := by
    rintro ⟨diagnostic, hReading⟩
    have hRecord : tokenize .strict "10 PRINT" = .ok (.accepted ⟨⟨10, by decide⟩, [⟨3, .symbol .kwPrint⟩]⟩) := by cbv
    cases hRecord.symm.trans hReading
  have hFails : (SourceLine.mk 3 "20 ?").Fails .strict :=
    ⟨(Fault.unrecognizedToken 3 "?").diagnostic, by cbv⟩
  have hFirst : Source.FirstFailure .strict source 3 := by
    refine ⟨⟨_, Source.mem_lines_iff.mp ?_, rfl, hFails⟩, ?_⟩
    · simp [hLines]
    · intro line hLine hIndex
      rw [← Source.mem_lines_iff, hLines] at hLine
      simp only [List.mem_cons, List.not_mem_nil, or_false] at hLine
      rcases hLine with rfl | rfl | rfl | rfl
      · exact hAccepted
      all_goals simp at hIndex
  have hNone : ∀ line, Source.Holds whole line → ¬ line.Fails .strict := by
    intro line hLine
    rw [← Source.mem_lines_iff, hWholeLines] at hLine
    cases List.mem_singleton.mp hLine
    exact hAccepted
  exact ⟨hSource, hFirst, hCut, (run_failFast options hSource).2.1 3 _ hFirst hCut, hWhole, hNone,
    (run_failFast options hWhole).1 hNone⟩

end Command

end LineBasic
