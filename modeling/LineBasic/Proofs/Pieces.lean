import LineBasic.Source

/-! # Lines of a source: the pieces between line feeds that are not blank

Pieces are counted from one, the blank ones with the others, so a line keeps its place.
-/
namespace LineBasic
set_option autoImplicit false

namespace Text

/-- Rows with no line feed in them are the pieces of the text that they are joined into. -/
theorem splitOn_intercalate {rows : List String} (hRows : ∀ row ∈ rows, '\n' ∉ row.toList) (hNonempty : rows ≠ []) :
    ("\n".intercalate rows).toList.splitOn '\n' = rows.map String.toList := by
  rw [String.toList_intercalate]
  apply List.splitOn_intercalate
  · intro piece hPiece
    obtain ⟨row, hRow, rfl⟩ := List.mem_map.mp hPiece
    exact hRows row hRow
  · exact fun hNil => hNonempty (List.map_eq_nil_iff.mp hNil)

theorem head?_splitOn_intercalate {row : String} (rows : List String) (hRow : '\n' ∉ row.toList) :
    (("\n".intercalate (row :: rows)).toList.splitOn '\n').head? = some row.toList := by
  cases rows with
  | nil => rw [splitOn_intercalate (List.forall_mem_singleton.mpr hRow) (List.cons_ne_nil _ _), List.map, List.head?_cons]
  | cons next rows =>
    have hOther : ∀ c ∈ row.toList, (c == '\n') = false := by
      intro c hc
      rw [beq_eq_false_iff_ne]
      rintro rfl
      exact hRow hc
    rw [String.intercalate_cons_cons, String.toList_append, String.toList_append, List.append_assoc,
      List.splitOn_eq_splitOnP]
    exact congrArg List.head? (List.splitOnP_append_cons_of_forall_mem hOther '\n' rfl _)

end Text

namespace Source

theorem not_mem_of_mem_pieces {text piece : List Char} (h : piece ∈ pieces text) : '\n' ∉ piece := by
  induction text generalizing piece with
  | nil =>
    cases List.mem_singleton.mp h
    exact List.not_mem_nil
  | cons c rest ih =>
    obtain ⟨first, others, hPieces⟩ := List.exists_cons_of_ne_nil (pieces_ne_nil rest)
    rw [hPieces] at ih
    rw [pieces_cons, hPieces] at h
    split at h
    · rcases List.mem_cons.mp h with rfl | hRest
      · exact List.not_mem_nil
      · exact ih hRest
    · rename_i hFeed
      rcases List.mem_cons.mp h with rfl | hRest
      · apply mt List.mem_cons.mp
        rintro (hHere | hThere)
        · exact hFeed hHere.symm
        · exact ih List.mem_cons_self hThere
      · exact ih (List.mem_cons_of_mem first hRest)

/-- The source has this line: a piece of it that is not blank, at the index of the line. -/
inductive Holds (source : String) : SourceLine → Prop
  | piece {i : Nat} {piece : List Char}
      (hPiece : ((withoutMark source.toList).splitOn '\n')[i]? = some piece)
      (hText : ∃ c ∈ piece, Text.isSpace c = false) :
      Holds source ⟨i + 1, String.ofList (withoutReturn piece)⟩

theorem isBlank_withoutReturn (piece : List Char) :
    Text.isBlank (withoutReturn piece) = Text.isBlank piece := by
  rw [withoutReturn]
  split
  · rename_i hReturn
    obtain ⟨before, rfl⟩ := List.getLast?_eq_some_iff.mp hReturn
    have hSpace : Text.isSpace '\r' = true := by decide
    simp [Text.isBlank, hSpace]
  · rfl

theorem lineOfPiece?_eq_some_iff {piece : List Char} {index : Nat} {line : SourceLine} :
    lineOfPiece? (piece, index) = some line ↔
      (∃ c ∈ piece, Text.isSpace c = false) ∧ line = ⟨index, String.ofList (withoutReturn piece)⟩ := by
  rw [lineOfPiece?]
  simp only [isBlank_withoutReturn]
  rw [Text.isBlank]
  constructor
  · intro h
    split at h
    · cases h
    · rename_i hBlank
      cases h
      exact ⟨by simpa using hBlank, rfl⟩
  · rintro ⟨hText, rfl⟩
    rw [if_neg]
    simpa using hText

theorem mem_lines_iff {source : String} {line : SourceLine} : line ∈ lines source ↔ Holds source line := by
  rw [lines, List.mem_filterMap, pieces]
  constructor
  · rintro ⟨⟨piece, index⟩, hPiece, hLine⟩
    obtain ⟨hText, rfl⟩ := lineOfPiece?_eq_some_iff.mp hLine
    obtain ⟨hIndex, hPiece⟩ := List.mk_mem_zipIdx_iff_le_and_getElem?_sub.mp hPiece
    obtain ⟨i, rfl⟩ := Nat.exists_eq_add_of_le' hIndex
    exact .piece hPiece hText
  · rintro @⟨i, piece, hPiece, hText⟩
    refine ⟨(piece, i + 1), ?_, lineOfPiece?_eq_some_iff.mpr ⟨hText, rfl⟩⟩
    exact List.mk_mem_zipIdx_iff_le_and_getElem?_sub.mpr ⟨Nat.le_add_left 1 i, hPiece⟩

/-- The places of the pieces increase, and a line has the place of its piece. -/
theorem lines_pairwise (source : String) :
    (lines source).Pairwise fun earlier later => earlier.index < later.index := by
  have hPlaces : ((pieces (withoutMark source.toList)).zipIdx 1).Pairwise
      fun earlier later => earlier.2 < later.2 := by
    apply List.pairwise_map.mp
    change (((pieces (withoutMark source.toList)).zipIdx 1).map Prod.snd).Pairwise (· < ·)
    rw [List.zipIdx_map_snd]
    exact List.pairwise_lt_range'
  refine hPlaces.filterMap lineOfPiece? ?_
  rintro ⟨piece, place⟩ ⟨other, later⟩ hPlace line hLine otherLine hOther
  obtain ⟨-, rfl⟩ := lineOfPiece?_eq_some_iff.mp hLine
  obtain ⟨-, rfl⟩ := lineOfPiece?_eq_some_iff.mp hOther
  exact hPlace

example : lines "\uFEFF10 PRINT\r\n \r\n20 ?" = [⟨1, "10 PRINT"⟩, ⟨3, "20 ?"⟩] := by decide

theorem Holds.eq_of_index {source : String} {line other : SourceLine} (h : Holds source line)
    (hOther : Holds source other) (hIndex : line.index = other.index) : line = other := by
  obtain @⟨i, piece, hPiece, -⟩ := h
  obtain @⟨j, otherPiece, hOtherPiece, -⟩ := hOther
  obtain rfl : i = j := Nat.succ.inj hIndex
  cases hPiece.symm.trans hOtherPiece
  rfl

end Source

end LineBasic
