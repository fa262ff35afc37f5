import LineBasic.Proofs.Pieces

/-! # Splitting: the lines of a text that is put together from two

A text of several lines has the lines of its parts, the later ones further down. The byte order mark is looked
for at the very start only, so the second part must not begin with one.
-/
namespace LineBasic
set_option autoImplicit false

/-- The same line `k` places further down. -/
def SourceLine.shift (k : Nat) (line : SourceLine) : SourceLine := ⟨line.index + k, line.text⟩

namespace Source

/-- What is to be known about the lines of a text, whatever the text. -/
structure Splits (source : String) : Prop where
  append : ∀ other : String, other.toList.head? ≠ some '\uFEFF' →
    lines (source ++ "\n" ++ other) =
      lines source ++ (lines other).map (SourceLine.shift (1 + source.toList.count '\n'))
  text : ∀ line ∈ lines source, '\n' ∉ line.text.toList ∧ ∃ c ∈ line.text.toList, Text.isSpace c = false
  order : (lines source).Pairwise fun earlier later => earlier.index < later.index
  single : '\n' ∉ source.toList →
    let unmarked := if source.toList.head? = some '\uFEFF' then source.toList.tail else source.toList
    let text := if unmarked.getLast? = some '\r' then unmarked.dropLast else unmarked
    lines source = if text.all Text.isSpace then [] else [⟨1, String.ofList text⟩]

theorem pieces_append (text rest : List Char) : pieces (text ++ '\n' :: rest) = pieces text ++ pieces rest := by
  rw [pieces, pieces, pieces]
  exact List.splitOnP_append_cons text rest rfl

theorem length_pieces (text : List Char) : (pieces text).length = 1 + text.count '\n' := by
  induction text with
  | nil => rfl
  | cons c rest ih =>
    rw [pieces_cons]
    split
    · rename_i hFeed
      rw [hFeed, List.count_cons_self, List.length_cons, ih, Nat.add_assoc]
    · rename_i hOther
      rw [List.length_modifyHead, ih, List.count_cons_of_ne hOther]

theorem pieces_of_notMem {text : List Char} (h : '\n' ∉ text) : pieces text = [text] := by
  obtain ⟨piece, hPiece⟩ := List.length_eq_one_iff.mp ((length_pieces text).trans
    (congrArg (1 + ·) (List.count_eq_zero_of_not_mem h)))
  have hText := intercalate_pieces text
  rw [hPiece] at hText ⊢
  simpa using hText

theorem withoutMark_eq (text : List Char) :
    withoutMark text = if text.head? = some '\uFEFF' then text.tail else text := by
  cases text with
  | nil => rfl
  | cons c rest =>
    rw [withoutMark, List.head?_cons, List.tail_cons]
    simp only [Option.some.injEq]
    rfl

theorem withoutMark_of_head? {text : List Char} (h : text.head? ≠ some '\uFEFF') : withoutMark text = text := by
  rw [withoutMark_eq, if_neg h]

theorem count_withoutMark (text : List Char) : (withoutMark text).count '\n' = text.count '\n' := by
  cases text with
  | nil => rfl
  | cons c rest =>
    rw [withoutMark]
    split
    · rename_i hMark
      rw [hMark, List.count_cons_of_ne (by decide)]
    · rfl

theorem withoutMark_append (text rest : List Char) :
    withoutMark (text ++ '\n' :: rest) = withoutMark text ++ '\n' :: rest := by
  cases text with
  | nil => exact withoutMark_of_head? (by simp)
  | cons c text =>
    rw [List.cons_append, withoutMark, withoutMark]
    split <;> rfl

theorem lineOfPiece?_shift (k : Nat) (piece : List Char) (index : Nat) :
    lineOfPiece? (piece, index + k) = (lineOfPiece? (piece, index)).map (SourceLine.shift k) := by
  rw [lineOfPiece?, lineOfPiece?]
  dsimp only
  split <;> rfl

/-- Pieces counted from further on: blank ones are left out after they were counted. -/
theorem filterMap_lineOfPiece?_shift (k : Nat) (all : List (List Char)) (first : Nat) :
    (all.zipIdx (first + k)).filterMap lineOfPiece? =
      ((all.zipIdx first).filterMap lineOfPiece?).map (SourceLine.shift k) := by
  induction all generalizing first with
  | nil => rfl
  | cons piece all ih =>
    rw [List.zipIdx_cons, List.zipIdx_cons, Nat.add_right_comm, List.filterMap_cons, List.filterMap_cons,
      lineOfPiece?_shift, ih]
    cases lineOfPiece? (piece, first) <;> rfl

theorem lines_append (source : String) {other : String} (h : other.toList.head? ≠ some '\uFEFF') :
    lines (source ++ "\n" ++ other) =
      lines source ++ (lines other).map (SourceLine.shift (1 + source.toList.count '\n')) := by
  have hText : (source ++ "\n" ++ other).toList = source.toList ++ '\n' :: other.toList := by simp
  rw [lines, hText, withoutMark_append, pieces_append, List.zipIdx_append, List.filterMap_append, length_pieces,
    count_withoutMark, filterMap_lineOfPiece?_shift, lines, lines, withoutMark_of_head? h]

example : lines ("" ++ "\n" ++ "\uFEFF10") ≠ (lines "\uFEFF10").map (SourceLine.shift 1) := by decide

theorem Holds.text {source : String} {line : SourceLine} (h : Holds source line) :
    '\n' ∉ line.text.toList ∧ ∃ c ∈ line.text.toList, Text.isSpace c = false := by
  obtain @⟨i, piece, hPiece, hText⟩ := h
  rw [← pieces] at hPiece
  have hFeed := not_mem_of_mem_pieces (List.mem_of_getElem? hPiece)
  have hBlank : Text.isBlank (withoutReturn piece) = false := by
    rw [isBlank_withoutReturn, Text.isBlank]
    simpa using hText
  rw [String.toList_ofList]
  constructor
  · intro hMem
    rw [withoutReturn] at hMem
    split at hMem
    · exact hFeed (List.dropLast_subset piece hMem)
    · exact hFeed hMem
  · rw [Text.isBlank] at hBlank
    simpa using hBlank

/-- The lines of a text that is not looked through for a mark, with its pieces counted from a given place. -/
def linesFrom (first : Nat) (text : List Char) : List SourceLine := ((pieces text).zipIdx first).filterMap lineOfPiece?

theorem lines_eq_linesFrom (source : String) : lines source = linesFrom 1 (withoutMark source.toList) := rfl

theorem linesFrom_of_notMem {text : List Char} (h : '\n' ∉ text) (first : Nat) :
    linesFrom first text = (lineOfPiece? (text, first)).toList := by
  rw [linesFrom, pieces_of_notMem h]
  cases hLine : lineOfPiece? (text, first) <;> simp [hLine]

theorem lines_of_notMem {source : String} (h : '\n' ∉ source.toList) :
    lines source = (lineOfPiece? (withoutMark source.toList, 1)).toList := by
  have hFeed : '\n' ∉ withoutMark source.toList := by
    rwa [← List.count_eq_zero, count_withoutMark, List.count_eq_zero]
  rw [lines_eq_linesFrom, linesFrom_of_notMem hFeed]

theorem splits (source : String) : Splits source where
  append _ h := lines_append source h
  text line h := (mem_lines_iff.mp h).text
  order := lines_pairwise source
  single h := by
    intro unmarked text
    have hText : withoutReturn (withoutMark source.toList) = text := congrArg withoutReturn (withoutMark_eq _)
    rw [lines_of_notMem h, lineOfPiece?, hText, Text.isBlank]
    dsimp only
    split <;> rfl

/-- Blank lines on either side of the place where the texts are joined. -/
theorem splits_blank :
    let source := "\uFEFF10 PRINT\r\n \n"
    let other := "\r\n20 ?"
    other.toList.head? ≠ some '\uFEFF' ∧
      lines (source ++ "\n" ++ other) =
        lines source ++ (lines other).map (SourceLine.shift (1 + source.toList.count '\n')) ∧
      '\n' ∉ "\uFEFF10\r".toList ∧ lines "\uFEFF10\r" = [⟨1, "10"⟩] := by
  intro source other
  have hMark : other.toList.head? ≠ some '\uFEFF' := by decide
  have hFeed : '\n' ∉ "\uFEFF10\r".toList := by decide
  exact ⟨hMark, (splits source).append other hMark, hFeed, (splits "\uFEFF10\r").single hFeed⟩

end Source

end LineBasic
