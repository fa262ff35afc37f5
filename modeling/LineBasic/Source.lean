import LineBasic.Text.Space

/-! # Source texts: their lines, numbered from one, without those that are blank -/
namespace LineBasic
set_option autoImplicit false

structure SourceLine where
  index : Nat
  text : String
  deriving DecidableEq, Repr

namespace Source

def pieces (text : List Char) : List (List Char) := text.splitOn '\n'

theorem pieces_cons (c : Char) (rest : List Char) :
    pieces (c :: rest) = if c = '\n' then [] :: pieces rest else (pieces rest).modifyHead (c :: ·) := by
  rw [pieces, List.splitOn_eq_splitOnP, List.splitOnP_cons_eq_if_modifyHead, ← List.splitOn_eq_splitOnP, pieces]
  simp only [beq_iff_eq]

theorem pieces_ne_nil (text : List Char) : pieces text ≠ [] := List.splitOnP_ne_nil _ text

theorem intercalate_pieces (text : List Char) : ['\n'].intercalate (pieces text) = text := List.intercalate_splitOn '\n'

def byteOrderMark : Char := Char.ofNat 0xFEFF

/-- One byte order mark at the very start is no part of the text. -/
def withoutMark : List Char → List Char
  | [] => []
  | c :: rest => if c = byteOrderMark then rest else c :: rest

/-- A carriage return before the line feed belongs to the line ending. -/
def withoutReturn (piece : List Char) : List Char :=
  if piece.getLast? = some '\r' then piece.dropLast else piece

/-- Blank pieces are counted and left out. -/
def lineOfPiece? (piece : List Char × Nat) : Option SourceLine :=
  let text := withoutReturn piece.1
  if Text.isBlank text then none else some ⟨piece.2, String.ofList text⟩

def lines (source : String) : List SourceLine :=
  ((pieces (withoutMark source.toList)).zipIdx 1).filterMap lineOfPiece?

end Source

end LineBasic
