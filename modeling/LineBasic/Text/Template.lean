/-! # Message templates: literal text with `{key}` placeholders, filled in one pass -/
namespace LineBasic.Text
set_option autoImplicit false

def isKeyChar (c : Char) : Bool := c.isAlphanum || c == '_'

inductive Template.Piece where
  | literal (c : Char)
  | placeholder (key : List Char)
  deriving DecidableEq, Repr

/-- A template is read from left to right; a brace that opens no placeholder is literal. -/
abbrev Template := List Template.Piece

namespace Template

def Piece.source : Piece → List Char
  | .literal c => [c]
  | .placeholder key => '{' :: (key ++ ['}'])

def source (template : Template) : List Char := template.flatMap Piece.source

/-- Right after an opening brace: a non-empty key and its closing brace, with the text after it. -/
def placeholder? (ahead : List Char) : Option (List Char × List Char) :=
  match ahead.takeWhile isKeyChar, ahead.dropWhile isKeyChar with
  | first :: key, '}' :: after => some (first :: key, after)
  | _, _ => none

theorem eq_of_placeholder? {ahead key after : List Char}
    (h : placeholder? ahead = some (key, after)) : ahead = key ++ '}' :: after := by
  have hSplit : ahead.takeWhile isKeyChar ++ ahead.dropWhile isKeyChar = ahead :=
    List.takeWhile_append_dropWhile
  unfold placeholder? at h
  split at h
  · rename_i hKey hAfter
    cases h
    rw [hKey, hAfter] at hSplit
    exact hSplit.symm
  · cases h

def opening? (c : Char) (rest : List Char) : Option (List Char × List Char) :=
  if c = '{' then placeholder? rest else none

theorem eq_of_opening? {c : Char} {rest key after : List Char}
    (h : opening? c rest = some (key, after)) : c = '{' ∧ rest = key ++ '}' :: after := by
  unfold opening? at h
  split at h
  · rename_i hBrace
    exact ⟨hBrace, eq_of_placeholder? h⟩
  · cases h

def parse : List Char → Template
  | [] => []
  | c :: rest =>
    match _h : opening? c rest with
    | some (key, after) => .placeholder key :: parse after
    | none => .literal c :: parse rest
termination_by text => text.length
decreasing_by
  · have hRest := congrArg List.length (eq_of_opening? ‹_›).2
    simp only [List.length_append, List.length_cons] at hRest ⊢
    omega
  · simp

/-- Reading loses nothing: a template is an analysis of its text. -/
theorem source_parse (text : List Char) : source (parse text) = text := by
  fun_induction parse text with
  | case1 => rfl
  | case2 c rest key after h ih =>
    obtain ⟨rfl, rfl⟩ := eq_of_opening? h
    simp only [source, List.flatMap_cons, Piece.source] at ih ⊢
    rw [ih]
    simp
  | case3 c rest h ih =>
    simp only [source, List.flatMap_cons, Piece.source] at ih ⊢
    rw [ih]
    rfl

def Piece.fill (value? : String → Option String) : Piece → List Char
  | .literal c => [c]
  | .placeholder key => ((value? (String.ofList key)).map String.toList).getD (Piece.placeholder key).source

/-- Every placeholder with a value gives way to it; a filled-in value is not read again. -/
def fill (value? : String → Option String) (template : Template) : List Char :=
  template.flatMap (Piece.fill value?)

end Template

def interpolate (message : String) (value? : String → Option String) : String :=
  String.ofList ((Template.parse message.toList).fill value?)

end LineBasic.Text
