import LineBasic.Diagnostic

/-! # Reports: a diagnostic over its source line, with a caret below the offending character

The gutter holds the number of the line and is as wide on the rows without one, so that the caret
stands below the character at the offset.
-/
namespace LineBasic
set_option autoImplicit false

/-- Where the diagnosed line comes from; without a file it is the only line of some input. -/
structure Location where
  filename : String := "<input>"
  line : Number := .whole 1

/-- A caret can not stand before the start of its line. -/
structure CaretError where
  offset : Number
  deriving DecidableEq, Repr

def CaretError.message (error : CaretError) : String := "Invalid count value: " ++ error.offset.text

namespace Report

def spaces (n : Nat) : String := String.ofList (List.replicate n ' ')

def gutter (content : String) : String := " " ++ content ++ " | "

def emptyGutter (line : Number) : String := gutter (spaces line.text.length)

def header (diagnostic : LexDiagnostic) : String :=
  diagnostic.definition.severity.label ++ "[" ++ diagnostic.definition.code ++ "]: " ++ diagnostic.message

/-- Columns are counted from one. -/
def place (location : Location) (offset : Number) : String :=
  "  --> " ++ location.filename ++ ":" ++ location.line.text ++ ":" ++ offset.succ.text

def excerpt (line : Number) (sourceLine : String) (column : Nat) : List String :=
  [emptyGutter line, gutter line.text ++ sourceLine, emptyGutter line ++ spaces column ++ "^"]

def help (diagnostic : LexDiagnostic) (line : Number) : List String :=
  match diagnostic.definition.suggestion with
  | none => []
  | some suggestion =>
    if suggestion.isEmpty then []
    else [emptyGutter line, "   = help: " ++ Text.interpolate suggestion diagnostic.args.value?]

def rows (diagnostic : LexDiagnostic) (sourceLine : String) (location : Location) (column : Nat) :
    List String :=
  [header diagnostic, place location diagnostic.offset] ++
    excerpt location.line sourceLine column ++ help diagnostic location.line

/-- The column of the caret is the whole part of the offset. -/
def column (offset : Number) : Except CaretError Nat :=
  match offset.wholePart? with
  | some (.ofNat n) => .ok n
  | _ => .error ⟨offset⟩

theorem column_whole (n : Nat) : column (.whole n) = .ok n := rfl

end Report

def LexDiagnostic.report (diagnostic : LexDiagnostic) (sourceLine : String) (location : Location) :
    Except CaretError String :=
  (Report.column diagnostic.offset).map fun column =>
    "\n".intercalate (Report.rows diagnostic sourceLine location column)

end LineBasic
