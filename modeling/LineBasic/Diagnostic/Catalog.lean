import LineBasic.Diagnostic.Definition

/-! # The catalog: every diagnostic of the tokenizer and of the command -/
namespace LineBasic
set_option autoImplicit false

inductive LexCode where
  | missingLineNumber
  | invalidLineNumber
  | unrecognizedToken
  | unterminatedString
  deriving DecidableEq, Repr

/-- What a refused line lacks, more coarsely than its code. -/
inductive LexErrorKind where
  | missingOrInvalidLineNumber
  | unrecognizedToken
  | unterminatedString
  deriving DecidableEq, Repr

def LexErrorKind.name : LexErrorKind → String
  | .missingOrInvalidLineNumber => "MissingOrInvalidLineNumber"
  | .unrecognizedToken => "UnrecognizedToken"
  | .unterminatedString => "UnterminatedString"

namespace LexCode

def all : List LexCode :=
  [.missingLineNumber, .invalidLineNumber, .unrecognizedToken, .unterminatedString]

theorem mem_all (code : LexCode) : code ∈ all := by cases code <;> decide

def name : LexCode → String
  | .missingLineNumber => "BSLEX001"
  | .invalidLineNumber => "BSLEX002"
  | .unrecognizedToken => "BSLEX003"
  | .unterminatedString => "BSLEX004"

def ofName? (name : String) : Option LexCode := all.find? fun code => code.name == name

def kind : LexCode → LexErrorKind
  | .missingLineNumber | .invalidLineNumber => .missingOrInvalidLineNumber
  | .unrecognizedToken => .unrecognizedToken
  | .unterminatedString => .unterminatedString

def definition (code : LexCode) : Definition :=
  match code with
  | .missingLineNumber =>
    { code := code.name
      severity := .error
      message := "line must start with a line number"
      description := "Every line of a program starts with its line number, like `10 PRINT \"HI\"`."
      suggestion := some "Put a line number such as 10 at the start of the line." }
  | .invalidLineNumber =>
    { code := code.name
      severity := .error
      message := "invalid line number \"\x7btext\x7d\""
      description := "Line numbers are whole numbers from 0 to 4294967295, " ++
        "followed by a space before the statement."
      suggestion := some "Use digits only and separate the line number from the statement with a space." }
  | .unrecognizedToken =>
    { code := code.name
      severity := .error
      message := "unrecognized token \"\x7btext\x7d\" at \x7boffset\x7d"
      description := "This isn't a number, a keyword, an operator, or a variable name. " ++
        "Variable names start with a letter and contain only letters, digits and underscores."
      suggestion := some "Check the spelling. Keywords are upper case, like PRINT and GOTO." }
  | .unterminatedString =>
    { code := code.name
      severity := .error
      message := "unterminated string literal at \x7boffset\x7d"
      description := "A string opened with `\"` needs a closing `\"` on the same line."
      suggestion := some "Add a closing `\"` at the end of the string." }

end LexCode

inductive CommandCode where
  | fileNotFound
  | fileUnreadable
  | unknownFormat
  | linesFailed
  | unexpectedFailure
  deriving DecidableEq, Repr

namespace CommandCode

def all : List CommandCode :=
  [.fileNotFound, .fileUnreadable, .unknownFormat, .linesFailed, .unexpectedFailure]

theorem mem_all (code : CommandCode) : code ∈ all := by cases code <;> decide

def name : CommandCode → String
  | .fileNotFound => "BSCLI001"
  | .fileUnreadable => "BSCLI002"
  | .unknownFormat => "BSCLI003"
  | .linesFailed => "BSCLI004"
  | .unexpectedFailure => "BSCLI005"

def definition (code : CommandCode) : Definition :=
  match code with
  | .fileNotFound =>
    { code := code.name
      severity := .error
      message := "file not found: \x7bpath\x7d"
      description := "Basil couldn't find a file at this path."
      suggestion := some "Double-check the path and make sure the file exists." }
  | .fileUnreadable =>
    { code := code.name
      severity := .error
      message := "cannot read file: \x7breason\x7d"
      description := "The file exists but Basil can't open it."
      suggestion := some "Check that you have read permission for this file." }
  | .unknownFormat =>
    { code := code.name
      severity := .error
      message := "unknown format \"\x7bformat\x7d\""
      description := "Basil doesn't recognize this output format."
      suggestion := some "Use `--format text` for one line per record or `--format json` for JSON." }
  | .linesFailed =>
    { code := code.name
      severity := .error
      message := "\x7bcount\x7d line(s) failed to tokenize"
      description := "Some lines could not be tokenized. Each one is reported above."
      suggestion := none }
  | .unexpectedFailure =>
    { code := code.name
      severity := .error
      message := "tokenization failed: \x7breason\x7d"
      description := "Something unexpected went wrong while tokenizing."
      suggestion := some "Check your source file, or report this if it seems like a bug." }

end CommandCode

namespace Catalog

def lexer : List Definition := LexCode.all.map LexCode.definition

def command : List Definition := CommandCode.all.map CommandCode.definition

def all : List Definition := lexer ++ command

def find? (code : String) : Option Definition := all.find? fun definition => definition.code == code

def contains (code : String) : Bool := (find? code).isSome

end Catalog

end LineBasic
