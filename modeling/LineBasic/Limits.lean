import LineBasic.Command

/-! # Limits: the program where lines and texts can be too long

The modules before this one ask of no text how long it is. A text has at most so many units, and a line at
most so many characters; here every text that is read, reported or listed is held to that, and so is every line.
-/
namespace LineBasic
set_option autoImplicit false

namespace Limits

/-- The most units that a text can have. -/
def units : Nat := 536870888

/-- The most characters that a line can be taken apart into. -/
def characters : Nat := 125813764

def fits (text : String) : Bool := decide (Text.units text ≤ units)

end Limits

/-- What is out of range, be it a number, a column or a length. No fault of a line is among them. -/
inductive RangeError where
  | label (error : InvalidLineNumber)
  | caret (error : CaretError)
  | characters
  | text
  deriving DecidableEq, Repr

def RangeError.message : RangeError → String
  | .label error => error.message
  | .caret error => error.message
  | .characters => "Invalid array length"
  | .text => "Invalid string length"

namespace Failure

def ofRangeError (error : RangeError) : Failure := .error error.message none

/-- A file whose text is too long counts as one that can not be read. -/
def textTooLong : Failure :=
  .error "Cannot create a string longer than 0x1fffffe8 characters" (some (.text "ERR_STRING_TOO_LONG"))

end Failure

def Limits.within (text : String) : Except RangeError String := if fits text then .ok text else .error .text

/-- A line is taken apart into its characters before it is read. -/
def tokenizeWithin (mode : Mode) (line : String) : Except RangeError Reading :=
  if Limits.characters < line.length then .error .characters else (tokenize mode line).mapError .label

/-- The report for an offset of any origin. One that is too far is refused before so many spaces are written. -/
def LexDiagnostic.reportWithin (diagnostic : LexDiagnostic) (sourceLine : String) (location : Location) :
    Except RangeError String :=
  match Report.column diagnostic.offset with
  | .error error => .error (.caret error)
  | .ok column =>
    if Limits.units < column then .error .text
    else
      match diagnostic.report sourceLine location with
      | .error error => .error (.caret error)
      | .ok report => Limits.within report

/-- A listing is measured before it is written. -/
def OutputFormat.renderWithin (format : OutputFormat) (records : List IndexedRecord) : Except RangeError String :=
  if Limits.units < format.size records then .error .text else .ok (format.render records)

def Entry.text : Entry → String
  | .log text => text
  | .error text => text

/-- What a run logs, and the exit code that it comes to unless something is out of range. -/
structure Execution where
  entries : List Entry
  exitCode : Except RangeError Nat
  deriving Repr

/-- The entries are logged one after the other, up to the first that is too long. -/
def Transcript.execute (transcript : Transcript) : Execution :=
  { entries := transcript.entries.takeWhile fun entry => Limits.fits entry.text
    exitCode :=
      if transcript.entries.all fun entry => Limits.fits entry.text then .ok transcript.exitCode else .error .text }

namespace Command

def executeOutcomes (format : OutputFormat) (filename : String) (outcomes : List LineOutcome) : Execution :=
  if Limits.units < format.size (Program.records outcomes) then ⟨[], .error .text⟩
  else
    match transcript format filename outcomes with
    | .error error => ⟨[], .error (.caret error)⟩
    | .ok transcript => transcript.execute

/-- A line with too many characters is unexpected, and ends the run with one entry. -/
def executeSource (options : Options) (format : OutputFormat) (source : String) : Execution :=
  match Program.outcomes (tokenizeWithin (mode options)) options.failFast (Source.lines source) with
  | .error error => (failure (unexpectedFailureMessage (.ofRangeError error))).execute
  | .ok outcomes => executeOutcomes format options.input outcomes

/-- The run of the command on a platform with limits. -/
def execute (options : Options) (read : String → Except Failure (List UInt8)) : Execution :=
  match OutputFormat.ofName? options.format with
  | none => (failure (unknownFormatMessage options.format)).execute
  | some format =>
    match read options.input with
    | .error error => (failure (readFailureMessage options.input error)).execute
    | .ok bytes =>
      let source := Text.Utf8.decode bytes
      if Limits.fits source then executeSource options format source
      else (failure (readFailureMessage options.input .textTooLong)).execute

end Command

end LineBasic
