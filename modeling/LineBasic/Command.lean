import LineBasic.Command.Arguments
import LineBasic.Command.Directory
import LineBasic.Program
import LineBasic.Text.Utf8

/-! # The tokenize command: from options and files to a transcript of what is logged -/
namespace LineBasic
set_option autoImplicit false

inductive Entry where
  | log (text : String)
  | error (text : String)
  deriving DecidableEq, Repr

structure Transcript where
  entries : List Entry
  exitCode : Nat
  deriving DecidableEq, Repr

namespace Command

def failure (text : String) : Transcript := ⟨[.error text], 1⟩

def mode (options : Options) : Mode := if options.lenient then .lenient else .strict

/-- The records come first, as one entry; in text form there is none if no line was accepted. -/
def recordEntries (format : OutputFormat) (records : List IndexedRecord) : List Entry :=
  if records.isEmpty && format != .json then [] else [.log (format.render records)]

/-- Then one entry for each refused line, and their number if there are any. -/
def failureEntries (reports : List String) : List Entry :=
  reports.map .error ++
    if reports.isEmpty then [] else [.error (failureSummary (.whole reports.length))]

def transcript (format : OutputFormat) (filename : String) (outcomes : List LineOutcome) :
    Except CaretError Transcript :=
  match Program.reports filename outcomes with
  | .error error => .error error
  | .ok reports =>
    let failed := reports.filterMap id
    .ok { entries := recordEntries format (Program.records outcomes) ++ failureEntries failed
          exitCode := if failed.isEmpty then 0 else 1 }

def runSource (options : Options) (format : OutputFormat) (source : String) :
    Except CaretError Transcript :=
  match Program.tokenize (mode options) options.failFast (Source.lines source) with
  | .error error => .ok (failure (unexpectedFailureMessage (.ofLineNumber error)))
  | .ok outcomes => transcript format options.input outcomes

/-- The format is checked before the file is read; either failing ends the run with one entry. -/
def run (options : Options) (read : String → Except Failure (List UInt8)) :
    Except CaretError Transcript :=
  match OutputFormat.ofName? options.format with
  | none => .ok (failure (unknownFormatMessage options.format))
  | some format =>
    match read options.input with
    | .error error => .ok (failure (readFailureMessage options.input error))
    | .ok bytes => runSource options format (Text.Utf8.decode bytes)

end Command

end LineBasic
