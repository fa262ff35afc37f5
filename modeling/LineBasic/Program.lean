import LineBasic.Diagnostic.Report
import LineBasic.Source
import LineBasic.Tokenize

/-! # Programs: the outcome of every line, the records among them and the reports of the others -/
namespace LineBasic
set_option autoImplicit false

structure LineOutcome where
  line : SourceLine
  reading : Reading
  deriving DecidableEq, Repr

namespace LineOutcome

def failed (outcome : LineOutcome) : Bool := !outcome.reading.isAccepted

def record? (outcome : LineOutcome) : Option IndexedRecord :=
  match outcome.reading with
  | .accepted record => some ⟨outcome.line.index, record⟩
  | .rejected _ => none

/-- The report of a refused line, which points at its place in the source. -/
def report? (filename : String) (outcome : LineOutcome) : Except CaretError (Option String) :=
  match outcome.reading with
  | .accepted _ => .ok none
  | .rejected diagnostic =>
    (diagnostic.report outcome.line.text ⟨filename, .whole outcome.line.index⟩).map some

end LineOutcome

namespace Program

/-- Each line is read on its own; with `failFast` the first line that fails is the last. -/
def outcomes {ε : Type} (read : String → Except ε Reading) (failFast : Bool) :
    List SourceLine → Except ε (List LineOutcome)
  | [] => .ok []
  | line :: rest =>
    match read line.text with
    | .error error => .error error
    | .ok reading =>
      let outcome : LineOutcome := ⟨line, reading⟩
      if failFast && outcome.failed then .ok [outcome]
      else (outcomes read failFast rest).map (outcome :: ·)

def tokenize (mode : Mode) (failFast : Bool) (lines : List SourceLine) :
    Except InvalidLineNumber (List LineOutcome) := outcomes (LineBasic.tokenize mode) failFast lines

def records (outcomes : List LineOutcome) : List IndexedRecord :=
  outcomes.filterMap LineOutcome.record?

/-- The reports in line order, with nothing in place of an accepted line. -/
def reports (filename : String) (outcomes : List LineOutcome) :
    Except CaretError (List (Option String)) :=
  outcomes.mapM (LineOutcome.report? filename)

end Program

inductive OutputFormat where
  | text
  | json
  deriving DecidableEq, Repr

namespace OutputFormat

def ofName? (name : String) : Option OutputFormat :=
  if name = "text" then some .text else if name = "json" then some .json else none

def render (format : OutputFormat) (records : List IndexedRecord) : String :=
  match format with
  | .text => "\n".intercalate (records.map fun indexed => indexed.record.display)
  | .json => Text.Json.render 0 (.array (records.map IndexedRecord.toJson))

/-- The units of the listing. In JSON they are told record by record, without writing any. -/
def size (format : OutputFormat) (records : List IndexedRecord) : Nat :=
  match format with
  | .text => Text.units (render .text records)
  | .json => Text.Json.rowsSize 0 (records.map fun indexed => Text.Json.size 1 indexed.toJson)

end OutputFormat

end LineBasic
