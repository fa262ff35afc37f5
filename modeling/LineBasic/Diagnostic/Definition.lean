import LineBasic.Number
import LineBasic.Text.Template

/-! # Diagnostic definitions: severities, message templates and the values filled into them -/
namespace LineBasic
set_option autoImplicit false

inductive Severity where
  | error
  | note
  | warning
  deriving DecidableEq, Repr

namespace Severity

def all : List Severity := [.error, .note, .warning]

def name : Severity → String
  | .error => "Error"
  | .note => "Note"
  | .warning => "Warning"

def code : Severity → Nat
  | .error => 0
  | .note => 2
  | .warning => 1

def ofCode? (code : Int) : Option Severity := all.find? fun severity => Int.ofNat severity.code == code

def label : Severity → String
  | .error => "error"
  | .note => "note"
  | .warning => "warning"

end Severity

inductive ArgValue where
  | text (value : String)
  | number (value : Number)
  deriving DecidableEq, Repr

def ArgValue.display : ArgValue → String
  | .text value => value
  | .number value => value.text

abbrev Args := List (String × ArgValue)

def Args.value? (args : Args) (key : String) : Option String := (args.lookup key).map ArgValue.display

/-- What is known of a diagnostic before it occurs; message and suggestion are templates. -/
structure Definition where
  code : String
  severity : Severity
  message : String
  description : String
  suggestion : Option String
  deriving DecidableEq, Repr

def Definition.codedMessage (definition : Definition) (args : Args) : String :=
  "[" ++ definition.code ++ "] " ++ Text.interpolate definition.message args.value?

end LineBasic
