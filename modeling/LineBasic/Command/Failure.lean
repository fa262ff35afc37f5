import LineBasic.Diagnostic.Catalog
import LineBasic.LineNumber

/-! # Failures: what goes wrong outside the tokenizer, and the messages made of it -/
namespace LineBasic
set_option autoImplicit false

inductive RaisedValue where
  | text (value : String)
  | number (value : Number)
  | boolean (value : Bool)
  | null
  | missing
  deriving DecidableEq, Repr

def RaisedValue.display : RaisedValue → String
  | .text value => value
  | .number value => value.text
  | .boolean true => "true"
  | .boolean false => "false"
  | .null => "null"
  | .missing => "undefined"

/-- The code that the operating system gives an error; some carry one that is no text. -/
inductive SystemCode where
  | text (value : String)
  | other
  deriving DecidableEq, Repr

inductive Failure where
  | error (message : String) (code : Option SystemCode)
  | raised (value : RaisedValue)
  deriving DecidableEq, Repr

namespace Failure

def isSystemError : Failure → Bool
  | .error _ code => code.isSome
  | .raised _ => false

def message : Failure → String
  | .error message _ => message
  | .raised value => value.display

def noSuchFile : SystemCode := .text "ENOENT"

def isNoSuchFile : Failure → Bool
  | .error _ (some code) => code == noSuchFile
  | _ => false

def ofLineNumber (error : InvalidLineNumber) : Failure := .error error.message none

end Failure

namespace CommandCode

def messageWith (code : CommandCode) (key : String) (value : ArgValue) : String :=
  code.definition.codedMessage [(key, value)]

end CommandCode

/-- A missing file is reported by its path, any other failure to read it by its message. -/
def readFailureMessage (path : String) (failure : Failure) : String :=
  if failure.isNoSuchFile then CommandCode.fileNotFound.messageWith "path" (.text path)
  else CommandCode.fileUnreadable.messageWith "reason" (.text failure.message)

def unknownFormatMessage (format : String) : String :=
  CommandCode.unknownFormat.messageWith "format" (.text format)

def failureSummary (count : Number) : String :=
  CommandCode.linesFailed.messageWith "count" (.number count)

def unexpectedFailureMessage (failure : Failure) : String :=
  CommandCode.unexpectedFailure.messageWith "reason" (.text failure.message)

end LineBasic
