import LineBasic.Diagnostic.Catalog

/-! # Diagnostics: one occurrence of a definition, with its place in the line and its values -/
namespace LineBasic
set_option autoImplicit false

structure LexDiagnostic where
  definition : Definition
  code : LexCode
  message : String
  offset : Number
  args : Args
  deriving DecidableEq, Repr

namespace LexDiagnostic

/-- The message is filled in once, from the definition of the code. -/
def ofCode (code : LexCode) (offset : Number) (args : Args) : LexDiagnostic :=
  { definition := code.definition
    code := code
    message := Text.interpolate code.definition.message args.value?
    offset := offset
    args := args }

def kind (diagnostic : LexDiagnostic) : LexErrorKind := diagnostic.code.kind

/-- The one-line form, for where no source line is at hand. -/
def codedMessage (diagnostic : LexDiagnostic) : String :=
  diagnostic.definition.codedMessage diagnostic.args

end LexDiagnostic

/-- The error that is thrown for a diagnostic; its message is filled in anew, from the definition. -/
structure LexError where
  diagnostic : LexDiagnostic
  code : LexCode
  offset : Number
  kind : LexErrorKind
  message : String
  deriving DecidableEq, Repr

def LexError.ofDiagnostic (diagnostic : LexDiagnostic) : LexError :=
  { diagnostic := diagnostic
    code := diagnostic.code
    offset := diagnostic.offset
    kind := diagnostic.kind
    message := diagnostic.codedMessage }

/-- Why a line is refused. -/
inductive Fault where
  | missingLineNumber
  | invalidLineNumber (text : String)
  | unrecognizedToken (offset : Nat) (text : String)
  | unterminatedString (offset : Nat)
  deriving DecidableEq, Repr

namespace Fault

def code : Fault → LexCode
  | .missingLineNumber => .missingLineNumber
  | .invalidLineNumber _ => .invalidLineNumber
  | .unrecognizedToken _ _ => .unrecognizedToken
  | .unterminatedString _ => .unterminatedString

/-- Faults of the line number are at the start of the line. -/
def offset : Fault → Nat
  | .missingLineNumber | .invalidLineNumber _ => 0
  | .unrecognizedToken offset _ | .unterminatedString offset => offset

def args : Fault → Args
  | .missingLineNumber => []
  | .invalidLineNumber text => [("text", .text text)]
  | .unrecognizedToken offset text => [("offset", .number (.whole offset)), ("text", .text text)]
  | .unterminatedString offset => [("offset", .number (.whole offset))]

def diagnostic (fault : Fault) : LexDiagnostic :=
  LexDiagnostic.ofCode fault.code (.whole fault.offset) fault.args

end Fault

end LineBasic
