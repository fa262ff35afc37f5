import LineBasic.Lexeme

/-! # Tokenizing a line: its label, then lexeme after lexeme up to the end -/
namespace LineBasic
set_option autoImplicit false

/-- A line is refused for a fault in it; a label that could not be made into a line number would be
an error of another sort. -/
inductive LineError where
  | fault (fault : Fault)
  | label (error : InvalidLineNumber)
  deriving DecidableEq, Repr

inductive Reading where
  | accepted (record : LineRecord)
  | rejected (diagnostic : LexDiagnostic)
  deriving DecidableEq, Repr

def Reading.isAccepted : Reading → Bool
  | .accepted _ => true
  | .rejected _ => false

/-- The tokens from the cursor on, told whether the token before it is a value. -/
def scanTokens (mode : Mode) (afterValue : Bool) (c : Cursor) : Except Fault (List PositionedToken) :=
  match _hFirst : c.skipSpace.advance? with
  | none => .ok []
  | some (first, body) =>
    match _hRead : Lexeme.read mode afterValue first body with
    | .error rejection => .error (rejection.faultAt c.skipSpace.position)
    | .ok (lexeme, rest) =>
      match scanTokens mode lexeme.isValue rest with
      | .error fault => .error fault
      | .ok tokens => .ok (lexeme.tokensAt c.skipSpace.position ++ tokens)
termination_by c.ahead.length
decreasing_by
  have hSkip := c.skip_length Text.isSpace
  have hFirst := Cursor.advance?_length ‹_›
  have hRead := Lexeme.read_length ‹_›
  unfold Cursor.skipSpace at hFirst
  omega

def isLabelChar (c : Char) : Bool := !Text.isSpace c

/-- Labels are read in double precision as well. -/
def labelNumber? (label : List Char) : Option Number :=
  match (Text.natOfDigits? label).map fun n : Nat => Number.ofInt n with
  | some value => if value.atMost maxLineNumber then some value else none
  | none => none

/-- A label is everything up to the first whitespace; the cursor ends up past the whitespace
character that ends it. -/
def readLabel (c : Cursor) : Except LineError (LineNumber × Cursor) :=
  if c.peek?.any Char.isDigit then
    let label := c.run isLabelChar
    match labelNumber? label with
    | none => .error (.fault (.invalidLineNumber (String.ofList label)))
    | some value =>
      match LineNumber.ofNumber value with
      | .error error => .error (.label error)
      | .ok lineNumber => .ok (lineNumber, (c.skip isLabelChar).next)
  else .error (.fault .missingLineNumber)

def readLine (mode : Mode) (line : String) : Except LineError LineRecord :=
  match readLabel (Cursor.start line.toList) with
  | .error error => .error error
  | .ok (label, body) =>
    match scanTokens mode false body with
    | .error fault => .error (.fault fault)
    | .ok tokens => .ok ⟨label, tokens⟩

/-- Faults become diagnostics; no other error is caught. -/
def tokenize (mode : Mode) (line : String) : Except InvalidLineNumber Reading :=
  match readLine mode line with
  | .ok record => .ok (.accepted record)
  | .error (.fault fault) => .ok (.rejected fault.diagnostic)
  | .error (.label error) => .error error

/-- What is thrown where nothing is caught. -/
inductive Thrown where
  | lex (error : LexError)
  | label (error : InvalidLineNumber)
  deriving DecidableEq, Repr

def LineError.thrown : LineError → Thrown
  | .fault cause => .lex (.ofDiagnostic cause.diagnostic)
  | .label error => .label error

/-- Like `tokenize`, but a line that is refused has no reading. -/
def tokenizeOrThrow (mode : Mode) (line : String) : Except Thrown LineRecord :=
  (readLine mode line).mapError LineError.thrown

end LineBasic
