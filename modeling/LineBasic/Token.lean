import LineBasic.Text.Decimal
import LineBasic.Text.Json
import LineBasic.Token.Kind

/-! # Tokens: how each one is written in a line and how it is shown in a listing -/
namespace LineBasic
set_option autoImplicit false

inductive Token where
  | symbol (s : Symbol)
  | comment (text : String)
  | identifier (name : String)
  | number (value : Int)
  | stringLiteral (text : String)
  | unlisted (code : UnlistedCode)
  deriving DecidableEq, Repr

inductive Payload where
  | text (value : String)
  | number (value : Int)
  deriving DecidableEq, Repr

namespace Token

def kind? : Token → Option Kind
  | .symbol s => some (.symbol s)
  | .comment _ => some .comment
  | .identifier _ => some .identifier
  | .number _ => some .number
  | .stringLiteral _ => some .stringLiteral
  | .unlisted _ => none

def code : Token → Number
  | .symbol s => .whole s.code
  | .comment _ => .whole Kind.comment.code
  | .identifier _ => .whole Kind.identifier.code
  | .number _ => .whole Kind.number.code
  | .stringLiteral _ => .whole Kind.stringLiteral.code
  | .unlisted c => c.number

def kindName : Token → String
  | .symbol s => s.name
  | .comment _ => Kind.comment.name
  | .identifier _ => Kind.identifier.name
  | .number _ => Kind.number.name
  | .stringLiteral _ => Kind.stringLiteral.name
  | .unlisted c => c.name

theorem ofCode?_code (token : Token) : Kind.ofCode? token.code = token.kind? := by
  cases token with
  | symbol s => exact Kind.ofCode?_code (.symbol s)
  | unlisted c => exact c.unlisted
  | comment | identifier | number | stringLiteral => rfl

theorem kindName_eq_nameOfCode (token : Token) : token.kindName = Kind.nameOfCode token.code := by
  cases token with
  | symbol s => exact (Kind.nameOfCode_code (.symbol s)).symm
  | unlisted c => exact c.name_eq
  | comment | identifier | number | stringLiteral => rfl

def payload? : Token → Option Payload
  | .symbol _ => none
  | .comment text => some (.text text)
  | .identifier name => some (.text name)
  | .number value => some (.number value)
  | .stringLiteral text => some (.text text)
  | .unlisted _ => none

/-- Whether the kind belongs to a class; a code that belongs to no kind is in no class. -/
def inClass (test : Kind → Bool) (token : Token) : Bool := token.kind?.any test

def isValue (token : Token) : Bool := token.inClass Kind.isValue

def precedence (token : Token) : Except NotAnOperator Nat :=
  match token.kind?.bind Kind.precedence? with
  | some level => .ok level
  | none => .error ⟨token.kindName⟩

/-- A way to write the token in a line; a code that belongs to no kind has none. -/
def spelling? : Token → Option String
  | .symbol s => some s.spelling
  | .comment t => some t
  | .identifier n => some n
  | .number value => some (Text.decimal value)
  | .stringLiteral text => some ("\"" ++ text ++ "\"")
  | .unlisted _ => none

def Payload.display : Payload → String
  | .text value => Text.Json.quote value
  | .number value => Text.decimal value

def display (token : Token) : String :=
  match token.payload? with
  | none => token.kindName
  | some payload => token.kindName ++ "(" ++ Payload.display payload ++ ")"

end Token

structure TokenProfile where
  name : String
  spelling : Option String
  display : String
  isOperator : Bool
  isValue : Bool
  isUnary : Bool
  isKeyword : Bool
  precedence : Except NotAnOperator Nat

def Token.profile (token : Token) : TokenProfile :=
  { name := token.kindName
    spelling := token.spelling?
    display := token.display
    isOperator := token.inClass Kind.isOperator
    isValue := token.isValue
    isUnary := token.inClass Kind.isUnary
    isKeyword := token.inClass Kind.isKeyword
    precedence := token.precedence }

end LineBasic
