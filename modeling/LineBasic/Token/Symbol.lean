/-! # Symbols: the tokens that are always written in the same way -/
namespace LineBasic
set_option autoImplicit false

inductive Symbol where
  | equals
  | lessThan
  | greaterThan
  | lessOrEqual
  | greaterOrEqual
  | notEqual
  | multiply
  | divide
  | minus
  | plus
  | leftParen
  | rightParen
  | bang
  | unaryMinus
  | kwGoto
  | kwIf
  | kwInput
  | kwLet
  | kwPrint
  | kwRem
  | kwThen
  deriving DecidableEq, Repr

namespace Symbol

def all : List Symbol :=
  [.equals, .lessThan, .greaterThan, .lessOrEqual, .greaterOrEqual, .notEqual, .multiply, .divide,
    .minus, .plus, .leftParen, .rightParen, .bang, .unaryMinus, .kwGoto, .kwIf, .kwInput, .kwLet,
    .kwPrint, .kwRem, .kwThen]

theorem mem_all (symbol : Symbol) : symbol ∈ all := by cases symbol <;> decide

def name : Symbol → String
  | .equals => "Equals"
  | .lessThan => "LessThan"
  | .greaterThan => "GreaterThan"
  | .lessOrEqual => "LessOrEqual"
  | .greaterOrEqual => "GreaterOrEqual"
  | .notEqual => "NotEqual"
  | .multiply => "Multiply"
  | .divide => "Divide"
  | .minus => "Minus"
  | .plus => "Plus"
  | .leftParen => "LParen"
  | .rightParen => "RParen"
  | .bang => "Bang"
  | .unaryMinus => "UnaryMinus"
  | .kwGoto => "Goto"
  | .kwIf => "If"
  | .kwInput => "Input"
  | .kwLet => "Let"
  | .kwPrint => "Print"
  | .kwRem => "Rem"
  | .kwThen => "Then"

def code : Symbol → Nat
  | .equals => 0
  | .lessThan => 1
  | .greaterThan => 2
  | .lessOrEqual => 3
  | .greaterOrEqual => 4
  | .notEqual => 5
  | .multiply => 6
  | .divide => 7
  | .minus => 8
  | .plus => 9
  | .leftParen => 20
  | .rightParen => 21
  | .bang => 30
  | .unaryMinus => 31
  | .kwGoto => 40
  | .kwIf => 41
  | .kwInput => 42
  | .kwLet => 43
  | .kwPrint => 44
  | .kwRem => 45
  | .kwThen => 46

/-- The two minus signs share a spelling. -/
def spelling : Symbol → String
  | .equals => "="
  | .lessThan => "<"
  | .greaterThan => ">"
  | .lessOrEqual => "<="
  | .greaterOrEqual => ">="
  | .notEqual => "<>"
  | .multiply => "*"
  | .divide => "/"
  | .minus => "-"
  | .plus => "+"
  | .leftParen => "("
  | .rightParen => ")"
  | .bang => "!"
  | .unaryMinus => "-"
  | .kwGoto => "GOTO"
  | .kwIf => "IF"
  | .kwInput => "INPUT"
  | .kwLet => "LET"
  | .kwPrint => "PRINT"
  | .kwRem => "REM"
  | .kwThen => "THEN"

/-- Binary operators bind the tighter the higher their precedence. -/
def precedence? : Symbol → Option Nat
  | .multiply | .divide => some 10
  | .minus | .plus => some 8
  | .equals | .lessThan | .greaterThan | .lessOrEqual | .greaterOrEqual | .notEqual => some 4
  | _ => none

def isUnary : Symbol → Bool
  | .bang | .unaryMinus => true
  | _ => false

def isKeyword : Symbol → Bool
  | .kwGoto | .kwIf | .kwInput | .kwLet | .kwPrint | .kwRem | .kwThen => true
  | _ => false

end Symbol

end LineBasic
