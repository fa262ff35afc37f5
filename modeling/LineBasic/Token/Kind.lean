import LineBasic.Number
import LineBasic.Token.Symbol

/-! # Token kinds: their names, their codes and the classes they belong to -/
namespace LineBasic
set_option autoImplicit false

inductive Kind where
  | symbol (s : Symbol)
  | comment
  | identifier
  | number
  | stringLiteral
  deriving DecidableEq, Repr

/-- Precedence was asked of something that is no binary operator. -/
structure NotAnOperator where
  name : String
  deriving DecidableEq, Repr

def NotAnOperator.message (error : NotAnOperator) : String := "not an operator: " ++ error.name

namespace Kind

def all : List Kind := Symbol.all.map .symbol ++ [.comment, .identifier, .number, .stringLiteral]

theorem mem_all (kind : Kind) : kind ∈ all := by
  cases kind with
  | symbol s => exact List.mem_append_left _ (List.mem_map_of_mem s.mem_all)
  | comment | identifier | number | stringLiteral => simp [all]

def name : Kind → String
  | .symbol s => s.name
  | .comment => "Comment"
  | .identifier => "Variable"
  | .number => "Number"
  | .stringLiteral => "StringLiteral"

def code : Kind → Nat
  | .symbol s => s.code
  | .comment => 100
  | .identifier => 101
  | .number => 102
  | .stringLiteral => 103

/-- The kind that a code belongs to; fractions and numbers beyond the integers of `Number.whole` are
the code of no kind. -/
def ofCode? : Number → Option Kind
  | .whole code => all.find? fun kind => Int.ofNat kind.code == code
  | _ => none

theorem ofCode?_code (kind : Kind) : ofCode? (.whole kind.code) = some kind := by
  cases kind with
  | symbol s => cases s <;> rfl
  | comment | identifier | number | stringLiteral => rfl

def unknownName (code : Number) : String := "Unknown(" ++ code.text ++ ")"

def nameOfCode (code : Number) : String := ((ofCode? code).map name).getD (unknownName code)

theorem nameOfCode_code (kind : Kind) : nameOfCode (.whole kind.code) = kind.name := by
  simp [nameOfCode, ofCode?_code]

def precedence? : Kind → Option Nat
  | .symbol s => s.precedence?
  | _ => none

def isOperator (kind : Kind) : Bool := kind.precedence?.isSome

/-- Kinds of tokens that stand for a value; a minus right after one is binary. -/
def isValue : Kind → Bool
  | .identifier | .number | .stringLiteral => true
  | _ => false

def isUnary : Kind → Bool
  | .symbol s => s.isUnary
  | _ => false

def isKeyword : Kind → Bool
  | .symbol s => s.isKeyword
  | _ => false

end Kind

structure UnlistedCode where
  number : Number
  unlisted : Kind.ofCode? number = none
  deriving DecidableEq, Repr

def UnlistedCode.name (code : UnlistedCode) : String := Kind.unknownName code.number

theorem UnlistedCode.name_eq (code : UnlistedCode) : code.name = Kind.nameOfCode code.number := by
  simp [name, Kind.nameOfCode, code.unlisted]

def Kind.ofCode (code : Number) : Except UnlistedCode Kind :=
  match h : ofCode? code with
  | some kind => .ok kind
  | none => .error ⟨code, h⟩

end LineBasic
