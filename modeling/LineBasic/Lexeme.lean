import LineBasic.Cursor
import LineBasic.Diagnostic
import LineBasic.Record
import LineBasic.Token.Vocabulary

/-! # Lexemes: what stands at one place of a line, read up to its own end

A lexeme is a token, or a remark, which makes two tokens and takes the rest of the line. Reading one
needs the character it starts with, what follows, and whether the token before it is a value.
-/
namespace LineBasic
set_option autoImplicit false

/-- Lenient reading lets a string without a closing quote run to the end of the line. -/
inductive Mode where
  | strict
  | lenient
  deriving DecidableEq, Repr

inductive Lexeme where
  | single (t : Token)
  | remark (text : String)
  deriving DecidableEq, Repr

inductive Rejection where
  | unrecognized (text : String)
  | unterminated
  deriving DecidableEq, Repr

def Rejection.faultAt (offset : Nat) : Rejection → Fault
  | .unrecognized text => .unrecognizedToken offset text
  | .unterminated => .unterminatedString offset

namespace Lexeme

/-- The text of a remark starts four characters after its REM. -/
def tokensAt (offset : Nat) : Lexeme → List PositionedToken
  | .single t => [⟨offset, t⟩]
  | .remark text => [⟨offset, .symbol .kwRem⟩, ⟨offset + 4, .comment text⟩]

def isValue : Lexeme → Bool
  | .single t => t.isValue
  | .remark _ => false

/-- After an opening quote: the text up to the next quote, wherever that is. -/
def readString (mode : Mode) (body : Cursor) : Except Rejection (Lexeme × Cursor) :=
  let close := body.skip (· != '"')
  if close.atEnd && mode == .strict then .error .unterminated
  else .ok (.single (.stringLiteral (String.ofList (body.run (· != '"')))), close.next)

/-- After REM one character is dropped, whatever it is; all else is the remark. -/
def readRemark (body : Cursor) : Lexeme × Cursor :=
  (.remark (String.ofList body.next.ahead), body.next.finish)

def readWord (first : Char) (body : Cursor) : Except Rejection (Lexeme × Cursor) :=
  let word := first :: body.run isWordChar
  let rest := body.skip isWordChar
  match Token.ofWord? word with
  | none => .error (.unrecognized (String.ofList word))
  | some (.symbol .kwRem) => .ok (readRemark rest)
  | some t => .ok (.single t, rest)

/-- A minus sign right after a value is binary, any other is a sign. -/
def minusSymbol (afterValue : Bool) : Symbol := if afterValue then .minus else .unaryMinus

def read (mode : Mode) (afterValue : Bool) (first : Char) (body : Cursor) :
    Except Rejection (Lexeme × Cursor) :=
  if first = '"' then readString mode body
  else if first = '-' then .ok (.single (.symbol (minusSymbol afterValue)), body)
  else
    match lookupMark first with
    | some mark => .ok (.single (.symbol mark), body)
    | none => readWord first body

theorem readWord_length {first : Char} {body rest : Cursor} {lexeme : Lexeme}
    (h : readWord first body = .ok (lexeme, rest)) : rest.ahead.length ≤ body.ahead.length := by
  unfold readWord at h
  dsimp only at h
  split at h
  · cases h
  · cases h
    exact Nat.zero_le _
  · cases h
    exact body.skip_length isWordChar

theorem read_length {mode : Mode} {afterValue : Bool} {first : Char} {body rest : Cursor}
    {lexeme : Lexeme} (h : read mode afterValue first body = .ok (lexeme, rest)) :
    rest.ahead.length ≤ body.ahead.length := by
  unfold read at h
  split at h
  · unfold readString at h
    dsimp only at h
    split at h
    · cases h
    · cases h
      exact Nat.le_trans (Cursor.next_length _) (body.skip_length _)
  · split at h
    · cases h
      exact Nat.le_refl _
    · split at h
      · cases h
        exact Nat.le_refl _
      · exact readWord_length h

end Lexeme

end LineBasic
