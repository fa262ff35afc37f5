import LineBasic.Cursor

/-! # Scanners: a cursor that may also be put anywhere in its line, or past the end of it -/
namespace LineBasic
set_option autoImplicit false

structure Scanner where
  line : List Char
  cursor : Cursor
  deriving DecidableEq, Repr

namespace Scanner

def ofLine (line : String) : Scanner := ⟨line.toList, Cursor.start line.toList⟩

def length (s : Scanner) : Nat := s.line.length

def position (s : Scanner) : Nat := s.cursor.position

def atEnd (s : Scanner) : Bool := s.cursor.atEnd

def peek? (s : Scanner) : Option Char := s.cursor.peek?

def advance (s : Scanner) : Option Char × Scanner := (s.peek?, { s with cursor := s.cursor.next })

def skipSpace (s : Scanner) : Scanner := { s with cursor := s.cursor.skipSpace }

def takeWhile (s : Scanner) (test : Char → Bool) : String × Scanner :=
  (String.ofList (s.cursor.run test), { s with cursor := s.cursor.skip test })

/-- Everything ahead; the scanner then stands at the end, also if it stood past it. -/
def rest (s : Scanner) : String × Scanner :=
  (String.ofList s.cursor.ahead, { s with cursor := ⟨s.length, []⟩ })

/-- Nothing is ahead of a position past the end. -/
def seek (s : Scanner) (position : Nat) : Scanner :=
  { s with cursor := ⟨position, s.line.drop position⟩ }

/-- The operations above as data, so that sequences of them can be run and reasoned about. -/
inductive Action where
  | peek
  | advance
  | askEnd
  | skipSpace
  | takeWhile (test : Char → Bool)
  | rest
  | seek (position : Nat)

inductive Observation where
  | nothing
  | char (value : Option Char)
  | flag (value : Bool)
  | text (value : String)
  deriving DecidableEq, Repr

def perform (s : Scanner) : Action → Observation × Scanner
  | .peek => (.char s.peek?, s)
  | .advance => (.char s.advance.1, s.advance.2)
  | .askEnd => (.flag s.atEnd, s)
  | .skipSpace => (.nothing, s.skipSpace)
  | .takeWhile test => (.text (s.takeWhile test).1, (s.takeWhile test).2)
  | .rest => (.text s.rest.1, s.rest.2)
  | .seek position => (.nothing, s.seek position)

def trace (s : Scanner) : List Action → List (Observation × Scanner)
  | [] => []
  | action :: rest => s.perform action :: trace (s.perform action).2 rest

end Scanner

end LineBasic
