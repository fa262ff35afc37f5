import LineBasic.Text.Space
import LineBasic.Token

/-! # Vocabulary: which words and characters are tokens -/
namespace LineBasic
set_option autoImplicit false

def wordTable : List (String × Symbol) :=
  [("=", .equals), ("<", .lessThan), (">", .greaterThan), ("<=", .lessOrEqual),
    (">=", .greaterOrEqual), ("<>", .notEqual), ("*", .multiply), ("/", .divide), ("+", .plus),
    ("GOTO", .kwGoto), ("IF", .kwIf), ("INPUT", .kwInput), ("LET", .kwLet), ("PRINT", .kwPrint),
    ("REM", .kwRem), ("THEN", .kwThen)]

/-- The characters that are a symbol on their own wherever a token may start. -/
def markTable : List (Char × Symbol) := [('!', .bang), ('(', .leftParen), (')', .rightParen)]

def lookupWord (word : String) : Option Symbol := wordTable.lookup word

def lookupMark (c : Char) : Option Symbol := markTable.lookup c

/-- A word ends before whitespace and before a closing parenthesis; nothing else ends it. -/
def isWordChar (c : Char) : Bool := !Text.isSpace c && c != ')'

def isIdentifierChar (c : Char) : Bool := c.isAlphanum || c == '_'

def isIdentifier : List Char → Bool
  | [] => false
  | first :: rest => first.isAlpha && rest.all isIdentifierChar

def minNumber : Int := -2147483648

def maxNumber : Int := 2147483647

/-- Numbers are read in double precision and are 32 bits wide; digits that write a greater one are no
number. -/
def numberOfWord? (word : List Char) : Option Int :=
  match (Text.intOfDigits? word).map Number.ofInt with
  | some value => if value.atLeast minNumber && value.atMost maxNumber then value.wholePart? else none
  | none => none

/-- A word is a number, a word of the table or an identifier, tried in this order. -/
def Token.ofWord? (word : List Char) : Option Token :=
  match numberOfWord? word with
  | some value => some (.number value)
  | none =>
    match lookupWord (String.ofList word) with
    | some s => some (.symbol s)
    | none => if isIdentifier word then some (.identifier (String.ofList word)) else none

theorem spelling_of_mem_wordTable : ∀ entry ∈ wordTable, entry.2.spelling = entry.1 := by decide

theorem spelling_of_mem_markTable : ∀ entry ∈ markTable, entry.2.spelling = entry.1.toString := by
  decide

end LineBasic
