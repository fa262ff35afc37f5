/-! # Words: the forms in which the words of a command line set flags

`--key=value`, `-k=value` and `-kvalue` set a flag, `--no-key` turns it off, and a group such as `-abc`
names a flag with each character. After `--key`, `-k` and a group the value of the last flag is left
open: the word that follows may be it.
-/
namespace LineBasic
set_option autoImplicit false

inductive Setting where
  | text (value : String)
  | off
  | bare
  deriving DecidableEq, Repr

inductive Naming where
  | dotted
  | long
  | group
  deriving DecidableEq, Repr

/-- What a word says: it names no flag, it ends the flags, it sets flags, or it sets flags and leaves
the value of one more open. -/
inductive WordForm where
  | positional
  | endOfFlags
  | settled (flags : List (String × Setting))
  | awaiting (flags : List (String × Setting)) (key : String) (naming : Naming)
  deriving DecidableEq, Repr

namespace Word

def isLineEnd (c : Char) : Bool := c == '\n' || c == '\r' || c.toNat == 0x2028 || c.toNat == 0x2029

def firstLine (text : List Char) : List Char := text.takeWhile fun c => !isLineEnd c

def isDigits (text : List Char) : Bool := !text.isEmpty && text.all Char.isDigit

/-- A minus sign, then a decimal number; digits before its point may be missing. -/
def isNegativeNumber : List Char → Bool
  | '-' :: text =>
    match text.dropWhile Char.isDigit with
    | [] => !text.isEmpty
    | '.' :: fraction => isDigits fraction
    | _ => false
  | _ => false

def isExponent : List Char → Bool
  | [] => true
  | 'e' :: '-' :: digits => isDigits digits
  | 'e' :: digits => isDigits digits
  | _ => false

def isNumeral (text : List Char) : Bool :=
  let unsigned := if text.head? == some '-' then text.drop 1 else text
  !(unsigned.takeWhile Char.isDigit).isEmpty &&
    match unsigned.dropWhile Char.isDigit with
    | '.' :: fraction =>
      !(fraction.takeWhile Char.isDigit).isEmpty && isExponent (fraction.dropWhile Char.isDigit)
    | rest => isExponent rest

def unquoted : List Char → List Char
  | [] => []
  | first :: rest =>
    if (first == '"' || first == '\'') && rest.getLast? == some first then rest.dropLast else first :: rest

def splitAtEquals (text : List Char) : List Char × List Char :=
  (text.takeWhile (· != '='), (text.dropWhile (· != '=')).drop 1)

/-- Characters beyond the basic plane count as two. -/
def isWide (c : Char) : Bool := decide (0x10000 ≤ c.toNat)

def isNameChar (c : Char) : Bool := c.isAlphanum || c == '_'

/-- The flags that the characters of a group set, and the last one if its value is left open. All that
follows a character is its value if it starts with an equals sign or another mark, or is a number. -/
def group : List Char → List (String × Setting) × Option String
  | [] => ([], none)
  | [last] => ([], if last == '-' then none else some last.toString)
  | letter :: c :: rest =>
    if c == '=' && !rest.isEmpty then ([(letter.toString, .text (String.ofList rest))], none)
    else if (c == '-' && rest.isEmpty) || (letter.isAlpha && isNumeral (c :: rest)) ||
        ((isWide c || !rest.isEmpty) && !isNameChar c) then
      ([(letter.toString, .text (String.ofList (c :: rest)))], none)
    else
      let following := group (c :: rest)
      ((letter.toString, .bare) :: following.1, following.2)

/-- The form of a word after two dashes. Without a key before the equals sign, the key is a dash. -/
def longForm (body : List Char) : WordForm :=
  let line := firstLine body
  if (line.drop 1).contains '=' then
    let (key, value) := splitAtEquals body
    .settled [(if key.isEmpty then "-" else String.ofList key, .text (String.ofList (unquoted value)))]
  else if line.take 3 == ['n', 'o', '-'] && 3 < line.length then
    .settled [(String.ofList (line.drop 3), .off)]
  else if line.isEmpty then .positional
  else .awaiting [] (String.ofList line) .long

/-- The form of a word after one dash, where no second one follows. -/
def shortForm (body : List Char) : WordForm :=
  match firstLine body with
  | _ :: '.' :: _ :: rest =>
    if rest.contains '=' then
      let (key, value) := splitAtEquals body
      .settled (if key.isEmpty then [] else [(String.ofList key, .text (String.ofList value))])
    else if isNegativeNumber ('-' :: body) then .positional
    else .awaiting [] (String.ofList (firstLine body)) .dotted
  | _ =>
    if body.isEmpty || isNegativeNumber ('-' :: body) then .positional
    else
      match group body with
      | (flags, some key) => .awaiting flags key .group
      | (flags, none) => .settled flags

/-- Three dashes or more make no flag, unless a key follows them. -/
def isRule (body : List Char) : Bool :=
  body.head? == some '-' && (body.dropWhile (· == '-')).head?.all (· == '=')

def form (word : String) : WordForm :=
  match word.toList with
  | ['-', '-'] => .endOfFlags
  | '-' :: '-' :: body => if isRule body then .positional else longForm body
  | '-' :: body => shortForm body
  | _ => .positional

def opensFlag : List Char → Bool
  | '-' :: '-' :: c :: _ => c != '-'
  | '-' :: c :: _ => c != '-'
  | _ => false

end Word

/-- Whether a word can be a value: one that starts with a dash is none, except for a negative number
after a long key and, after a group, also a word that opens no flag. -/
def Naming.admits (naming : Naming) (word : List Char) : Bool :=
  match naming with
  | .dotted => word.head? != some '-'
  | .long => word.head? != some '-' || Word.isNegativeNumber word
  | .group => !Word.opensFlag word || Word.isNegativeNumber word

end LineBasic
