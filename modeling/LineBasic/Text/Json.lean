import LineBasic.Text.Decimal
import LineBasic.Text.Units

/-! # JSON: quoted strings, the indented form of a value, and how long that form is -/
namespace LineBasic.Text
set_option autoImplicit false

inductive Json where
  | string (value : String)
  | number (value : Int)
  | array (items : List Json)
  | object (fields : List (String × Json))

namespace Json

def hexDigit (n : Nat) : Char := Nat.digitChar (n % 16)

/-- Quotes, backslashes and control characters are escaped; all else stands for itself. -/
def escape (c : Char) : List Char :=
  if c = '"' then ['\\', '"']
  else if c = '\\' then ['\\', '\\']
  else if c = '\n' then ['\\', 'n']
  else if c = '\r' then ['\\', 'r']
  else if c = '\t' then ['\\', 't']
  else if c.toNat = 0x08 then ['\\', 'b']
  else if c.toNat = 0x0C then ['\\', 'f']
  else if c.toNat < 0x20 then ['\\', 'u', '0', '0', hexDigit (c.toNat / 16), hexDigit c.toNat]
  else [c]

def quote (text : String) : String := String.ofList ('"' :: (text.toList.flatMap escape ++ ['"']))

def lineBreak (depth : Nat) : String := String.ofList ('\n' :: List.replicate (2 * depth) ' ')

mutual

/-- One item or field per row, two spaces deeper than its container; empty containers stay closed. -/
def render (depth : Nat) : Json → String
  | .string value => quote value
  | .number value => decimal value
  | .array [] => "[]"
  | .array (item :: items) =>
    "[" ++ lineBreak (depth + 1) ++ render (depth + 1) item ++ renderItems (depth + 1) items ++
      lineBreak depth ++ "]"
  | .object [] => "\x7b\x7d"
  | .object (field :: fields) =>
    "\x7b" ++ lineBreak (depth + 1) ++ renderField (depth + 1) field ++ renderFields (depth + 1) fields ++
      lineBreak depth ++ "\x7d"

def renderItems (depth : Nat) : List Json → String
  | [] => ""
  | item :: items => "," ++ lineBreak depth ++ render depth item ++ renderItems depth items

def renderField (depth : Nat) : String × Json → String
  | (key, value) => quote key ++ ": " ++ render depth value

def renderFields (depth : Nat) : List (String × Json) → String
  | [] => ""
  | field :: fields => "," ++ lineBreak depth ++ renderField depth field ++ renderFields depth fields

end

/-- The characters with a short escape have two units, the other control characters six. -/
def escapeUnits (c : Char) : Nat :=
  if c.toNat < 0x20 then
    if c = '\n' ∨ c = '\r' ∨ c = '\t' ∨ c.toNat = 0x08 ∨ c.toNat = 0x0C then 2 else 6
  else if c = '"' ∨ c = '\\' then 2
  else unitsOf c

def quoteUnits (text : String) : Nat := text.foldl (fun total c => total + escapeUnits c) 2

def breakUnits (depth : Nat) : Nat := 2 * depth + 1

/-- Entries of the given sizes between brackets, one to a row. -/
def rowsSize (depth : Nat) : List Nat → Nat
  | [] => 2
  | first :: rest =>
    rest.foldl (fun total size => total + (1 + breakUnits (depth + 1) + size))
      (2 + breakUnits (depth + 1) + first + breakUnits depth)

mutual

/-- The units of the indented form, told without writing it. -/
def size (depth : Nat) : Json → Nat
  | .string value => quoteUnits value
  | .number value => units (decimal value)
  | .array items => rowsSize depth (itemSizes (depth + 1) items)
  | .object fields => rowsSize depth (fieldSizes (depth + 1) fields)

def itemSizes (depth : Nat) : List Json → List Nat
  | [] => []
  | item :: items => size depth item :: itemSizes depth items

def fieldSize (depth : Nat) : String × Json → Nat
  | (key, value) => quoteUnits key + 2 + size depth value

def fieldSizes (depth : Nat) : List (String × Json) → List Nat
  | [] => []
  | field :: fields => fieldSize depth field :: fieldSizes depth fields

end

end Json

end LineBasic.Text
