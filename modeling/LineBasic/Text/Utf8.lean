/-! # Lossy UTF-8: a replacement character stands for each maximal invalid part

A character is read as a lead byte and the continuation bytes it announces. The first continuation
byte may be confined to a part of the range 80 to BF; this is what excludes overlong forms,
surrogates and values past 10FFFF. Where a byte does not fit, the bytes read for the unfinished
character become one replacement character and the byte is read again as a lead byte.
-/
namespace LineBasic.Text.Utf8
set_option autoImplicit false

/-- A character that still owes continuation bytes, with the bounds of the next one. -/
structure Pending where
  owed : Nat
  value : Nat
  low : Nat
  high : Nat

inductive Lead where
  | complete (c : Char)
  | pending (p : Pending)
  | invalid

def replacement : Char := Char.ofNat 0xFFFD

def lead (byte : Nat) : Lead :=
  if byte < 0x80 then .complete (Char.ofNat byte)
  else if 0xC2 ≤ byte ∧ byte ≤ 0xDF then .pending ⟨1, byte - 0xC0, 0x80, 0xBF⟩
  else if 0xE0 ≤ byte ∧ byte ≤ 0xEF then
    .pending ⟨2, byte - 0xE0, if byte = 0xE0 then 0xA0 else 0x80, if byte = 0xED then 0x9F else 0xBF⟩
  else if 0xF0 ≤ byte ∧ byte ≤ 0xF4 then
    .pending ⟨3, byte - 0xF0, if byte = 0xF0 then 0x90 else 0x80, if byte = 0xF4 then 0x8F else 0xBF⟩
  else .invalid

def Pending.extend (p : Pending) (byte : Nat) : Lead :=
  let value := p.value * 64 + (byte - 0x80)
  if p.owed ≤ 1 then .complete (Char.ofNat value) else .pending ⟨p.owed - 1, value, 0x80, 0xBF⟩

def step (pending : Option Pending) (byte : Nat) : List Char × Option Pending :=
  match pending with
  | none => settle [] (lead byte)
  | some p =>
    if p.low ≤ byte ∧ byte ≤ p.high then settle [] (p.extend byte) else settle [replacement] (lead byte)
where
  settle (before : List Char) : Lead → List Char × Option Pending
    | .complete c => (before ++ [c], none)
    | .pending p => (before, some p)
    | .invalid => (before ++ [replacement], none)

/-- The text so far, with what the bytes add to it. -/
def decodeOnto (text : String) (pending : Option Pending) : List UInt8 → String
  | [] => if pending.isSome then text.push replacement else text
  | byte :: rest =>
    let (chars, next) := step pending byte.toNat
    decodeOnto (chars.foldl String.push text) next rest

/-- Every byte sequence has a text; a byte order mark is kept as a character. -/
def decode (bytes : List UInt8) : String := decodeOnto "" none bytes

end LineBasic.Text.Utf8
