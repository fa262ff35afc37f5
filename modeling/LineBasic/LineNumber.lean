import LineBasic.Number

/-! # Line numbers: the unsigned 32-bit labels of lines, in ascending order -/
namespace LineBasic
set_option autoImplicit false

def maxLineNumber : Nat := 4294967295

structure LineNumber where
  val : Nat
  le_max : val ≤ maxLineNumber
  deriving DecidableEq, Repr

structure InvalidLineNumber where
  number : Number
  deriving DecidableEq, Repr

def InvalidLineNumber.message (error : InvalidLineNumber) : String :=
  "Invalid LineNumber: " ++ error.number.text

namespace LineNumber

def ofNat (n : Nat) : Except InvalidLineNumber LineNumber :=
  if h : n ≤ maxLineNumber then .ok ⟨n, h⟩ else .error ⟨.whole n⟩

/-- Only whole numbers from zero to the greatest line number label lines. -/
def ofNumber : Number → Except InvalidLineNumber LineNumber
  | .whole (.ofNat n) => ofNat n
  | number => .error ⟨number⟩

/-- Negative if the first comes before the second, zero if they are equal. -/
def compare (a b : LineNumber) : Int := Int.ofNat a.val - Int.ofNat b.val

def sort (labels : List LineNumber) : List LineNumber :=
  labels.mergeSort fun a b => decide (compare a b ≤ 0)

def text (label : LineNumber) : String := Text.decimal label.val

end LineNumber

end LineBasic
