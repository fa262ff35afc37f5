/-! # Whitespace: the characters that separate words and make a line blank -/
namespace LineBasic.Text
set_option autoImplicit false

/-- Code point ranges of the whitespace characters, both ends included. -/
def spaceRanges : List (Nat × Nat) :=
  [(0x09, 0x0D), (0x20, 0x20), (0xA0, 0xA0), (0x1680, 0x1680), (0x2000, 0x200A), (0x2028, 0x2029),
    (0x202F, 0x202F), (0x205F, 0x205F), (0x3000, 0x3000), (0xFEFF, 0xFEFF)]

def isSpace (c : Char) : Bool :=
  spaceRanges.any fun range => decide (range.1 ≤ c.toNat) && decide (c.toNat ≤ range.2)

def isBlank (text : List Char) : Bool := text.all isSpace

end LineBasic.Text
