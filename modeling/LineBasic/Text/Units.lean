/-! # Units: the length of a text, in which a character beyond the first plane counts twice -/
namespace LineBasic.Text
set_option autoImplicit false

def unitsOf (c : Char) : Nat := if c.toNat < 0x10000 then 1 else 2

def units (text : String) : Nat := text.foldl (fun total c => total + unitsOf c) 0

end LineBasic.Text
