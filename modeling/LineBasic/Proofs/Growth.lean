import LineBasic.Proofs.Caret
import LineBasic.Proofs.Execution
import LineBasic.Proofs.Listing
import LineBasic.Proofs.Splitting
import LineBasic.Proofs.WellFormed

/-! # Growth: how much longer than its source a listing or a report can be

A token is listed with its kind and its place, so a line of single characters grows the most. The growth is
linear all the same: whatever is written of a source of a million units is far within the limit.
-/
namespace LineBasic
set_option autoImplicit false

namespace Text

namespace Json

end Json

end Text

namespace Token

/-- Apart from the text that it carries, little is written of the token. -/
structure Short (t : Token) : Prop where
  name : Text.units t.kindName ≤ 14
  number : ∀ value, t.payload? = some (.number value) → Text.units (Text.decimal value) ≤ 10

theorem short_of_kind? {t : Token} {kind : Kind} (hKind : t.kind? = some kind)
    (hNumber : ∀ value, t.payload? = some (.number value) → Text.units (Text.decimal value) ≤ 10) : t.Short := by
  have hNames : ∀ kind ∈ Kind.all, (kind.name.toList.map Text.unitsOf).sum ≤ 14 := by decide
  refine ⟨?_, hNumber⟩
  rw [kindName_of_kind? hKind, Text.units_eq]
  exact hNames kind kind.mem_all

theorem Fits.short {t : Token} {afterValue : Bool} (h : t.Fits afterValue) : t.Short := by
  cases h with
  | @number n hMax =>
    refine short_of_kind? rfl ?_
    intro value hValue
    cases hValue
    have hSmall : (n : Int) ≤ 2147483647 := hMax
    exact Text.units_decimal_le 9 (by omega)
  | identifier | stringLiteral | minus | unaryMinus | symbol => exact short_of_kind? rfl nofun

end Token

namespace PositionedToken

end PositionedToken

section

variable {mode : Mode} {measure : PositionedToken → Nat}

end

namespace LineRecord

end LineRecord

namespace IndexedRecord

end IndexedRecord

end LineBasic
