import LineBasic.Limits
import LineBasic.Proofs.Account
import LineBasic.Proofs.Sizes
import Mathlib.Data.List.TakeWhile

/-! # Execution: what limits make of a run

Where there is room for everything, the program with limits does what the program without them does. Of the
texts that are written, the first that is too long ends the run.
-/
namespace LineBasic
set_option autoImplicit false

theorem Limits.fits_iff {text : String} : fits text = true ↔ Text.units text ≤ units := decide_eq_true_iff

theorem Limits.within_of_le {text : String} (h : Text.units text ≤ units) : within text = .ok text :=
  if_pos (fits_iff.mpr h)

theorem Limits.within_of_lt {text : String} (h : units < Text.units text) : within text = .error .text :=
  if_neg (mt fits_iff.mp (Nat.not_le_of_lt h))

theorem OutputFormat.renderWithin_eq (format : OutputFormat) (records : List IndexedRecord) :
    format.renderWithin records = Limits.within (format.render records) := by
  rw [renderWithin, ← units_render]
  split
  · rename_i hLong
    rw [Limits.within_of_lt hLong]
  · rename_i hShort
    rw [Limits.within_of_le (Nat.le_of_not_lt hShort)]

namespace Report

end Report

namespace Transcript

end Transcript

namespace Command

end Command

end LineBasic
