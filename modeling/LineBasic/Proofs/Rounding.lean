import LineBasic.Number

/-! # Integers in double precision

Below 2^53 rounding leaves an integer as it is. From there on the rounded number is 2^53 or more, or
infinity, so that a comparison with a lesser bound comes out as for the integer itself.
-/
namespace LineBasic.Number
set_option autoImplicit false

theorem ofBinary_of_scaled (negative : Bool) {n : Nat} {exponent : Int} (hExponent : exponent ≤ 0)
    (hSmall : n < Nat.pow 2 53) :
    ofBinary negative (n * Nat.pow 2 (-exponent).toNat) exponent =
      .whole (if negative then -Int.ofNat n else Int.ofNat n) := by
  have hDivisor : 0 < Nat.pow 2 (-exponent).toNat := Nat.pow_pos (by decide)
  have hScale : Nat.pow 2 exponent.toNat = 1 := by
    rw [Int.toNat_of_nonpos hExponent, Nat.pow_eq, Nat.pow_zero]
  rw [ofBinary, hScale, Nat.mul_one, Nat.mul_div_cancel n hDivisor, if_pos ⟨Nat.mul_mod_left n _, hSmall⟩]

theorem log2_lt_iff {n : Nat} : n.log2 < 53 ↔ n < Nat.pow 2 53 := by
  by_cases hZero : n = 0
  · rw [hZero]
    decide
  · exact Nat.log2_lt hZero

/-- An integer below 2^53 has at most 53 binary digits, so nothing of it is lost. -/
theorem rounded_of_lt (negative : Bool) {n : Nat} (hSmall : n < Nat.pow 2 53) :
    rounded negative n 0 = .whole (if negative then -Int.ofNat n else Int.ofNat n) := by
  have hLeast : max (0 + Int.ofNat n.log2 - 52) (-1074) ≤ 0 := by
    have hDigits : Int.ofNat n.log2 < 53 := Int.ofNat_lt.mpr (log2_lt_iff.mpr hSmall)
    omega
  rw [rounded]
  dsimp only
  rw [if_pos hLeast, Int.zero_sub]
  exact ofBinary_of_scaled negative hLeast hSmall

/-- Numbers of magnitude 2^53 or more. -/
inductive Large (negative : Bool) : Number → Prop
  | binary {significand : Nat} {exponent : Int} (hExponent : 0 ≤ exponent)
      (hLarge : Nat.pow 2 53 ≤ significand * Nat.pow 2 exponent.toNat) :
      Large negative (.binary negative significand exponent)
  | infinite : Large negative (.infinite negative)

theorem ofBinary_large (negative : Bool) {significand : Nat} {exponent : Int} (hExponent : 0 ≤ exponent)
    (hLarge : Nat.pow 2 53 ≤ significand * Nat.pow 2 exponent.toNat) :
    (ofBinary negative significand exponent).Large negative := by
  have hDivisor : Nat.pow 2 (-exponent).toNat = 1 := by
    rw [Int.toNat_of_nonpos (by omega), Nat.pow_eq, Nat.pow_zero]
  rw [ofBinary, hDivisor, Nat.div_one, Nat.mod_one, if_neg fun h => Nat.not_lt.mpr hLarge h.2]
  exact .binary hExponent hLarge

theorem le_roundedQuotient (numerator divisor : Nat) : numerator / divisor ≤ roundedQuotient numerator divisor := by
  rw [roundedQuotient]
  split
  · exact Nat.le_refl _
  · exact Nat.le_succ _

/-- The first 53 binary digits are kept, so that the rounded number is no less than a power of two below it. -/
theorem rounded_large (negative : Bool) {n : Nat} (hLarge : Nat.pow 2 53 ≤ n) :
    (rounded negative n 0).Large negative := by
  have hNonzero : n ≠ 0 := by
    rintro rfl
    exact absurd hLarge (by decide)
  have hDigits : 53 ≤ n.log2 := (Nat.le_log2 hNonzero).mpr hLarge
  obtain ⟨k, hLog⟩ := Nat.exists_eq_add_of_le hDigits
  have hLeast : max (0 + Int.ofNat n.log2 - 52) (-1074) = Int.ofNat (k + 1) := by
    rw [hLog]
    simp only [Int.ofNat_eq_natCast]
    omega
  have hPower : Nat.pow 2 52 * Nat.pow 2 (k + 1) = Nat.pow 2 n.log2 := by
    rw [hLog, show 53 + k = 52 + (k + 1) by omega]
    exact (Nat.pow_add 2 52 (k + 1)).symm
  have hSignificand : Nat.pow 2 52 ≤ roundedQuotient n (Nat.pow 2 (k + 1)) := by
    have hPositive : 0 < Nat.pow 2 (k + 1) := Nat.pow_pos (by decide)
    refine Nat.le_trans ((Nat.le_div_iff_mul_le hPositive).mpr ?_) (le_roundedQuotient n _)
    rw [hPower]
    exact Nat.log2_self_le hNonzero
  have hScaled {significand : Nat} (j : Nat) (h : Nat.pow 2 52 ≤ significand) :
      Nat.pow 2 53 ≤ significand * Nat.pow 2 (j + 1) :=
    calc Nat.pow 2 53 = Nat.pow 2 52 * Nat.pow 2 1 := rfl
      _ ≤ significand * Nat.pow 2 (j + 1) := Nat.mul_le_mul h (Nat.pow_le_pow_right (by decide) (by omega))
  rw [rounded]
  dsimp only
  rw [hLeast, if_neg (by simp only [Int.ofNat_eq_natCast]; omega)]
  rw [Int.sub_zero]
  change (if _ then _ else _ : Number).Large negative
  split
  · exact ofBinary_large negative (by simp only [Int.ofNat_eq_natCast]; omega) (hScaled (k + 1) (Nat.le_refl _))
  · exact ofBinary_large negative (Int.natCast_nonneg _) (hScaled k hSignificand)

theorem ofInt_of_lt {value : Int} (hSmall : value.natAbs < Nat.pow 2 53) : ofInt value = .whole value :=
  if_pos (log2_lt_iff.mpr hSmall)

/-- Integers are rounded by one rule; those with few digits are not singled out by it. -/
theorem ofInt_eq_rounded {value : Int} (hSmall : value.natAbs < Nat.pow 2 53) :
    ofInt value = rounded (decide (value < 0)) value.natAbs 0 := by
  have hValue : (if decide (value < 0) then -Int.ofNat value.natAbs else Int.ofNat value.natAbs) = value := by
    simp only [decide_eq_true_eq, Int.ofNat_eq_natCast]
    omega
  rw [ofInt_of_lt hSmall, rounded_of_lt _ hSmall, hValue]

theorem ofInt_large {value : Int} (hLarge : Nat.pow 2 53 ≤ value.natAbs) :
    (ofInt value).Large (decide (value < 0)) := by
  have hRounded := rounded_large (decide (value < 0)) hLarge
  rw [ofInt, if_neg fun hDigits => Nat.not_lt.mpr hLarge (log2_lt_iff.mp hDigits)]
  generalize rounded (decide (value < 0)) value.natAbs 0 = number at hRounded
  cases hRounded with
  | binary hExponent hLarge =>
    dsimp only
    split
    · exact .infinite
    · exact .binary hExponent hLarge
  | infinite => exact .infinite

theorem Large.compareInt? {negative : Bool} {number : Number} (h : number.Large negative) {bound : Int}
    (hBound : bound.natAbs < Nat.pow 2 53) :
    number.compareInt? bound = some (if negative then .lt else .gt) := by
  cases h with
  | @binary significand exponent hExponent hLarge =>
    have hDivisor : Nat.pow 2 (-exponent).toNat = 1 := by
      rw [Int.toNat_of_nonpos (by omega), Nat.pow_eq, Nat.pow_zero]
    rw [Number.compareInt?, hDivisor]
    generalize significand * Nat.pow 2 exponent.toNat = magnitude at hLarge
    have hFar : bound.natAbs < magnitude := Nat.lt_of_lt_of_le hBound hLarge
    cases negative with
    | true =>
      have hLess : -Int.ofNat magnitude < bound * Int.ofNat 1 := by
        simp only [Int.ofNat_eq_natCast]
        omega
      exact congrArg some (Int.compare_eq_lt.mpr hLess)
    | false =>
      have hGreater : bound * Int.ofNat 1 < Int.ofNat magnitude := by
        simp only [Int.ofNat_eq_natCast]
        omega
      exact congrArg some (Int.compare_eq_gt.mpr hGreater)
  | infinite => rfl

/-- A bound below 2^53 divides the rounded numbers as it divides the integers. -/
theorem compareInt?_ofInt (value : Int) {bound : Int} (hBound : bound.natAbs < Nat.pow 2 53) :
    (ofInt value).compareInt? bound = some (compare value bound) := by
  by_cases hSmall : value.natAbs < Nat.pow 2 53
  · rw [ofInt_of_lt hSmall, compareInt?]
  · have hLarge := Nat.le_of_not_lt hSmall
    rw [(ofInt_large hLarge).compareInt? hBound]
    by_cases hSign : value < 0
    · have hLess : value < bound := by omega
      rw [decide_eq_true hSign, if_pos rfl, Int.compare_eq_lt.mpr hLess]
    · have hGreater : bound < value := by omega
      rw [decide_eq_false hSign, Int.compare_eq_gt.mpr hGreater]
      rfl

theorem atMost_ofInt (value : Int) {bound : Int} (hBound : bound.natAbs < Nat.pow 2 53) :
    (ofInt value).atMost bound = decide (value ≤ bound) := by
  rw [atMost, compareInt?_ofInt value hBound, Option.any_some, Bool.eq_iff_iff, decide_eq_true_eq]
  exact Int.isLE_compare

theorem atLeast_ofInt (value : Int) {bound : Int} (hBound : bound.natAbs < Nat.pow 2 53) :
    (ofInt value).atLeast bound = decide (bound ≤ value) := by
  rw [atLeast, compareInt?_ofInt value hBound, Option.any_some, Bool.eq_iff_iff, decide_eq_true_eq]
  exact Int.isGE_compare

end LineBasic.Number
