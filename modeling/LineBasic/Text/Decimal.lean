/-! # Decimal integers: writing them, and reading runs of ASCII digits of any length exactly -/
namespace LineBasic.Text
set_option autoImplicit false

/-- All digits, no leading zero, a minus sign in front of a negative number. -/
def decimal : Int → String
  | .ofNat n => n.repr
  | .negSucc n => "-" ++ (n + 1).repr

/-- The number written by a non-empty run of ASCII digits; leading zeros count for nothing. -/
def natOfDigits? (text : List Char) : Option Nat :=
  if !text.isEmpty && text.all Char.isDigit then some (Nat.ofDigitChars 10 text 0) else none

/-- As for naturals, after at most one sign. -/
def intOfDigits? : List Char → Option Int
  | '-' :: digits => (natOfDigits? digits).map fun n => -Int.ofNat n
  | '+' :: digits => (natOfDigits? digits).map Int.ofNat
  | digits => (natOfDigits? digits).map Int.ofNat

/-- A run of ASCII digits and the number it writes; leading zeros count for nothing. -/
structure Numeral (digits : List Char) (n : Nat) : Prop where
  nonempty : digits ≠ []
  isDigit : ∀ c ∈ digits, c.isDigit = true
  value : Nat.ofDigitChars 10 digits 0 = n

theorem natOfDigits?_eq_some_iff {digits : List Char} {n : Nat} :
    natOfDigits? digits = some n ↔ Numeral digits n := by
  unfold natOfDigits?
  constructor
  · intro h
    split at h
    · rename_i hDigits
      rw [Bool.and_eq_true, Bool.not_eq_true', List.isEmpty_eq_false_iff, List.all_eq_true] at hDigits
      exact ⟨hDigits.1, hDigits.2, Option.some.inj h⟩
    · cases h
  · rintro ⟨hNonempty, hDigits, rfl⟩
    rw [if_pos]
    rw [Bool.and_eq_true, Bool.not_eq_true', List.isEmpty_eq_false_iff, List.all_eq_true]
    exact ⟨hNonempty, hDigits⟩

theorem Numeral.unique {digits : List Char} {n m : Nat} (h : Numeral digits n) (hOther : Numeral digits m) :
    n = m := h.value.symm.trans hOther.value

theorem numeral_toDigits (n : Nat) : Numeral (Nat.toDigits 10 n) n where
  nonempty := Nat.toDigits_ne_nil
  isDigit _ hc := Nat.isDigit_of_mem_toDigits (by decide) (by decide) hc
  value := Nat.ofDigitChars_ten_toDigits

theorem toList_decimal (n : Nat) : (decimal n).toList = Nat.toDigits 10 n := Nat.toList_repr

theorem not_mem_decimal (value : Int) : '\n' ∉ (decimal value).toList := by
  have hDigits (n : Nat) : '\n' ∉ n.repr.toList := by
    intro hBreak
    rw [Nat.toList_repr] at hBreak
    cases (numeral_toDigits n).isDigit '\n' hBreak
  cases value with
  | ofNat n => exact hDigits n
  | negSucc n =>
    rw [decimal, String.toList_append, List.mem_append, not_or]
    exact ⟨by decide, hDigits (n + 1)⟩

theorem natOfDigits?_toDigits (n : Nat) : natOfDigits? (Nat.toDigits 10 n) = some n :=
  natOfDigits?_eq_some_iff.mpr (numeral_toDigits n)

theorem Numeral.exists_cons {digits : List Char} {n : Nat} (h : Numeral digits n) :
    ∃ first rest, digits = first :: rest ∧ first.isDigit = true := by
  obtain ⟨first, rest, rfl⟩ := List.exists_cons_of_ne_nil h.nonempty
  exact ⟨first, rest, rfl, h.isDigit first List.mem_cons_self⟩

theorem intOfDigits?_of_numeral {digits : List Char} {n : Nat} (h : Numeral digits n) :
    intOfDigits? digits = some (Int.ofNat n) := by
  obtain ⟨first, rest, rfl, hFirst⟩ := h.exists_cons
  unfold intOfDigits?
  split
  · rename_i hMinus
    cases hMinus
    cases hFirst
  · rename_i hPlus
    cases hPlus
    cases hFirst
  · rw [natOfDigits?_eq_some_iff.mpr h]
    rfl

theorem intOfDigits?_of_plus {digits : List Char} {n : Nat} (h : Numeral digits n) :
    intOfDigits? ('+' :: digits) = some (Int.ofNat n) := by
  rw [intOfDigits?, natOfDigits?_eq_some_iff.mpr h]
  rfl

/-- Without a minus sign in front only naturals can be written, with or without a plus sign. -/
theorem eq_ofNat_of_intOfDigits? {word : List Char} {value : Int} (hSign : word.head? ≠ some '-')
    (h : intOfDigits? word = some value) :
    ∃ n, value = Int.ofNat n ∧ (Numeral word n ∨ ∃ digits, word = '+' :: digits ∧ Numeral digits n) := by
  unfold intOfDigits? at h
  split at h
  · exact False.elim (hSign rfl)
  · rename_i digits
    obtain ⟨n, hDigits, rfl⟩ := Option.map_eq_some_iff.mp h
    exact ⟨n, rfl, .inr ⟨digits, rfl, natOfDigits?_eq_some_iff.mp hDigits⟩⟩
  · obtain ⟨n, hDigits, rfl⟩ := Option.map_eq_some_iff.mp h
    exact ⟨n, rfl, .inl (natOfDigits?_eq_some_iff.mp hDigits)⟩

end LineBasic.Text
