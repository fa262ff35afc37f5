import LineBasic.Text.Json

/-! # Quoted strings: the forms in which JSON writes a character and a string

A form is told with what follows it. Whatever the form, the start of a text settles which string is
quoted there and where it ends.
-/
namespace LineBasic.Text.Json
set_option autoImplicit false

/-- The letters that a backslash makes into characters. -/
def shortEscapes : List (Char × Char) :=
  [('"', '"'), ('\\', '\\'), ('/', '/'), ('b', '\x08'), ('f', '\x0C'), ('n', '\n'), ('r', '\r'), ('t', '\t')]

def hexValue? (c : Char) : Option Nat :=
  if c.isDigit then some (c.toNat - 48)
  else if 97 ≤ c.toNat ∧ c.toNat ≤ 102 then some (c.toNat - 87)
  else if 65 ≤ c.toNat ∧ c.toNat ≤ 70 then some (c.toNat - 55)
  else none

/-- Four hexadecimal digits and the number they write. -/
inductive HexUnit : Nat → List Char → List Char → Prop
  | digits {a b c d : Char} {i j k l : Nat} {rest : List Char} (hA : hexValue? a = some i)
      (hB : hexValue? b = some j) (hC : hexValue? c = some k) (hD : hexValue? d = some l) :
      HexUnit (((i * 16 + j) * 16 + k) * 16 + l) (a :: b :: c :: d :: rest) rest

/-- A character inside a quoted string. Two units write one character beyond the basic plane. -/
inductive CharForm : Char → List Char → List Char → Prop
  | plain {c : Char} {rest : List Char} (hQuote : c ≠ '"') (hBackslash : c ≠ '\\') (hControl : 0x20 ≤ c.toNat) :
      CharForm c (c :: rest) rest
  | short {letter c : Char} {rest : List Char} (hEntry : (letter, c) ∈ shortEscapes) :
      CharForm c ('\\' :: letter :: rest) rest
  | unit {c : Char} {text rest : List Char} (hUnit : HexUnit c.toNat text rest) :
      CharForm c ('\\' :: 'u' :: text) rest
  | pair {c : Char} {high low : Nat} {text more rest : List Char}
      (hHigh : HexUnit (0xD800 + high) text ('\\' :: 'u' :: more)) (hLow : HexUnit (0xDC00 + low) more rest)
      (hHighMax : high < 0x400) (hLowMax : low < 0x400) (hValue : c.toNat = 0x10000 + high * 0x400 + low) :
      CharForm c ('\\' :: 'u' :: text) rest

/-- The characters of a string up to its closing quote. -/
inductive Body : List Char → List Char → List Char → Prop
  | close {rest : List Char} : Body [] ('"' :: rest) rest
  | char {c : Char} {chars text more rest : List Char} (hChar : CharForm c text more)
      (hBody : Body chars more rest) : Body (c :: chars) text rest

inductive Quoted : String → List Char → List Char → Prop
  | body {value : String} {text rest : List Char} (hBody : Body value.toList text rest) :
      Quoted value ('"' :: text) rest

variable {text rest otherRest : List Char}

theorem HexUnit.unique {m n : Nat} (h : HexUnit m text rest) (hOther : HexUnit n text otherRest) :
    m = n ∧ rest = otherRest := by
  cases h with
  | digits hA hB hC hD =>
    cases hOther with
    | digits hA' hB' hC' hD' =>
      cases hA.symm.trans hA'
      cases hB.symm.trans hB'
      cases hC.symm.trans hC'
      cases hD.symm.trans hD'
      exact ⟨rfl, rfl⟩

theorem toNat_ne_surrogate (c : Char) {high : Nat} (hHigh : high < 0x400) : c.toNat ≠ 0xD800 + high := by
  intro hValue
  -- Surrogates are the units of pairs and no characters.
  rcases c.valid with hLow | ⟨hAbove, -⟩
  · change c.toNat < 0xD800 at hLow
    omega
  · change 0xDFFF < c.toNat at hAbove
    omega

theorem eq_of_mem_shortEscapes {letter c d : Char} (h : (letter, c) ∈ shortEscapes)
    (hOther : (letter, d) ∈ shortEscapes) : c = d := by
  have hEntries : ∀ entry ∈ shortEscapes, shortEscapes.lookup entry.1 = some entry.2 := by decide
  exact Option.some.inj ((hEntries _ h).symm.trans (hEntries _ hOther))

theorem ne_unit_of_mem_shortEscapes {letter c : Char} (h : (letter, c) ∈ shortEscapes) : letter ≠ 'u' := by
  have hEntries : ∀ entry ∈ shortEscapes, entry.1 ≠ 'u' := by decide
  exact hEntries _ h

theorem CharForm.unique {c d : Char} (h : CharForm c text rest) (hOther : CharForm d text otherRest) :
    c = d ∧ rest = otherRest := by
  cases h with
  | plain hQuote hBackslash =>
    cases hOther with
    | plain => exact ⟨rfl, rfl⟩
    | short | unit | pair => exact False.elim (hBackslash rfl)
  | short hEntry =>
    cases hOther with
    | plain _ hBackslash => exact False.elim (hBackslash rfl)
    | short hEntry' => exact ⟨eq_of_mem_shortEscapes hEntry hEntry', rfl⟩
    | unit | pair => exact False.elim (ne_unit_of_mem_shortEscapes hEntry rfl)
  | unit hUnit =>
    cases hOther with
    | plain _ hBackslash => exact False.elim (hBackslash rfl)
    | short hEntry => exact False.elim (ne_unit_of_mem_shortEscapes hEntry rfl)
    | unit hUnit' =>
      obtain ⟨hValue, hRest⟩ := hUnit.unique hUnit'
      exact ⟨Char.toNat_inj.mp hValue, hRest⟩
    | pair hHigh _ hHighMax => exact False.elim (toNat_ne_surrogate c hHighMax (hUnit.unique hHigh).1)
  | pair hHigh hLow hHighMax _ hValue =>
    cases hOther with
    | plain _ hBackslash => exact False.elim (hBackslash rfl)
    | short hEntry => exact False.elim (ne_unit_of_mem_shortEscapes hEntry rfl)
    | unit hUnit => exact False.elim (toNat_ne_surrogate d hHighMax (hUnit.unique hHigh).1)
    | pair hHigh' hLow' _ _ hValue' =>
      obtain ⟨hSameHigh, hMore⟩ := hHigh.unique hHigh'
      cases hMore
      obtain ⟨hSameLow, hRest⟩ := hLow.unique hLow'
      refine ⟨Char.toNat_inj.mp ?_, hRest⟩
      rw [hValue, hValue', Nat.add_left_cancel hSameHigh, Nat.add_left_cancel hSameLow]

theorem not_charForm_quote {c : Char} : ¬ CharForm c ('"' :: text) rest := by
  intro h
  cases h with
  | plain hQuote => exact hQuote rfl

theorem Body.unique {chars others : List Char} (h : Body chars text rest) (hOther : Body others text otherRest) :
    chars = others ∧ rest = otherRest := by
  induction h generalizing others with
  | close =>
    cases hOther with
    | close => exact ⟨rfl, rfl⟩
    | char hChar => exact False.elim (not_charForm_quote hChar)
  | char hChar _ ih =>
    cases hOther with
    | close => exact False.elim (not_charForm_quote hChar)
    | char hChar' hBody' =>
      obtain ⟨rfl, rfl⟩ := hChar.unique hChar'
      obtain ⟨rfl, rfl⟩ := ih hBody'
      exact ⟨rfl, rfl⟩

theorem Quoted.unique {value other : String} (h : Quoted value text rest) (hOther : Quoted other text otherRest) :
    value = other ∧ rest = otherRest := by
  cases h with
  | body hBody =>
    cases hOther with
    | body hBody' =>
      obtain ⟨hChars, hRest⟩ := hBody.unique hBody'
      exact ⟨String.toList_inj.mp hChars, hRest⟩

theorem hexValue?_hexDigit (n : Nat) : hexValue? (hexDigit n) = some (n % 16) := by
  have hDigits : ∀ k < 16, hexValue? (Nat.digitChar k) = some k := by decide
  exact hDigits _ (Nat.mod_lt n (by decide))

theorem escape_cases (c : Char) :
    (∃ letter, (letter, c) ∈ shortEscapes ∧ escape c = ['\\', letter]) ∨
      (c.toNat < 0x20 ∧ escape c = ['\\', 'u', '0', '0', hexDigit (c.toNat / 16), hexDigit c.toNat]) ∨
      (c ≠ '"' ∧ c ≠ '\\' ∧ 0x20 ≤ c.toNat ∧ escape c = [c]) := by
  have hLetter {letter d : Char} (hEntry : (letter, d) ∈ shortEscapes) (hChar : c = d) :
      (letter, c) ∈ shortEscapes := by rwa [hChar]
  unfold escape
  split
  · rename_i h
    exact .inl ⟨'"', hLetter (by decide) h, rfl⟩
  split
  · rename_i h
    exact .inl ⟨'\\', hLetter (by decide) h, rfl⟩
  split
  · rename_i h
    exact .inl ⟨'n', hLetter (by decide) h, rfl⟩
  split
  · rename_i h
    exact .inl ⟨'r', hLetter (by decide) h, rfl⟩
  split
  · rename_i h
    exact .inl ⟨'t', hLetter (by decide) h, rfl⟩
  split
  · rename_i h
    exact .inl ⟨'b', @hLetter 'b' '\x08' (by decide) (Char.toNat_inj.mp h), rfl⟩
  split
  · rename_i h
    exact .inl ⟨'f', @hLetter 'f' '\x0C' (by decide) (Char.toNat_inj.mp h), rfl⟩
  split
  · rename_i h
    exact .inr (.inl ⟨h, rfl⟩)
  · rename_i hQuote hBackslash _ _ _ _ _ hControl
    exact .inr (.inr ⟨hQuote, hBackslash, Nat.le_of_not_lt hControl, rfl⟩)

theorem charForm_escape (c : Char) (rest : List Char) : CharForm c (escape c ++ rest) rest := by
  rcases escape_cases c with ⟨letter, hEntry, hEscape⟩ | ⟨hControl, hEscape⟩ | ⟨hQuote, hBackslash, hControl, hEscape⟩
  · rw [hEscape]
    exact .short hEntry
  · have hUnit := @HexUnit.digits '0' '0' _ _ 0 0 _ _ rest rfl rfl (hexValue?_hexDigit (c.toNat / 16))
      (hexValue?_hexDigit c.toNat)
    have hValue : ((0 * 16 + 0) * 16 + c.toNat / 16 % 16) * 16 + c.toNat % 16 = c.toNat := by omega
    rw [hValue] at hUnit
    rw [hEscape]
    exact .unit hUnit
  · rw [hEscape]
    exact .plain hQuote hBackslash hControl

theorem body_escape (chars rest : List Char) : Body chars (chars.flatMap escape ++ '"' :: rest) rest := by
  induction chars with
  | nil => exact .close
  | cons c chars ih =>
    rw [List.flatMap_cons, List.append_assoc]
    exact .char (charForm_escape c _) ih

theorem quoted_quote (value : String) (rest : List Char) : Quoted value ((quote value).toList ++ rest) rest := by
  have hBody := body_escape value.toList rest
  rw [quote, String.toList_ofList, List.cons_append, List.append_assoc]
  exact .body hBody

theorem le_toNat_hexDigit (n : Nat) : 0x20 ≤ (hexDigit n).toNat := by
  have hDigits : ∀ k < 16, 0x20 ≤ (Nat.digitChar k).toNat := by decide
  exact hDigits _ (Nat.mod_lt n (by decide))

theorem le_toNat_of_mem_escape {c x : Char} (h : x ∈ escape c) : 0x20 ≤ x.toNat := by
  rcases escape_cases c with ⟨letter, hEntry, hEscape⟩ | ⟨-, hEscape⟩ | ⟨-, -, hControl, hEscape⟩
  · have hEntries : ∀ entry ∈ shortEscapes, 0x20 ≤ entry.1.toNat := by decide
    rw [hEscape, List.mem_cons, List.mem_singleton] at h
    rcases h with rfl | rfl
    · decide
    · exact hEntries _ hEntry
  · rw [hEscape] at h
    simp only [List.mem_cons, List.not_mem_nil, or_false] at h
    rcases h with rfl | rfl | rfl | rfl | rfl | rfl
    · decide
    · decide
    · decide
    · decide
    · exact le_toNat_hexDigit _
    · exact le_toNat_hexDigit _
  · rw [hEscape, List.mem_singleton] at h
    rwa [h]

/-- No control character is left in a quoted string, so it keeps to its row. -/
theorem le_toNat_of_mem_quote {value : String} {x : Char} (h : x ∈ (quote value).toList) : 0x20 ≤ x.toNat := by
  rw [quote, String.toList_ofList, List.mem_cons, List.mem_append, List.mem_flatMap, List.mem_singleton] at h
  rcases h with rfl | ⟨c, -, hEscape⟩ | rfl
  · decide
  · exact le_toNat_of_mem_escape hEscape
  · decide

end LineBasic.Text.Json
