import LineBasic.Proofs.Rounding
import LineBasic.Token.Vocabulary

/-! # Words: how tokens are written as words, without the order in which a word is tried

A number may be written with leading zeros and a plus sign; every other token has one form. No word
of a token holds a character that ends words or that is a token of its own where a word may start.
-/
namespace LineBasic
set_option autoImplicit false

/-- The characters a word may start with. -/
def opensWord (c : Char) : Bool := isWordChar c && !(['"', '-', '!', '('].contains c)

/-- The words that write a token. -/
inductive Token.WordFor : Token → List Char → Prop
  | number {digits : List Char} {n : Nat} (hDigits : Text.Numeral digits n)
      (hMax : Int.ofNat n ≤ maxNumber) : WordFor (.number (Int.ofNat n)) digits
  | signedNumber {digits : List Char} {n : Nat} (hDigits : Text.Numeral digits n)
      (hMax : Int.ofNat n ≤ maxNumber) : WordFor (.number (Int.ofNat n)) ('+' :: digits)
  | symbol {word : String} {s : Symbol} (hEntry : (word, s) ∈ wordTable) :
      WordFor (.symbol s) word.toList
  | identifier {name : String} (hName : isIdentifier name.toList = true)
      (hTable : lookupWord name = none) : WordFor (.identifier name) name.toList

theorem opensWord_iff (c : Char) :
    opensWord c = true ↔ isWordChar c = true ∧ c ≠ '"' ∧ c ≠ '-' ∧ c ≠ '!' ∧ c ≠ '(' := by
  simp [opensWord]

theorem isWordChar_eq_false_iff (c : Char) :
    isWordChar c = false ↔ Text.isSpace c = true ∨ c = ')' := by
  simp only [isWordChar, Bool.and_eq_false_iff, Bool.not_eq_false', bne_eq_false_iff_eq]

theorem isSpace_of_isWordChar {c : Char} (h : isWordChar c = true) : Text.isSpace c = false := by
  rw [isWordChar, Bool.and_eq_true, Bool.not_eq_true'] at h
  exact h.1

theorem isSpace_of_opensWord {c : Char} (h : opensWord c = true) : Text.isSpace c = false :=
  isSpace_of_isWordChar ((opensWord_iff c).mp h).1

theorem isAlpha_iff_toNat {c : Char} :
    c.isAlpha = true ↔ (65 ≤ c.toNat ∧ c.toNat ≤ 90) ∨ (97 ≤ c.toNat ∧ c.toNat ≤ 122) := by
  have hUpper : c.isUpper = true ↔ 65 ≤ c.toNat ∧ c.toNat ≤ 90 := decide_eq_true_iff
  have hLower : c.isLower = true ↔ 97 ≤ c.toNat ∧ c.toNat ≤ 122 :=
    Bool.and_eq_true_iff.trans (and_congr decide_eq_true_iff decide_eq_true_iff)
  rw [← hUpper, ← hLower]
  exact Bool.or_eq_true_iff

theorem isDigit_iff_toNat {c : Char} : c.isDigit = true ↔ 48 ≤ c.toNat ∧ c.toNat ≤ 57 :=
  Char.isDigit_iff_toNat

theorem isSpace_of_isIdentifierChar {c : Char} (h : isIdentifierChar c = true) :
    Text.isSpace c = false := by
  rw [isIdentifierChar, Char.isAlphanum, Bool.or_eq_true, Bool.or_eq_true, isAlpha_iff_toNat, isDigit_iff_toNat,
    beq_iff_eq] at h
  rw [Bool.eq_false_iff]
  intro hSpace
  simp only [Text.isSpace, Text.spaceRanges, List.any_cons, List.any_nil, Bool.or_false,
    Bool.or_eq_true, Bool.and_eq_true, decide_eq_true_eq] at hSpace
  rcases h with ((h | h) | h) | rfl
  · omega
  · omega
  · omega
  · revert hSpace
    decide

theorem opensWord_of_isIdentifierChar {c : Char} (h : isIdentifierChar c = true) :
    opensWord c = true := by
  have hMark {mark : Char} (hOther : isIdentifierChar mark = false) : c ≠ mark := by
    rintro rfl
    cases h.symm.trans hOther
  have hWord : isWordChar c = true := by
    rw [isWordChar, isSpace_of_isIdentifierChar h]
    have hClose : c ≠ ')' := hMark rfl
    simpa using hClose
  exact (opensWord_iff c).mpr ⟨hWord, hMark rfl, hMark rfl, hMark rfl, hMark rfl⟩

theorem isIdentifierChar_of_isDigit {c : Char} (h : c.isDigit = true) : isIdentifierChar c = true := by
  simp [isIdentifierChar, Char.isAlphanum, h]

theorem opensWord_of_isDigit {c : Char} (h : c.isDigit = true) : opensWord c = true :=
  opensWord_of_isIdentifierChar (isIdentifierChar_of_isDigit h)

theorem isSpace_of_isDigit {c : Char} (h : c.isDigit = true) : Text.isSpace c = false :=
  isSpace_of_isIdentifierChar (isIdentifierChar_of_isDigit h)

theorem Text.Numeral.isSpace {digits : List Char} {n : Nat} (h : Text.Numeral digits n) :
    ∀ c ∈ digits, Text.isSpace c = false := fun c hc => isSpace_of_isDigit (h.isDigit c hc)

theorem all_isIdentifierChar {name : List Char} (h : isIdentifier name = true) :
    ∀ c ∈ name, isIdentifierChar c = true := by
  cases name with
  | nil => cases h
  | cons first rest =>
    obtain ⟨hFirst, hRest⟩ := Bool.and_eq_true_iff.mp h
    intro c hc
    rcases List.mem_cons.mp hc with rfl | hc
    · simp [isIdentifierChar, Char.isAlphanum, hFirst]
    · exact List.all_eq_true.mp hRest c hc

theorem lookupWord_eq_some_iff {word : String} {s : Symbol} :
    lookupWord word = some s ↔ (word, s) ∈ wordTable := by
  have hEntries : ∀ entry ∈ wordTable, lookupWord entry.1 = some entry.2 := by decide
  constructor
  · intro h
    obtain ⟨before, after, hTable, _⟩ := List.lookup_eq_some_iff.mp h
    rw [hTable]
    exact List.mem_append_right before List.mem_cons_self
  · exact hEntries (word, s)

theorem lookupMark_eq_some_iff {c : Char} {s : Symbol} :
    lookupMark c = some s ↔ (c, s) ∈ markTable := by
  have hEntries : ∀ entry ∈ markTable, lookupMark entry.1 = some entry.2 := by decide
  constructor
  · intro h
    obtain ⟨before, after, hTable, _⟩ := List.lookup_eq_some_iff.mp h
    rw [hTable]
    exact List.mem_append_right before List.mem_cons_self
  · exact hEntries (c, s)

theorem spelling_toList_of_mem_markTable {c : Char} {s : Symbol} (h : (c, s) ∈ markTable) :
    s.spelling.toList = [c] := by
  rw [spelling_of_mem_markTable (c, s) h]
  simp

theorem lookupMark_of_opensWord {c : Char} (h : opensWord c = true) : lookupMark c = none := by
  obtain ⟨hWord, -, -, hBang, hParen⟩ := (opensWord_iff c).mp h
  have hClose : c ≠ ')' := by
    rintro rfl
    revert hWord
    decide
  simp [lookupMark, markTable, hBang, hParen, hClose]

namespace Token.WordFor

theorem ne_nil {t : Token} {word : List Char} (h : t.WordFor word) : word ≠ [] := by
  cases h with
  | number hDigits => exact hDigits.nonempty
  | signedNumber => exact List.cons_ne_nil _ _
  | symbol hEntry =>
    have hWords : ∀ entry ∈ wordTable, entry.1.toList ≠ [] := by decide
    exact hWords _ hEntry
  | identifier hName =>
    intro hNil
    rw [hNil] at hName
    cases hName

/-- Any character of the word could start one, so that no part of it is read as something else. -/
theorem all_opensWord {t : Token} {word : List Char} (h : t.WordFor word) :
    ∀ c ∈ word, opensWord c = true := by
  have hNumeral {digits : List Char} {n : Nat} (hDigits : Text.Numeral digits n) :
      ∀ c ∈ digits, opensWord c = true := fun c hc => opensWord_of_isDigit (hDigits.isDigit c hc)
  cases h with
  | number hDigits => exact hNumeral hDigits
  | signedNumber hDigits => exact List.forall_mem_cons.mpr ⟨by decide, hNumeral hDigits⟩
  | symbol hEntry =>
    have hWords : ∀ entry ∈ wordTable, entry.1.toList.all opensWord = true := by decide
    exact List.all_eq_true.mp (hWords _ hEntry)
  | identifier hName => exact fun c hc => opensWord_of_isIdentifierChar (all_isIdentifierChar hName c hc)

theorem isSpace {t : Token} {word : List Char} (h : t.WordFor word) : ∀ c ∈ word, Text.isSpace c = false :=
  fun c hc => isSpace_of_opensWord (h.all_opensWord c hc)

end Token.WordFor

theorem Token.wordFor_symbol {word : List Char} {s : Symbol}
    (h : lookupWord (String.ofList word) = some s) : (Token.symbol s).WordFor word := by
  have hWord := WordFor.symbol (lookupWord_eq_some_iff.mp h)
  rwa [String.toList_ofList] at hWord

theorem Token.wordFor_identifier {word : List Char} (hName : isIdentifier word = true)
    (hTable : lookupWord (String.ofList word) = none) :
    (Token.identifier (String.ofList word)).WordFor word := by
  have hWord := @WordFor.identifier (String.ofList word)
  rw [String.toList_ofList] at hWord
  exact hWord hName hTable

theorem ofInt_of_range {value : Int} (hMin : minNumber ≤ value) (hMax : value ≤ maxNumber) :
    Number.ofInt value = .whole value := by
  apply Number.ofInt_of_lt
  rw [minNumber] at hMin
  rw [maxNumber] at hMax
  change value.natAbs < 9007199254740992
  omega

/-- What is decided in double precision holds of the integer that the word writes. -/
theorem numberOfWord?_eq_some_iff {word : List Char} {value : Int} :
    numberOfWord? word = some value ↔
      Text.intOfDigits? word = some value ∧ minNumber ≤ value ∧ value ≤ maxNumber := by
  unfold numberOfWord?
  cases hDigits : Text.intOfDigits? word with
  | none => simp
  | some written =>
    have hLow : (Number.ofInt written).atLeast minNumber = decide (minNumber ≤ written) :=
      Number.atLeast_ofInt written (by decide)
    have hHigh : (Number.ofInt written).atMost maxNumber = decide (written ≤ maxNumber) :=
      Number.atMost_ofInt written (by decide)
    simp only [Option.map_some, hLow, hHigh, Option.ite_none_right_eq_some, Bool.and_eq_true, decide_eq_true_eq,
      Option.some.injEq]
    constructor
    · rintro ⟨⟨hMin, hMax⟩, hWhole⟩
      rw [ofInt_of_range hMin hMax] at hWhole
      cases hWhole
      exact ⟨rfl, hMin, hMax⟩
    · rintro ⟨rfl, hMin, hMax⟩
      rw [ofInt_of_range hMin hMax]
      exact ⟨⟨hMin, hMax⟩, rfl⟩

theorem isDigit_of_isAlpha {c : Char} (h : c.isAlpha = true) : c.isDigit = false := by
  rw [isAlpha_iff_toNat] at h
  rw [Bool.eq_false_iff, Ne, isDigit_iff_toNat]
  omega

theorem numberOfWord?_of_isIdentifier {name : List Char} (h : isIdentifier name = true) :
    numberOfWord? name = none := by
  cases name with
  | nil => cases h
  | cons first rest =>
    obtain ⟨hFirst, -⟩ := Bool.and_eq_true_iff.mp h
    have hDigits : Text.intOfDigits? (first :: rest) = none := by
      unfold Text.intOfDigits?
      split
      · rename_i hMinus
        cases hMinus
        cases hFirst
      · rename_i hPlus
        cases hPlus
        cases hFirst
      · simp [Text.natOfDigits?, isDigit_of_isAlpha hFirst]
    rw [numberOfWord?, hDigits, Option.map_none]

theorem Token.WordFor.ofWord? {t : Token} {word : List Char} (h : t.WordFor word) :
    Token.ofWord? word = some t := by
  have hMin (n : Nat) : minNumber ≤ Int.ofNat n := by simp [minNumber]
  unfold Token.ofWord?
  cases h with
  | number hDigits hMax =>
    rw [numberOfWord?_eq_some_iff.mpr ⟨Text.intOfDigits?_of_numeral hDigits, hMin _, hMax⟩]
  | signedNumber hDigits hMax =>
    rw [numberOfWord?_eq_some_iff.mpr ⟨Text.intOfDigits?_of_plus hDigits, hMin _, hMax⟩]
  | symbol hEntry =>
    have hWords : ∀ entry ∈ wordTable, numberOfWord? entry.1.toList = none := by decide
    rw [hWords _ hEntry, String.ofList_toList, lookupWord_eq_some_iff.mpr hEntry]
  | identifier hName hTable =>
    rw [numberOfWord?_of_isIdentifier hName, String.ofList_toList, hTable]
    exact if_pos hName

theorem Token.wordFor_of_ofWord? {t : Token} {word : List Char} (hSign : word.head? ≠ some '-')
    (h : Token.ofWord? word = some t) : t.WordFor word := by
  unfold Token.ofWord? at h
  split at h
  · rename_i value hNumber
    cases h
    obtain ⟨hDigits, -, hMax⟩ := numberOfWord?_eq_some_iff.mp hNumber
    obtain ⟨n, rfl, hWord | ⟨digits, rfl, hWord⟩⟩ := Text.eq_ofNat_of_intOfDigits? hSign hDigits
    · exact .number hWord hMax
    · exact .signedNumber hWord hMax
  · split at h
    · rename_i s hEntry
      cases h
      exact wordFor_symbol hEntry
    · rename_i hTable
      obtain ⟨hName, hToken⟩ := Option.ite_none_right_eq_some.mp h
      cases hToken
      exact wordFor_identifier hName hTable

theorem Token.WordFor.unique {t u : Token} {word : List Char} (ht : t.WordFor word) (hu : u.WordFor word) :
    t = u := Option.some.inj (ht.ofWord?.symm.trans hu.ofWord?)

theorem Token.wordFor_rem : (Token.symbol .kwRem).WordFor ['R', 'E', 'M'] := wordFor_symbol (by decide)

theorem Token.WordFor.eq_rem {word : List Char} (h : (Token.symbol .kwRem).WordFor word) :
    word = ['R', 'E', 'M'] := by
  have hEntries : ∀ entry ∈ wordTable, entry.2 = .kwRem → entry.1.toList = ['R', 'E', 'M'] := by decide
  cases h with
  | symbol hEntry => exact hEntries _ hEntry rfl

end LineBasic
