import LineBasic.Proofs.LeftmostFault
import LineBasic.Proofs.Payload

/-! # Integers: runs of digits of any length, as the label of a line and as a number in it

A run of digits is taken for the number it writes if that is in range, and is refused as a whole if it is
not. A minus sign is a token of its own, so a negative number is a sign and a number in range; the least
integer of 32 bits has none.
-/
namespace LineBasic
set_option autoImplicit false

/-- A line that may go on with any token: no remark takes up what follows, and no word runs on. -/
structure Continuable (line : String) (record : LineRecord) : Prop where
  accepted : tokenize .strict line = .ok (.accepted record)
  ne_rem : ∀ positioned ∈ record.tokens, positioned.token ≠ .symbol .kwRem
  blank : ∃ c, line.toList.getLast? = some c ∧ Text.isSpace c = true

/-- The line is refused, and the diagnostic has this code, this offset and this text. -/
def RefusedFor (mode : Mode) (line : String) (code : LexCode) (offset : Nat) (text : String) : Prop :=
  ∃ diagnostic, tokenize mode line = .ok (.rejected diagnostic) ∧ diagnostic.code = code ∧
    diagnostic.offset = .whole offset ∧ diagnostic.args.lookup "text" = some (.text text)

/-- How digits that write `n` are read. A body is what may stand behind a label; it is read behind the
digits as it is behind a label of one digit. -/
structure ReadExactly (mode : Mode) (digits : String) (n : Nat) : Prop where
  label : n ≤ 4294967295 → ∃ label : LineNumber, label.val = n ∧
    tokenize mode digits = .ok (.accepted ⟨label, []⟩) ∧
    ∀ body record, StartsBlank body.toList → tokenize mode ("0" ++ body) = .ok (.accepted record) →
      tokenize mode (digits ++ body) =
        .ok (.accepted ⟨label, record.tokens.map (PositionedToken.shift (digits.length - 1))⟩)
  label_refused : 4294967295 < n → ∀ body, StartsBlank body.toList →
    RefusedFor mode (digits ++ body) .invalidLineNumber 0 digits
  number : n ≤ 2147483647 → ∀ line record word, Continuable line record →
    word = digits ∨ word = "+" ++ digits → tokenize mode (line ++ word) =
      .ok (.accepted ⟨record.label, record.tokens ++ [⟨line.length, .number n⟩]⟩)
  number_refused : 2147483647 < n → ∀ line record word, Continuable line record →
    word = digits ∨ word = "+" ++ digits → RefusedFor mode (line ++ word) .unrecognizedToken line.length word

/-- A number, or a sign and a number. -/
inductive Denotes : List Token → Int → Prop
  | number {n : Int} : Denotes [.number n] n
  | negated {n : Int} : Denotes [.symbol .unaryMinus, .number n] (-n)

theorem numeral_zero : Text.Numeral "0".toList 0 := Text.numeral_toDigits 0

section

variable {digits : List Char} {n : Nat}

/-- The words that write a natural: its digits, with or without a plus sign. -/
def Unsigned (digits word : List Char) : Prop := word = digits ∨ word = '+' :: digits

theorem Unsigned.wordFor {word : List Char} (h : Unsigned digits word) (hDigits : Text.Numeral digits n)
    (hMax : Int.ofNat n ≤ maxNumber) : (Token.number n).WordFor word := by
  rcases h with rfl | rfl
  · exact .number hDigits hMax
  · exact .signedNumber hDigits hMax

theorem Unsigned.exists_cons {word : List Char} (h : Unsigned digits word) (hDigits : Text.Numeral digits n) :
    ∃ first tail, word = first :: tail ∧ ∀ c ∈ first :: tail, opensWord c = true := by
  have hAll : ∀ c ∈ digits, opensWord c = true := fun c hc => opensWord_of_isDigit (hDigits.isDigit c hc)
  rcases h with rfl | rfl
  · obtain ⟨first, tail, rfl, -⟩ := hDigits.exists_cons
    exact ⟨first, tail, rfl, hAll⟩
  · exact ⟨'+', digits, rfl, List.forall_mem_cons.mpr ⟨by decide, hAll⟩⟩

/-- Digits that write a number out of range write nothing else. -/
theorem Unsigned.not_wordFor {word : List Char} (h : Unsigned digits word) (hDigits : Text.Numeral digits n)
    (hMax : maxNumber < Int.ofNat n) (t : Token) : ¬ t.WordFor word := by
  obtain ⟨first, rest, rfl, hFirst⟩ := hDigits.exists_cons
  have hGreat {m : Nat} (hOther : Text.Numeral (first :: rest) m) : ¬ Int.ofNat m ≤ maxNumber := by
    rw [← hDigits.unique hOther]
    exact Int.not_le.mpr hMax
  intro hWord
  -- Words of numbers write one number only; no other word has a digit where these have their first.
  cases hWord with
  | number hOther hOtherMax =>
    rcases h with rfl | rfl
    · exact hGreat hOther hOtherMax
    · cases hOther.isDigit '+' List.mem_cons_self
  | signedNumber hOther hOtherMax =>
    rcases h with h | h
    · cases h
      cases hFirst
    · obtain rfl := List.tail_eq_of_cons_eq h
      exact hGreat hOther hOtherMax
  | @symbol entryWord s hEntry =>
    have hWords : ∀ entry ∈ wordTable, entry.1.toList.any Char.isDigit = false := by decide
    have hMem : entryWord.toList.any Char.isDigit = true := by
      rcases h with h | h
      · rw [h, List.any_cons, hFirst, Bool.true_or]
      · rw [h, List.any_cons, List.any_cons, hFirst, Bool.true_or, Bool.or_true]
    cases hMem.symm.trans (hWords _ hEntry)
  | identifier hName =>
    rcases h with h | h
    · rw [h] at hName
      cases hFirst.symm.trans (isDigit_of_isAlpha (Bool.and_eq_true_iff.mp hName).1)
    · rw [h] at hName
      cases hName

end

theorem scanTokens_word (mode : Mode) (afterValue : Bool) {t : Token} {word : List Char} (position : Nat)
    (hWord : t.WordFor word) (hToken : t ≠ .symbol .kwRem) :
    scanTokens mode afterValue ⟨position, word⟩ = .ok [⟨position, t⟩] := by
  have hStands : (Lexeme.single t).Stands mode afterValue word [] := .word hWord hToken (by simp [EndsWord])
  exact hStands.scanTokens position

theorem scanTokens_overflow (mode : Mode) (afterValue : Bool) {digits word : List Char} {n : Nat} (position : Nat)
    (h : Unsigned digits word) (hDigits : Text.Numeral digits n) (hMax : maxNumber < Int.ofNat n) :
    scanTokens mode afterValue ⟨position, word⟩ = .error (.unrecognizedToken position (String.ofList word)) := by
  obtain ⟨first, tail, rfl, hChars⟩ := h.exists_cons hDigits
  obtain ⟨hFirst, hTail⟩ := List.forall_mem_cons.mp hChars
  have hStands : (Rejection.unrecognized (String.ofList (first :: tail))).Stands mode (first :: tail ++ []) :=
    .unrecognized hFirst (fun c hc => ((opensWord_iff c).mp (hTail c hc)).1) (by simp [EndsWord])
      (h.not_wordFor hDigits hMax)
  rw [List.append_nil] at hStands
  exact @scanTokens_of_rejection mode _ [] _ rfl hStands afterValue position

theorem scanTokens_minus (mode : Mode) (afterValue : Bool) (rest : List Char) (position : Nat) :
    scanTokens mode afterValue ⟨position, '-' :: rest⟩ =
      (scanTokens mode false ⟨position + 1, rest⟩).map
        (⟨position, .symbol (Lexeme.minusSymbol afterValue)⟩ :: ·) := by
  have hStands : (Lexeme.single (.symbol (Lexeme.minusSymbol afterValue))).Stands mode afterValue ['-'] rest := .minus
  have hScan := @scanTokens_append mode afterValue _ [] _ rest position rfl hStands
  have hValue : (Lexeme.single (.symbol (Lexeme.minusSymbol afterValue))).isValue = false := by
    cases afterValue <;> rfl
  rw [hValue] at hScan
  exact hScan

theorem Continuable.exists_tokenize_append {line : String} {record : LineRecord} (h : Continuable line record)
    (mode : Mode) (rest : String) :
    ∃ last, (last = true ↔ record.EndsInOperand) ∧ tokenize mode (line ++ rest) =
      .ok (Reading.ofScan record.label
        ((scanTokens mode last ⟨line.length, rest.toList⟩).map (record.tokens ++ ·))) := by
  obtain ⟨layout⟩ := tokenize_eq_accepted_iff.mp h.accepted
  exact ⟨layout.last, layout.last_iff,
    layout.tokenize_append_of_endsApart (layout.isSingle h.ne_rem) (.inl h.blank) mode rest⟩

theorem Continuable.tokenize_word {line : String} {record : LineRecord} (h : Continuable line record) (mode : Mode)
    {t : Token} {word : String} (hWord : t.WordFor word.toList) (hToken : t ≠ .symbol .kwRem) :
    tokenize mode (line ++ word) = .ok (.accepted ⟨record.label, record.tokens ++ [⟨line.length, t⟩]⟩) := by
  obtain ⟨last, -, hLine⟩ := h.exists_tokenize_append mode word
  rw [hLine, scanTokens_word mode last line.length hWord hToken]
  rfl

theorem Continuable.refusedFor_overflow {line : String} {record : LineRecord} (h : Continuable line record)
    (mode : Mode) {digits : List Char} {word : String} {n : Nat} (hWord : Unsigned digits word.toList)
    (hDigits : Text.Numeral digits n) (hMax : maxNumber < Int.ofNat n) :
    RefusedFor mode (line ++ word) .unrecognizedToken line.length word := by
  obtain ⟨last, -, hLine⟩ := h.exists_tokenize_append mode word
  rw [scanTokens_overflow mode last line.length hWord hDigits hMax, String.ofList_toList] at hLine
  exact ⟨_, hLine, rfl, rfl, rfl⟩

theorem refusedFor_label (mode : Mode) {digits body : String} {n : Nat} (hDigits : Text.Numeral digits.toList n)
    (hBody : StartsBlank body.toList) (hMax : maxLineNumber < n) :
    RefusedFor mode (digits ++ body) .invalidLineNumber 0 digits := by
  have hLabel := takeWhile_isLabelChar_append hDigits hBody
  have hFault : LabelFault (digits ++ body).toList (.invalidLineNumber digits) := by
    have hInvalid := @LabelFault.invalid (digits.toList ++ body.toList)
    rw [hLabel, String.ofList_toList] at hInvalid
    rw [String.toList_append]
    apply hInvalid
    · obtain ⟨first, rest, hCons, hFirst⟩ := hDigits.exists_cons
      rw [hCons]
      exact ⟨first, rfl, hFirst⟩
    · rw [labelNumber?_eq_none_iff]
      intro m hOther
      rwa [← hDigits.unique hOther]
  exact ⟨_, tokenize_eq_rejected_iff.mpr ⟨_, rfl, .inl hFault⟩, rfl, rfl, rfl⟩

/-- The label of a line makes a difference to the offsets behind it and to nothing else. -/
theorem tokenize_label_of_zero {mode : Mode} {digits body : String} {label : LineNumber} {record : LineRecord}
    (hDigits : Text.Numeral digits.toList label.val) (hBody : StartsBlank body.toList)
    (h : tokenize mode ("0" ++ body) = .ok (.accepted record)) :
    tokenize mode (digits ++ body) =
      .ok (.accepted ⟨label, record.tokens.map (PositionedToken.shift (digits.length - 1))⟩) := by
  have hZero := @tokenize_label_append "0".toList body.toList ⟨0, by decide⟩ mode numeral_zero hBody
  have hLine := tokenize_label_append mode hDigits hBody
  have hLength : 1 ≤ digits.length := by
    rw [← String.length_toList]
    exact List.length_pos_iff.mpr hDigits.nonempty
  have hShift :
      (⟨digits.toList.length, body.toList⟩ : Cursor) = (Cursor.mk 1 body.toList).shift (digits.length - 1) := by
    rw [Cursor.shift, Nat.add_sub_cancel' hLength, String.length_toList]
  rw [← String.toList_append, String.ofList_toList] at hZero hLine
  rw [hShift, scanTokens_shift] at hLine
  rw [h] at hZero
  rw [hLine]
  change _ = Except.ok (Reading.ofScan _ (scanTokens mode false ⟨1, body.toList⟩)) at hZero
  cases hScan : scanTokens mode false ⟨1, body.toList⟩ with
  | error fault =>
    rw [hScan] at hZero
    cases hZero
  | ok tokens =>
    rw [hScan] at hZero
    cases hZero
    rfl

theorem tokenize_label (mode : Mode) {digits : String} {label : LineNumber}
    (hDigits : Text.Numeral digits.toList label.val) : tokenize mode digits = .ok (.accepted ⟨label, []⟩) := by
  have hZero : tokenize mode ("0" ++ "") = .ok (.accepted ⟨⟨0, by decide⟩, []⟩) := by
    cases mode <;> cbv
  have hLine := tokenize_label_of_zero hDigits (by simp [StartsBlank]) hZero
  rwa [String.append_empty] at hLine

theorem unsigned_toList {digits word : String} (h : word = digits ∨ word = "+" ++ digits) :
    Unsigned digits.toList word.toList := by
  rcases h with rfl | rfl
  · exact .inl rfl
  · exact .inr (by simp)

/-- Neither rounding nor overflow makes a difference to what is accepted, nor to any value. -/
theorem readExactly {digits : String} {n : Nat} (h : Text.Numeral digits.toList n) (mode : Mode) :
    ReadExactly mode digits n where
  label hMax := by
    let label : LineNumber := ⟨n, hMax⟩
    have hLabel : Text.Numeral digits.toList label.val := h
    exact ⟨label, rfl, tokenize_label mode hLabel, fun body record => tokenize_label_of_zero hLabel⟩
  label_refused hMax body hBody := refusedFor_label mode h hBody hMax
  number hMax line record word hLine hWord :=
    hLine.tokenize_word mode ((unsigned_toList hWord).wordFor h (Int.ofNat_le.mpr hMax)) nofun
  number_refused hMax line record word hLine hWord :=
    hLine.refusedFor_overflow mode (unsigned_toList hWord) h (Int.ofNat_lt.mpr hMax)

/-- The greatest label, with leading zeros, is too great for a number; 2 to the 64th is too great for a label. -/
theorem readExactly_limits :
    Text.Numeral "0004294967295".toList 4294967295 ∧ ReadExactly .strict "0004294967295" 4294967295 ∧
      Text.Numeral "18446744073709551616".toList 18446744073709551616 ∧
      ReadExactly .lenient "18446744073709551616" 18446744073709551616 := by
  have hLabel : Text.Numeral "0004294967295".toList 4294967295 :=
    Text.natOfDigits?_eq_some_iff.mp (by cbv)
  have hPower : Text.Numeral "18446744073709551616".toList 18446744073709551616 :=
    Text.natOfDigits?_eq_some_iff.mp (by cbv)
  exact ⟨hLabel, readExactly hLabel .strict, hPower, readExactly hPower .lenient⟩

/-- Where no operand comes before, a minus sign is a token of its own that changes the sign of a number. -/
theorem Continuable.tokenize_minus {line : String} {record : LineRecord} (h : Continuable line record)
    (hOperand : ¬ record.EndsInOperand) (mode : Mode) (rest : String) :
    tokenize mode (line ++ ("-" ++ rest)) = .ok (Reading.ofScan record.label
      ((scanTokens mode false ⟨line.length + 1, rest.toList⟩).map
        (record.tokens ++ ⟨line.length, .symbol .unaryMinus⟩ :: ·))) := by
  obtain ⟨last, hLast, hLine⟩ := h.exists_tokenize_append mode ("-" ++ rest)
  have hFalse : last = false := Bool.eq_false_iff.mpr fun hTrue => hOperand (hLast.mp hTrue)
  have hRest : ("-" ++ rest).toList = '-' :: rest.toList := by simp
  rw [hLine, hFalse, hRest, scanTokens_minus]
  cases scanTokens mode false ⟨line.length + 1, rest.toList⟩ <;> rfl

/-- The integers that can be written are those whose absolute value is at most 2147483647; of any other the digits
are refused, without the sign. -/
theorem tokenize_decimal {line : String} {record : LineRecord} (h : Continuable line record)
    (hOperand : ¬ record.EndsInOperand) (mode : Mode) (n : Int) :
    (-2147483647 ≤ n ∧ n ≤ 2147483647 → ∃ tokens, Denotes (tokens.map PositionedToken.token) n ∧
      tokenize mode (line ++ Text.decimal n) = .ok (.accepted ⟨record.label, record.tokens ++ tokens⟩)) ∧
    (2147483647 < n →
      RefusedFor mode (line ++ Text.decimal n) .unrecognizedToken line.length (Text.decimal n)) ∧
    (n < -2147483647 →
      RefusedFor mode (line ++ Text.decimal n) .unrecognizedToken (line.length + 1) (Text.decimal (-n))) := by
  have hNumeral (k : Nat) : Text.Numeral (Text.decimal k).toList k := Text.toList_decimal k ▸ Text.numeral_toDigits k
  have hWord (k : Nat) : Unsigned (Text.decimal k).toList (Text.decimal k).toList := .inl rfl
  cases n with
  | ofNat k =>
    refine ⟨?written, ?great, ?small⟩
    case written =>
      rintro ⟨-, hMax⟩
      have hToken := (hWord k).wordFor (hNumeral k) hMax
      exact ⟨[⟨line.length, .number k⟩], .number, h.tokenize_word mode hToken nofun⟩
    case great => exact fun hMax => h.refusedFor_overflow mode (hWord k) (hNumeral k) hMax
    case small =>
      intro hMin
      cases Int.not_lt.mpr (Int.natCast_nonneg k) (Int.lt_trans hMin (by decide))
  | negSucc k =>
    -- The sign is a token before the digits are looked at, and the digits alone are compared with the bound.
    have hLine := h.tokenize_minus hOperand mode (Text.decimal ↑(k + 1))
    refine ⟨?written, ?great, ?small⟩
    case written =>
      rintro ⟨hMin, -⟩
      have hMax : ((k + 1 : Nat) : Int) ≤ 2147483647 := by omega
      have hToken := (hWord (k + 1)).wordFor (hNumeral (k + 1)) hMax
      rw [scanTokens_word mode false (line.length + 1) hToken nofun] at hLine
      exact ⟨[⟨line.length, .symbol .unaryMinus⟩, ⟨line.length + 1, .number ↑(k + 1)⟩], .negated, hLine⟩
    case great =>
      intro hMax
      cases Int.lt_trans hMax (Int.negSucc_lt_zero k)
    case small =>
      intro hMin
      have hMax : 2147483647 < ((k + 1 : Nat) : Int) := by omega
      rw [scanTokens_overflow mode false (line.length + 1) (hWord (k + 1)) (hNumeral (k + 1)) hMax,
        String.ofList_toList] at hLine
      exact ⟨_, hLine, rfl, rfl, rfl⟩

/-- The first integers on either side of the least that can be written. -/
theorem tokenize_decimal_least :
    let line := "10 LET A = "
    let record : LineRecord := ⟨⟨10, by decide⟩, [⟨3, .symbol .kwLet⟩, ⟨7, .identifier "A"⟩, ⟨9, .symbol .equals⟩]⟩
    Continuable line record ∧ ¬ record.EndsInOperand ∧
      (∃ tokens, Denotes (tokens.map PositionedToken.token) (-2147483647) ∧
        tokenize .lenient (line ++ Text.decimal (-2147483647)) =
          .ok (.accepted ⟨record.label, record.tokens ++ tokens⟩)) ∧
      RefusedFor .strict (line ++ Text.decimal (-2147483648)) .unrecognizedToken (line.length + 1)
        (Text.decimal 2147483648) := by
  intro line record
  have hLine : Continuable line record := ⟨by cbv, by decide, ' ', by decide, by decide⟩
  have hOperand : ¬ record.EndsInOperand := by
    rintro ⟨positioned, hLast, hToken⟩
    cases hLast
    simp [Token.IsOperand] at hToken
  exact ⟨hLine, hOperand, (tokenize_decimal hLine hOperand .lenient (-2147483647)).1 (by decide),
    (tokenize_decimal hLine hOperand .strict (-2147483648)).2.2 (by decide)⟩

/-- The least integer of 32 bits cannot be written: its digits are read without the sign. -/
theorem least_unwritable :
    let record : LineRecord := ⟨⟨10, by decide⟩, []⟩
    Continuable "10 " record ∧ ¬ record.EndsInOperand ∧ Text.decimal (-2147483648) = "-2147483648" ∧
      RefusedFor .strict ("10 " ++ "-2147483648") .unrecognizedToken 4 "2147483648" ∧
      ¬ ∃ tokens, Denotes (tokens.map PositionedToken.token) (-2147483648) ∧
        tokenize .strict ("10 " ++ "-2147483648") = .ok (.accepted ⟨record.label, record.tokens ++ tokens⟩) := by
  intro record
  have hLine : Continuable "10 " record := ⟨by cbv, by decide, ' ', by decide, by decide⟩
  have hReading : tokenize .strict ("10 " ++ "-2147483648") =
      .ok (.rejected (Fault.unrecognizedToken 4 "2147483648").diagnostic) := by cbv
  refine ⟨hLine, by simp [LineRecord.EndsInOperand, record], by decide, ⟨_, hReading, rfl, rfl, rfl⟩, ?_⟩
  rintro ⟨tokens, -, hAccepted⟩
  cases hReading.symm.trans hAccepted

end LineBasic
