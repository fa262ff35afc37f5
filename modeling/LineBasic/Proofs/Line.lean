import LineBasic.Proofs.Layout

/-! # Accepted lines: digits of a line number, then a layout that begins with whitespace

A line is accepted if and only if it has such a layout, and its record is then read off it.
-/
namespace LineBasic
set_option autoImplicit false

def StartsBlank (body : List Char) : Prop := ∀ c ∈ body.head?, Text.isSpace c = true

/-- All that there is in a line, told for the record it is read as. -/
structure LineLayout (mode : Mode) (line : List Char) (record : LineRecord) where
  digits : List Char
  blocks : List Block
  gap : List Char
  last : Bool
  line_eq : line = digits ++ (Block.sources blocks ++ gap)
  label : Text.Numeral digits record.label.val
  boundary : StartsBlank (Block.sources blocks ++ gap)
  layout : Layout mode false blocks gap last
  blank : Text.isBlank gap = true
  tokens_eq : record.tokens = Block.tokensFrom digits.length blocks

theorem scanTokens_space (mode : Mode) (afterValue : Bool) {c : Char} (rest : List Char) (position : Nat)
    (hSpace : Text.isSpace c = true) :
    scanTokens mode afterValue ⟨position, c :: rest⟩ = scanTokens mode afterValue ⟨position + 1, rest⟩ := by
  have hSkip : (Cursor.mk position (c :: rest)).skipSpace = (Cursor.mk (position + 1) rest).skipSpace := by
    simp [Cursor.skipSpace, Cursor.skip, Cursor.run, hSpace]
    omega
  rw [scanTokens, scanTokens]
  rw [hSkip]

theorem scanTokens_next (mode : Mode) {body : List Char} (position : Nat) (hBody : StartsBlank body) :
    scanTokens mode false (Cursor.mk position body).next = scanTokens mode false ⟨position, body⟩ := by
  cases body with
  | nil => rfl
  | cons c rest => exact (scanTokens_space mode false rest position (hBody c rfl)).symm

/-- What is decided in double precision holds of the number that the label writes. -/
theorem labelNumber?_eq_some_iff {label : List Char} {value : Number} :
    labelNumber? label = some value ↔
      ∃ n : Nat, value = .whole n ∧ Text.Numeral label n ∧ n ≤ maxLineNumber := by
  unfold labelNumber?
  simp only [← Text.natOfDigits?_eq_some_iff]
  cases Text.natOfDigits? label with
  | none => simp
  | some written =>
    have hHigh : (Number.ofInt written).atMost maxLineNumber = decide ((written : Int) ≤ maxLineNumber) :=
      Number.atMost_ofInt written (by decide)
    have hExact (hMax : written ≤ maxLineNumber) : Number.ofInt written = .whole written := by
      apply Number.ofInt_of_lt
      exact Nat.lt_of_le_of_lt hMax (by decide)
    simp only [Option.map_some, hHigh, Option.ite_none_right_eq_some, decide_eq_true_eq, Int.ofNat_le,
      Option.some.injEq]
    constructor
    · rintro ⟨hMax, rfl⟩
      exact ⟨written, hExact hMax, rfl, hMax⟩
    · rintro ⟨n, rfl, rfl, hMax⟩
      exact ⟨hMax, hExact hMax⟩

theorem ofNumber_whole {n : Nat} (hMax : n ≤ maxLineNumber) : LineNumber.ofNumber (.whole n) = .ok ⟨n, hMax⟩ :=
  dif_pos hMax

theorem isLabelChar_of_isDigit {c : Char} (h : c.isDigit = true) : isLabelChar c = true := by
  rw [isLabelChar, isSpace_of_isDigit h]
  rfl

theorem run_skip_label {digits body : List Char} {n : Nat} (position : Nat) (hDigits : Text.Numeral digits n)
    (hBody : StartsBlank body) :
    (Cursor.mk position (digits ++ body)).run isLabelChar = digits ∧
      (Cursor.mk position (digits ++ body)).skip isLabelChar = ⟨position + digits.length, body⟩ := by
  have hInside : ∀ c ∈ digits, isLabelChar c = true := fun c hc => isLabelChar_of_isDigit (hDigits.isDigit c hc)
  have hAfter : ∀ c ∈ body.head?, isLabelChar c = false := by
    intro c hc
    rw [isLabelChar, hBody c hc]
    rfl
  exact Cursor.run_skip_append body position hInside hAfter

theorem readLabel_append {digits body : List Char} {label : LineNumber}
    (hDigits : Text.Numeral digits label.val) (hBody : StartsBlank body) :
    readLabel (Cursor.start (digits ++ body)) = .ok (label, (Cursor.mk digits.length body).next) := by
  obtain ⟨first, rest, rfl, hFirst⟩ := hDigits.exists_cons
  obtain ⟨hRun, hSkip⟩ := run_skip_label 0 hDigits hBody
  have hNumber := labelNumber?_eq_some_iff.mpr ⟨label.val, rfl, hDigits, label.le_max⟩
  have hPeek : (Cursor.start (first :: rest ++ body)).peek?.any Char.isDigit = true := hFirst
  rw [readLabel, if_pos hPeek, Cursor.start, hRun, hSkip]
  dsimp only
  rw [hNumber]
  dsimp only
  rw [ofNumber_whole label.le_max, Nat.zero_add]

theorem exists_of_readLabel {line : List Char} {label : LineNumber} {c : Cursor}
    (h : readLabel (Cursor.start line) = .ok (label, c)) :
    ∃ digits body, line = digits ++ body ∧ Text.Numeral digits label.val ∧ StartsBlank body ∧
      c = (Cursor.mk digits.length body).next := by
  obtain ⟨digits, body, hLine, hRun, hSkip, -, hAfter⟩ := (Cursor.start line).exists_run_skip isLabelChar
  have hBody : StartsBlank body := by
    intro x hx
    simpa [isLabelChar] using hAfter x hx
  rw [readLabel, hRun, hSkip] at h
  split at h
  · dsimp only at h
    split at h
    · cases h
    · rename_i value hNumber
      obtain ⟨n, rfl, hDigits, hMax⟩ := labelNumber?_eq_some_iff.mp hNumber
      rw [ofNumber_whole hMax] at h
      cases h
      refine ⟨digits, body, hLine, hDigits, hBody, ?_⟩
      rw [Cursor.start, Nat.zero_add]
  · cases h

theorem readLine_append {mode : Mode} {digits body : List Char} {label : LineNumber}
    {tokens : List PositionedToken} (hDigits : Text.Numeral digits label.val) (hBody : StartsBlank body)
    (hTokens : scanTokens mode false ⟨digits.length, body⟩ = .ok tokens) :
    readLine mode (String.ofList (digits ++ body)) = .ok ⟨label, tokens⟩ := by
  rw [readLine, String.toList_ofList, readLabel_append hDigits hBody]
  dsimp only
  rw [scanTokens_next mode digits.length hBody, hTokens]

theorem tokenize_eq_accepted_iff_readLine {mode : Mode} {line : String} {record : LineRecord} :
    tokenize mode line = .ok (.accepted record) ↔ readLine mode line = .ok record := by
  rw [tokenize]
  cases readLine mode line with
  | ok other => simp
  | error error => cases error <;> simp

theorem tokenize_eq_accepted_iff {mode : Mode} {line : String} {record : LineRecord} :
    tokenize mode line = .ok (.accepted record) ↔ Nonempty (LineLayout mode line.toList record) := by
  rw [tokenize_eq_accepted_iff_readLine]
  constructor
  · intro h
    rw [readLine] at h
    split at h
    · cases h
    · rename_i label body hLabel
      split at h
      · cases h
      · rename_i tokens hTokens
        cases h
        obtain ⟨digits, rest, hLine, hDigits, hRest, rfl⟩ := exists_of_readLabel hLabel
        rw [scanTokens_next mode digits.length hRest] at hTokens
        obtain ⟨blocks, gap, last, hLayout, hGap, rfl, rfl⟩ := exists_layout_of_scanTokens hTokens
        exact ⟨⟨digits, blocks, gap, last, hLine, hDigits, hRest, hLayout, hGap, rfl⟩⟩
  · rintro ⟨layout⟩
    have hScan := layout.layout.scanTokens_eq_ok layout.blank layout.digits.length
    have hRead := readLine_append layout.label layout.boundary hScan
    rwa [← layout.line_eq, String.ofList_toList, ← layout.tokens_eq] at hRead

theorem takeWhile_isLabelChar_append {digits body : List Char} {n : Nat} (hDigits : Text.Numeral digits n)
    (hBody : StartsBlank body) : (digits ++ body).takeWhile isLabelChar = digits :=
  (run_skip_label 0 hDigits hBody).1

theorem LineLayout.takeWhile_eq {mode : Mode} {line : List Char} {record : LineRecord}
    (layout : LineLayout mode line record) : line.takeWhile isLabelChar = layout.digits :=
  (congrArg (List.takeWhile isLabelChar) layout.line_eq).trans
    (takeWhile_isLabelChar_append layout.label layout.boundary)

end LineBasic
