import LineBasic.Proofs.Shift
import LineBasic.Proofs.WellFormed

/-! # Lines put together: a line that is accepted, followed by a text that starts with whitespace

What the text becomes can be told by reading it behind a label of one digit. Behind the line it becomes
the same, further on; a minus sign at its start is binary if the line ends with an operand.
-/
namespace LineBasic
set_option autoImplicit false

def LineRecord.EndsInOperand (record : LineRecord) : Prop :=
  ∃ positioned, record.tokens.getLast? = some positioned ∧ positioned.token.IsOperand

/-- The same failure with all offsets `k` greater. -/
structure LexDiagnostic.Shifted (k : Nat) (diagnostic other : LexDiagnostic) : Prop where
  code : other.code = diagnostic.code
  text : other.args.lookup "text" = diagnostic.args.lookup "text"
  offset : ∃ offset : Nat, diagnostic.offset = .whole offset ∧
    diagnostic.args.lookup "offset" = some (.number (.whole offset)) ∧
    other.offset = .whole (offset + k : Nat) ∧
    other.args.lookup "offset" = some (.number (.whole (offset + k : Nat)))

/-- How the reading of a text on its own is continued after a record. -/
inductive Reading.Continues (record : LineRecord) (k : Nat) : Reading → Reading → Prop
  | accepted {label : LineNumber} {tokens : List PositionedToken} (hLast : ¬ record.EndsInOperand) :
      Continues record k (.accepted ⟨label, tokens⟩)
        (.accepted ⟨record.label, record.tokens ++ tokens.map (PositionedToken.shift k)⟩)
  | bound {label : LineNumber} {tokens : List PositionedToken} (hLast : record.EndsInOperand) :
      Continues record k (.accepted ⟨label, tokens⟩)
        (.accepted ⟨record.label, record.tokens ++ boundTokens (tokens.map (PositionedToken.shift k))⟩)
  | rejected {diagnostic other : LexDiagnostic} (hShifted : diagnostic.Shifted k other) :
      Continues record k (.rejected diagnostic) (.rejected other)

theorem Layout.last_eq {mode : Mode} {afterValue last : Bool} {blocks : List Block} {after : List Char}
    (h : Layout mode afterValue blocks after last) (position : Nat) :
    last = endsInValue afterValue ((Block.tokensFrom position blocks).map PositionedToken.token) := by
  induction h generalizing position with
  | nil => rfl
  | @cons afterValue last b blocks after _ _ _ ih =>
    obtain ⟨gap, text, lexeme⟩ := b
    rw [Block.tokensFrom, List.map_append, ih (position + (gap ++ text).length)]
    cases lexeme with
    | single t => exact (endsInValue_cons afterValue t _).symm
    | remark remark =>
      change _ = endsInValue afterValue (.symbol .kwRem :: .comment remark :: _)
      rw [endsInValue_cons, endsInValue_cons]
      rfl

theorem endsInValue_iff {record : LineRecord} :
    endsInValue false (record.tokens.map PositionedToken.token) = true ↔ record.EndsInOperand := by
  rw [endsInValue, List.getLast?_map, LineRecord.EndsInOperand]
  cases record.tokens.getLast? with
  | none => simp
  | some positioned => simp [Token.isValue_iff]

theorem scanTokens_gap (mode : Mode) (afterValue : Bool) {gap : List Char} (rest : List Char) (position : Nat)
    (hGap : Text.isBlank gap = true) :
    scanTokens mode afterValue ⟨position, gap ++ rest⟩ = scanTokens mode afterValue ⟨position + gap.length, rest⟩ := by
  induction gap generalizing position with
  | nil => rfl
  | cons c gap ih =>
    obtain ⟨hSpace, hGap⟩ := Bool.and_eq_true_iff.mp hGap
    rw [List.cons_append, scanTokens_space mode afterValue (gap ++ rest) position hSpace, ih (position + 1) hGap,
      List.length_cons, Nat.add_assoc, Nat.add_comm 1]

def Reading.ofScan (label : LineNumber) : Except Fault (List PositionedToken) → Reading
  | .error fault => .rejected fault.diagnostic
  | .ok tokens => .accepted ⟨label, tokens⟩

/-- Behind a good label it is the scan that decides. -/
theorem tokenize_label_append {digits body : List Char} {label : LineNumber} (mode : Mode)
    (hDigits : Text.Numeral digits label.val) (hBody : StartsBlank body) :
    tokenize mode (String.ofList (digits ++ body)) =
      .ok (Reading.ofScan label (scanTokens mode false ⟨digits.length, body⟩)) := by
  rw [tokenize, readLine, String.toList_ofList, readLabel_append hDigits hBody]
  dsimp only
  rw [scanTokens_next mode digits.length hBody]
  cases scanTokens mode false ⟨digits.length, body⟩ <;> rfl

theorem Rejection.shifted_faultAt (k offset : Nat) (rejection : Rejection) :
    (rejection.faultAt offset).diagnostic.Shifted k (rejection.faultAt (offset + k)).diagnostic := by
  cases rejection with
  | unrecognized | unterminated => exact ⟨rfl, rfl, offset, rfl, rfl, rfl, rfl⟩

theorem continues_of_scan {record : LineRecord} {last : Bool} (hLast : last = true ↔ record.EndsInOperand)
    (mode : Mode) (label : LineNumber) (k : Nat) (c : Cursor) :
    (Reading.ofScan label (scanTokens mode false c)).Continues record k
      (Reading.ofScan record.label ((scanTokens mode last (c.shift k)).map (record.tokens ++ ·))) := by
  have hScan (afterValue : Bool) : scanTokens mode afterValue (c.shift k) =
      (shiftScan k (scanTokens mode false c)).map (if afterValue then boundTokens else id) := by
    rw [← scanTokens_shift]
    cases afterValue with
    | true => exact scanTokens_afterValue mode (c.shift k)
    | false => cases scanTokens mode false (c.shift k) <;> rfl
  rw [hScan]
  cases hAlone : scanTokens mode false c with
  | error fault =>
    obtain ⟨rejection, -, -, -, -, -, -, -, -, rfl⟩ := exists_layout_of_scanTokens_error hAlone
    rw [shiftScan, Rejection.shift_faultAt]
    exact .rejected (rejection.shifted_faultAt k _)
  | ok tokens =>
    cases last with
    | true => exact .bound (hLast.mp rfl)
    | false => exact .accepted fun hOperand => Bool.false_ne_true (hLast.mpr hOperand)

/-- A line before a text that leaves its layout as it is: the text is read from the end of the line on. -/
theorem LineLayout.tokenize_append {mode : Mode} {line rest : String} {record : LineRecord}
    (layout : LineLayout .strict line.toList record)
    (hBoundary : StartsBlank (Block.sources layout.blocks ++ (layout.gap ++ rest.toList)))
    (hLayout : Layout mode false layout.blocks (layout.gap ++ rest.toList) layout.last) :
    tokenize mode (line ++ rest) = .ok (Reading.ofScan record.label
      ((scanTokens mode layout.last ⟨line.length, rest.toList⟩).map (record.tokens ++ ·))) := by
  have hLine : (line ++ rest).toList =
      layout.digits ++ (Block.sources layout.blocks ++ (layout.gap ++ rest.toList)) := by
    rw [String.toList_append, ← List.append_assoc (Block.sources layout.blocks), ← List.append_assoc]
    exact congrArg (· ++ rest.toList) layout.line_eq
  have hLength : layout.digits.length + (Block.sources layout.blocks).length + layout.gap.length = line.length := by
    have hLengths := congrArg List.length layout.line_eq
    rw [List.length_append, List.length_append, String.length_toList] at hLengths
    omega
  rw [← @String.ofList_toList (line ++ rest), hLine, tokenize_label_append mode layout.label hBoundary,
    hLayout.scanTokens, scanTokens_gap mode layout.last rest.toList _ layout.blank, hLength, ← layout.tokens_eq]

theorem LineLayout.last_iff {mode : Mode} {line : List Char} {record : LineRecord}
    (layout : LineLayout mode line record) : layout.last = true ↔ record.EndsInOperand := by
  rw [layout.layout.last_eq layout.digits.length, ← layout.tokens_eq, endsInValue_iff]

theorem LineLayout.isSingle {mode : Mode} {line : List Char} {record : LineRecord}
    (layout : LineLayout mode line record) (hRem : ∀ positioned ∈ record.tokens, positioned.token ≠ .symbol .kwRem) :
    ∀ b ∈ layout.blocks, b.IsSingle := by
  rw [layout.layout.isSingle_iff layout.digits.length, ← layout.tokens_eq]
  exact hRem

/-- A line that is accepted, followed by a text, is read as the line and then as the text behind it. -/
theorem exists_tokenize_append {line : String} {record : LineRecord}
    (h : tokenize .strict line = .ok (.accepted record))
    (hRem : ∀ positioned ∈ record.tokens, positioned.token ≠ .symbol .kwRem) {rest : String}
    (hRest : StartsBlank rest.toList) (mode : Mode) :
    ∃ last, (last = true ↔ record.EndsInOperand) ∧ tokenize mode (line ++ rest) =
      .ok (Reading.ofScan record.label
        ((scanTokens mode last ⟨line.length, rest.toList⟩).map (record.tokens ++ ·))) := by
  obtain ⟨layout⟩ := tokenize_eq_accepted_iff.mp h
  refine ⟨layout.last, layout.last_iff, layout.tokenize_append ?_ ?_⟩
  · rw [← List.append_assoc]
    exact layout.boundary.append hRest
  · exact layout.layout.transfer (layout.isSingle hRem) (.inl rfl) fun hEnd => hEnd.append hRest.endsWord

/-- Reading a line that goes on with whitespace. -/
theorem exists_continues {line : String} {record : LineRecord}
    (h : tokenize .strict line = .ok (.accepted record))
    (hRem : ∀ positioned ∈ record.tokens, positioned.token ≠ .symbol .kwRem) {rest : String}
    (hRest : StartsBlank rest.toList) (mode : Mode) :
    ∃ alone joined, tokenize mode ("0" ++ rest) = .ok alone ∧ tokenize mode (line ++ rest) = .ok joined ∧
      alone.Continues record (line.length - 1) joined := by
  obtain ⟨last, hLast, hJoined⟩ := exists_tokenize_append h hRem hRest mode
  obtain ⟨layout⟩ := tokenize_eq_accepted_iff.mp h
  have hLength : 1 ≤ line.length := by
    rw [← String.length_toList, layout.line_eq, List.length_append]
    have hDigits := List.length_pos_iff.mpr layout.label.nonempty
    omega
  have hShift : (⟨line.length, rest.toList⟩ : Cursor) = (Cursor.mk 1 rest.toList).shift (line.length - 1) := by
    rw [Cursor.shift, Nat.add_sub_cancel' hLength]
  have hZero : Text.Numeral ['0'] 0 := Text.numeral_toDigits 0
  let zero : LineNumber := ⟨0, by decide⟩
  have hAlone := @tokenize_label_append ['0'] rest.toList zero mode hZero hRest
  rw [hShift] at hJoined
  refine ⟨_, _, ?_, hJoined, continues_of_scan hLast mode zero (line.length - 1) ⟨1, rest.toList⟩⟩
  rw [← @String.ofList_toList ("0" ++ rest), String.toList_append]
  exact hAlone

/-- A sign, and a string that only lenient reading accepts, behind a line that ends with a number. -/
theorem exists_continues_sign :
    let line := "10 LET A = (5"
    let record : LineRecord := ⟨⟨10, by decide⟩, [⟨3, .symbol .kwLet⟩, ⟨7, .identifier "A"⟩, ⟨9, .symbol .equals⟩,
      ⟨11, .symbol .leftParen⟩, ⟨12, .number 5⟩]⟩
    let rest := " -3) \"open"
    tokenize .strict line = .ok (.accepted record) ∧
      (∀ positioned ∈ record.tokens, positioned.token ≠ .symbol .kwRem) ∧ StartsBlank rest.toList ∧
      ∃ alone joined, tokenize .lenient ("0" ++ rest) = .ok alone ∧ tokenize .lenient (line ++ rest) = .ok joined ∧
        alone.Continues record (line.length - 1) joined := by
  intro line record rest
  have h : tokenize .strict line = .ok (.accepted record) := by cbv
  have hRem : ∀ positioned ∈ record.tokens, positioned.token ≠ .symbol .kwRem := by decide
  have hRest : StartsBlank rest.toList := by
    have hFirst : rest.toList.head? = some ' ' := by decide
    rw [StartsBlank, hFirst]
    intro c hc
    cases hc
    decide
  exact ⟨h, hRem, hRest, exists_continues h hRem hRest .lenient⟩

end LineBasic
