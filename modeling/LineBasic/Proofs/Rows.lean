import LineBasic.Proofs.Listing
import LineBasic.Proofs.Pieces

/-! # The text listing: a row for each record, and no row for two

A row is read from left to right with nothing to look up: the name of a kind ends where a bracket or the
offset begins, a payload is a JSON form and tells itself where it ends, and a number ends where no digit
follows.
-/
namespace LineBasic
set_option autoImplicit false

namespace Token

def payloadText (t : Token) : List Char :=
  match t.payload? with
  | none => []
  | some payload => '(' :: ((Payload.display payload).toList ++ [')'])

theorem toList_display (t : Token) : t.display.toList = t.kindName.toList ++ t.payloadText := by
  cases hPayload : t.payload? with
  | none => simp [display, payloadText, hPayload]
  | some payload => simp [display, payloadText, hPayload]

theorem isAlpha_kindName {t : Token} (h : t.Listed) : ∀ c ∈ t.kindName.toList, c.isAlpha = true := by
  have hNames : Kind.all.all (fun kind => kind.name.toList.all Char.isAlpha) = true := by decide
  obtain ⟨kind, hKind⟩ := h
  rw [kindName_of_kind? hKind]
  exact List.all_eq_true.mp (List.all_eq_true.mp hNames kind kind.mem_all)

theorem value_display (payload : Payload) (rest : List Char) :
    Text.Json.Value payload.toJson ((Payload.display payload).toList ++ rest) rest := by
  cases payload with
  | text value => exact .string (Text.Json.quoted_quote value rest)
  | number value => exact .number (Text.Json.integerForm_decimal value rest)

theorem payloadText_unique {t u : Token} {rest otherRest : List Char}
    (h : t.payloadText ++ '@' :: rest = u.payloadText ++ '@' :: otherRest) :
    t.payload? = u.payload? ∧ rest = otherRest := by
  unfold payloadText at h
  cases ht : t.payload? with
  | none =>
    cases hu : u.payload? with
    | none =>
      rw [ht, hu] at h
      exact ⟨rfl, (List.cons.inj h).2⟩
    | some other =>
      rw [ht, hu] at h
      cases h
  | some payload =>
    cases hu : u.payload? with
    | none =>
      rw [ht, hu] at h
      cases h
    | some other =>
      rw [ht, hu] at h
      simp only [List.cons_append, List.append_assoc, List.nil_append, List.cons.injEq, true_and] at h
      -- A bracket in a payload does not end it: the payload is read as the JSON form that it is.
      have hEnds (tail : List Char) : Text.Ends Char.isDigit (')' :: tail) := Text.ends_cons tail rfl
      obtain ⟨hValue, hRest⟩ := (Text.Json.value_sharp payload.toJson).unique (value_display payload _)
        (h ▸ value_display other _) (hEnds _) (hEnds _)
      obtain rfl := Payload.toJson_injective hValue
      exact ⟨rfl, (List.cons.inj (List.cons.inj hRest).2).2⟩

theorem ends_payloadText (t : Token) (rest : List Char) :
    Text.Ends Char.isAlpha (t.payloadText ++ '@' :: rest) := by
  unfold payloadText
  cases t.payload? with
  | none => exact Text.ends_cons rest rfl
  | some payload => exact Text.ends_cons _ rfl

end Token

theorem Text.decimal_unique {m n : Nat} {rest otherRest : List Char} (hRest : Ends Char.isDigit rest)
    (hOther : Ends Char.isDigit otherRest) (h : (decimal m).toList ++ rest = (decimal n).toList ++ otherRest) :
    m = n ∧ rest = otherRest := by
  rw [toList_decimal, toList_decimal] at h
  exact Json.digits_unique (numeral_toDigits m) (numeral_toDigits n) hRest hOther h

theorem PositionedToken.display_unique {positioned other : PositionedToken} {rest otherRest : List Char}
    (hListed : positioned.token.Listed) (hOtherListed : other.token.Listed) (hRest : Text.Ends Char.isDigit rest)
    (hOther : Text.Ends Char.isDigit otherRest)
    (h : positioned.display.toList ++ rest = other.display.toList ++ otherRest) :
    positioned = other ∧ rest = otherRest := by
  obtain ⟨offset, t⟩ := positioned
  obtain ⟨otherOffset, u⟩ := other
  simp only [display, String.toList_append, Token.toList_display, List.append_assoc] at h
  obtain ⟨hName, hAfter⟩ := Text.run_unique (Token.isAlpha_kindName hListed) (Token.isAlpha_kindName hOtherListed)
    (t.ends_payloadText _) (u.ends_payloadText _) h
  obtain ⟨hPayload, hOffset⟩ := Token.payloadText_unique hAfter
  obtain ⟨rfl, rfl⟩ := Text.decimal_unique hRest hOther hOffset
  obtain rfl := Token.eq_of_kindName_of_payload? hListed hOtherListed (String.toList_inj.mp hName) hPayload
  exact ⟨rfl, rfl⟩

theorem Token.not_mem_payloadText (t : Token) : '\n' ∉ t.payloadText := by
  have hQuote (value : String) : '\n' ∉ (Text.Json.quote value).toList := fun hBreak =>
    absurd (Text.Json.le_toNat_of_mem_quote hBreak) (by decide)
  unfold payloadText
  cases t.payload? with
  | none => exact List.not_mem_nil
  | some payload =>
    cases payload with
    | text value => simp [Payload.display, hQuote]
    | number value => simp [Payload.display, Text.not_mem_decimal]

theorem PositionedToken.not_mem_display {positioned : PositionedToken} (hListed : positioned.token.Listed) :
    '\n' ∉ positioned.display.toList := by
  have hName : '\n' ∉ positioned.token.kindName.toList := fun hBreak =>
    absurd (Token.isAlpha_kindName hListed '\n' hBreak) (by decide)
  simp [display, Token.toList_display, hName, positioned.token.not_mem_payloadText, Text.not_mem_decimal]

namespace LineRecord

/-- The tokens of a row, each with the space before it. -/
def tokensText (tokens : List PositionedToken) : List Char :=
  tokens.flatMap fun positioned => ' ' :: positioned.display.toList

theorem toList_intercalate (positioned : PositionedToken) (tokens : List PositionedToken) :
    ' ' :: (" ".intercalate ((positioned :: tokens).map PositionedToken.display)).toList =
      tokensText (positioned :: tokens) := by
  induction tokens generalizing positioned with
  | nil => simp [tokensText]
  | cons next tokens ih => simpa [tokensText] using ih next

theorem toList_display (record : LineRecord) :
    record.display.toList = (Text.decimal record.label.val).toList ++ ':' :: tokensText record.tokens := by
  obtain ⟨label, tokens⟩ := record
  cases tokens with
  | nil => simp [display, LineNumber.text, tokensText]
  | cons positioned tokens =>
    rw [← toList_intercalate]
    simp [display, LineNumber.text]

theorem ends_tokensText (tokens : List PositionedToken) : Text.Ends Char.isDigit (tokensText tokens) := by
  cases tokens with
  | nil => exact nofun
  | cons positioned tokens => exact Text.ends_cons _ rfl

theorem tokensText_unique {tokens others : List PositionedToken}
    (hListed : ∀ positioned ∈ tokens, positioned.token.Listed) (hOther : ∀ positioned ∈ others, positioned.token.Listed)
    (h : tokensText tokens = tokensText others) : tokens = others := by
  induction tokens generalizing others with
  | nil =>
    cases others with
    | nil => rfl
    | cons => cases h
  | cons positioned tokens ih =>
    cases others with
    | nil => cases h
    | cons other others =>
      obtain ⟨rfl, hRest⟩ := PositionedToken.display_unique (hListed _ List.mem_cons_self)
        (hOther _ List.mem_cons_self) (ends_tokensText tokens) (ends_tokensText others) (List.cons.inj h).2
      rw [ih (fun p hp => hListed p (List.mem_cons_of_mem _ hp)) (fun p hp => hOther p (List.mem_cons_of_mem _ hp))
        hRest]

theorem eq_of_display {record other : LineRecord} (hListed : record.Listed) (hOther : other.Listed)
    (h : record.display = other.display) : record = other := by
  have hColon (tail : List Char) : Text.Ends Char.isDigit (':' :: tail) := Text.ends_cons tail rfl
  have hText := congrArg String.toList h
  rw [toList_display, toList_display] at hText
  obtain ⟨hLabel, hTokens⟩ := Text.decimal_unique (hColon _) (hColon _) hText
  obtain ⟨⟨label, hMax⟩, tokens⟩ := record
  obtain ⟨⟨otherLabel, hOtherMax⟩, others⟩ := other
  obtain rfl := hLabel
  obtain rfl := tokensText_unique hListed hOther (List.cons.inj hTokens).2
  rfl

theorem not_mem_display {record : LineRecord} (hListed : record.Listed) : '\n' ∉ record.display.toList := by
  have hTokens : '\n' ∉ tokensText record.tokens := by
    intro hBreak
    obtain ⟨positioned, hMember, hToken⟩ := List.mem_flatMap.mp hBreak
    rcases List.mem_cons.mp hToken with hSpace | hDisplay
    · cases hSpace
    · exact PositionedToken.not_mem_display (hListed positioned hMember) hDisplay
  simp [toList_display, hTokens, Text.not_mem_decimal]

end LineRecord

namespace OutputFormat

theorem splitOn_render {records : List IndexedRecord} (hListed : ∀ indexed ∈ records, indexed.record.Listed)
    (hNonempty : records ≠ []) :
    (OutputFormat.text.render records).toList.splitOn '\n' = records.map fun indexed => indexed.record.display.toList := by
  have hRows : ∀ row ∈ records.map fun indexed => indexed.record.display, '\n' ∉ row.toList := by
    intro row hRow
    obtain ⟨indexed, hMember, rfl⟩ := List.mem_map.mp hRow
    exact LineRecord.not_mem_display (hListed indexed hMember)
  rw [render, Text.splitOn_intercalate hRows (fun hNil => hNonempty (List.map_eq_nil_iff.mp hNil)), List.map_map]
  rfl

theorem render_eq_empty {records : List IndexedRecord} (hListed : ∀ indexed ∈ records, indexed.record.Listed)
    (h : OutputFormat.text.render records = "") : records = [] := by
  by_contra hNonempty
  obtain ⟨indexed, rest, rfl⟩ := List.exists_cons_of_ne_nil hNonempty
  have hRows := splitOn_render hListed hNonempty
  rw [h] at hRows
  have hRow : [] = indexed.record.display.toList := (List.cons.inj hRows).1
  rw [LineRecord.toList_display] at hRow
  exact List.append_ne_nil_of_right_ne_nil _ (List.cons_ne_nil _ _) hRow.symm

theorem records_eq_of_render {records others : List IndexedRecord}
    (hListed : ∀ indexed ∈ records, indexed.record.Listed) (hOthers : ∀ indexed ∈ others, indexed.record.Listed)
    (h : OutputFormat.text.render records = OutputFormat.text.render others) :
    records.map IndexedRecord.record = others.map IndexedRecord.record := by
  by_cases hEmpty : records = []
  · subst hEmpty
    rw [render_eq_empty hOthers h.symm]
  · have hOtherEmpty : others ≠ [] := by
      rintro rfl
      exact hEmpty (render_eq_empty hListed h)
    have hRows := splitOn_render hListed hEmpty
    rw [h, splitOn_render hOthers hOtherEmpty] at hRows
    have hSame : (records.map IndexedRecord.record).map (fun record => record.display.toList) =
        (others.map IndexedRecord.record).map (fun record => record.display.toList) := by
      rw [List.map_map, List.map_map]
      exact hRows.symm
    refine eq_of_map_eq ?_ hSame
    intro record hRecord other hOther hDisplay
    obtain ⟨indexed, hMember, rfl⟩ := List.mem_map.mp hRecord
    obtain ⟨otherIndexed, hOtherMember, rfl⟩ := List.mem_map.mp hOther
    exact LineRecord.eq_of_display (hListed indexed hMember) (hOthers otherIndexed hOtherMember)
      (String.toList_inj.mp hDisplay)

/-- The rows of the text listing are those of the records, one for each and in their order. It loses
nothing that a row shows: other records have another listing, and a row is the row of one record. -/
theorem render_text {records others : List IndexedRecord}
    (hListed : ∀ indexed ∈ records, indexed.record.Listed) (hOthers : ∀ indexed ∈ others, indexed.record.Listed) :
    (∀ indexed ∈ records, '\n' ∉ indexed.record.display.toList) ∧
      (records ≠ [] → (OutputFormat.text.render records).toList.splitOn '\n' =
        records.map fun indexed => indexed.record.display.toList) ∧
      (OutputFormat.text.render records = OutputFormat.text.render others ↔
        records.map IndexedRecord.record = others.map IndexedRecord.record) ∧
      ∀ record other : LineRecord, record.Listed → other.Listed → (record.display = other.display ↔ record = other) := by
  refine ⟨fun indexed hMember => LineRecord.not_mem_display (hListed indexed hMember), splitOn_render hListed,
    ⟨records_eq_of_render hListed hOthers, ?_⟩, ?_⟩
  · intro hSame
    have hRows := congrArg (List.map LineRecord.display) hSame
    rw [List.map_map, List.map_map] at hRows
    exact congrArg "\n".intercalate hRows
  · intro record other hRecord hOther
    exact ⟨LineRecord.eq_of_display hRecord hOther, congrArg _⟩

/-- Texts that look like tokens and like rows, against the records they look like. -/
theorem render_text_lookalike :
    let record : LineRecord :=
      ⟨⟨10, by decide⟩, [⟨3, .stringLiteral "\")@3 Goto@5"⟩, ⟨20, .comment "A\n20: Goto@3"⟩]⟩
    let other : LineRecord :=
      ⟨⟨10, by decide⟩, [⟨3, .stringLiteral ""⟩, ⟨5, .symbol .kwGoto⟩, ⟨20, .comment "A"⟩]⟩
    let records : List IndexedRecord := [⟨1, record⟩, ⟨2, ⟨⟨20, by decide⟩, []⟩⟩]
    let others : List IndexedRecord := [⟨1, other⟩, ⟨2, ⟨⟨20, by decide⟩, [⟨3, .symbol .kwGoto⟩]⟩⟩]
    (∀ indexed ∈ records, indexed.record.Listed) ∧ (∀ indexed ∈ others, indexed.record.Listed) ∧
      record.Listed ∧ other.Listed ∧ records ≠ [] ∧
      (OutputFormat.text.render records).toList.splitOn '\n' =
        records.map (fun indexed => indexed.record.display.toList) ∧
      OutputFormat.text.render records ≠ OutputFormat.text.render others ∧ record.display ≠ other.display := by
  intro record other records others
  have hListed : ∀ indexed ∈ records, indexed.record.Listed := by decide
  have hOthers : ∀ indexed ∈ others, indexed.record.Listed := by decide
  have hRecord : record.Listed := by decide
  have hOther : other.Listed := by decide
  have hNonempty : records ≠ [] := List.cons_ne_nil _ _
  have hRecords : records.map IndexedRecord.record ≠ others.map IndexedRecord.record := by decide
  have hDifferent : record ≠ other := by decide
  obtain ⟨-, hRows, hSame, hDisplay⟩ := render_text hListed hOthers
  exact ⟨hListed, hOthers, hRecord, hOther, hNonempty, hRows hNonempty, fun h => hRecords (hSame.mp h),
    fun h => hDifferent ((hDisplay record other hRecord hOther).mp h)⟩

end OutputFormat

end LineBasic
