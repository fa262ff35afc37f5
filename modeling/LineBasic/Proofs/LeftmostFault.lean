import LineBasic.Proofs.Refusal

/-! # Exact faults: what a refused line is refused for, and that no earlier part of it is at fault

The two faults of a label are told by the label alone. A fault behind the label is the leftmost one: what
stands before it is a line that is accepted, and what is reported is all of the word that stands there.
-/
namespace LineBasic
set_option autoImplicit false

/-- A word of digits, with or without a sign, and the integer it writes. -/
inductive Integer : List Char → Int → Prop
  | unsigned {digits : List Char} {n : Nat} (hDigits : Text.Numeral digits n) : Integer digits n
  | plus {digits : List Char} {n : Nat} (hDigits : Text.Numeral digits n) : Integer ('+' :: digits) n
  | minus {digits : List Char} {n : Nat} (hDigits : Text.Numeral digits n) : Integer ('-' :: digits) (-n)

/-- The whole of a word that stands at the offset and is no token. -/
structure UnrecognizedAt (line : List Char) (offset : Nat) (word : List Char) : Prop where
  run : word = (line.drop offset).takeWhile fun c => !Text.isSpace c && c != ')'
  nonempty : word ≠ []
  first : ∀ c ∈ word.head?, c ≠ '"' ∧ c ≠ '-' ∧ c ≠ '!' ∧ c ≠ '('
  number : ∀ value, Integer word value → ¬ (-2147483648 ≤ value ∧ value ≤ 2147483647)
  symbol : String.ofList word ∉ wordTable.map Prod.fst
  identifier : isIdentifier word = false

/-- The label of a line is all that stands before its first whitespace. -/
def labelOf (line : String) : List Char := line.toList.takeWhile fun c => !Text.isSpace c

structure ExactFaults (mode : Mode) (line : String) : Prop where
  missing_iff : FailsAt mode line .missingLineNumber 0 ↔
    line = "" ∨ ∃ first rest, line.toList = first :: rest ∧ first.isDigit = false
  invalid_iff : FailsAt mode line .invalidLineNumber 0 ↔
    (∃ first rest, line.toList = first :: rest ∧ first.isDigit = true) ∧
      ((∃ c ∈ labelOf line, c.isDigit = false) ∨ ∃ n, Text.Numeral (labelOf line) n ∧ 4294967295 < n)
  invalid_text : ∀ diagnostic, tokenize mode line = .ok (.rejected diagnostic) →
    diagnostic.code = .invalidLineNumber →
      diagnostic.args.lookup "text" = some (.text (String.ofList (labelOf line)))
  leftmost : ∀ diagnostic, tokenize mode line = .ok (.rejected diagnostic) →
    diagnostic.code = .unrecognizedToken ∨ diagnostic.code = .unterminatedString →
      ∃ offset : Nat, diagnostic.offset = .whole offset ∧
        diagnostic.args.lookup "offset" = some (.number (.whole offset)) ∧ offset < line.length ∧
        ∃ record, tokenize .strict (String.ofList (line.toList.take offset)) = .ok (.accepted record) ∧
          ∀ positioned ∈ record.tokens, positioned.token ≠ .symbol .kwRem
  unrecognized : ∀ diagnostic, ∀ offset : Nat, tokenize mode line = .ok (.rejected diagnostic) →
    diagnostic.code = .unrecognizedToken → diagnostic.offset = .whole offset →
      ∃ word, diagnostic.args.lookup "text" = some (.text (String.ofList word)) ∧
        UnrecognizedAt line.toList offset word
  unterminated : ∀ offset, FailsAt mode line .unterminatedString offset →
    mode = .strict ∧ line.toList[offset]? = some '"' ∧ '"' ∉ line.toList.drop (offset + 1)

theorem Integer.wordFor {word : List Char} {value : Int} (h : Integer word value) (hSign : word.head? ≠ some '-')
    (hMax : value ≤ maxNumber) : ∃ t : Token, t.WordFor word := by
  cases h with
  | unsigned hDigits => exact ⟨_, .number hDigits hMax⟩
  | plus hDigits => exact ⟨_, .signedNumber hDigits hMax⟩
  | minus => exact False.elim (hSign rfl)

theorem exists_wordFor_of_mem_wordTable {word : List Char} (h : String.ofList word ∈ wordTable.map Prod.fst) :
    ∃ t : Token, t.WordFor word := by
  obtain ⟨⟨_, s⟩, hEntry, rfl⟩ := List.mem_map.mp h
  exact ⟨_, Token.wordFor_symbol (lookupWord_eq_some_iff.mpr hEntry)⟩

theorem exists_wordFor_of_isIdentifier {word : List Char} (h : isIdentifier word = true) :
    ∃ t : Token, t.WordFor word := by
  cases hTable : lookupWord (String.ofList word) with
  | some s => exact ⟨_, Token.wordFor_symbol hTable⟩
  | none => exact ⟨_, Token.wordFor_identifier h hTable⟩

theorem Rejection.Stands.unrecognizedAt {mode : Mode} {line text : List Char} {offset : Nat} {reported : String}
    (h : (Rejection.unrecognized reported).Stands mode text) (hLine : line.drop offset = text) :
    ∃ word, reported = String.ofList word ∧ UnrecognizedAt line offset word := by
  cases h with
  | @unrecognized first tail after hFirst hTail hEnd hWord =>
    obtain ⟨hChar, hMarks⟩ := (opensWord_iff first).mp hFirst
    have hInside : ∀ c ∈ first :: tail, isWordChar c = true := List.forall_mem_cons.mpr ⟨hChar, hTail⟩
    have hRun := (Cursor.run_skip_append after 0 hInside hEnd).1
    have hSign : (first :: tail).head? ≠ some '-' := by simpa using hMarks.2.1
    refine ⟨first :: tail, rfl, ?run, List.cons_ne_nil first tail, ?first, ?number, ?symbol, ?identifier⟩
    case run =>
      rw [hLine]
      exact hRun.symm
    case first =>
      intro c hc
      cases hc
      exact hMarks
    case number =>
      rintro value hInteger ⟨-, hMax⟩
      obtain ⟨t, hToken⟩ := hInteger.wordFor hSign hMax
      exact hWord t hToken
    case symbol =>
      intro hMem
      obtain ⟨t, hToken⟩ := exists_wordFor_of_mem_wordTable hMem
      exact hWord t hToken
    case identifier =>
      rw [Bool.eq_false_iff]
      intro hName
      obtain ⟨t, hToken⟩ := exists_wordFor_of_isIdentifier hName
      exact hWord t hToken

theorem numeral_of_all_isDigit {digits : List Char} (hNonempty : digits ≠ []) (h : ∀ c ∈ digits, c.isDigit = true) :
    Text.Numeral digits (Nat.ofDigitChars 10 digits 0) := ⟨hNonempty, h, rfl⟩

/-- A label is refused if some character of it is no digit, or if the number is too great. -/
theorem labelNumber?_eq_none_iff_exists {label : List Char} (hNonempty : label ≠ []) :
    labelNumber? label = none ↔
      (∃ c ∈ label, c.isDigit = false) ∨ ∃ n, Text.Numeral label n ∧ maxLineNumber < n := by
  rw [labelNumber?_eq_none_iff]
  constructor
  · intro h
    by_cases hOther : ∃ c ∈ label, c.isDigit = false
    · exact .inl hOther
    · have hDigits : ∀ c ∈ label, c.isDigit = true := by
        intro c hc
        cases hDigit : c.isDigit with
        | true => rfl
        | false => exact False.elim (hOther ⟨c, hc, hDigit⟩)
      have hNumeral := numeral_of_all_isDigit hNonempty hDigits
      exact .inr ⟨_, hNumeral, h _ hNumeral⟩
  · rintro (⟨c, hc, hDigit⟩ | ⟨n, hNumeral, hMax⟩) m hOther
    · cases hDigit.symm.trans (hOther.isDigit c hc)
    · rwa [hOther.unique hNumeral]

theorem labelFault_missing_iff {line : String} :
    LabelFault line.toList .missingLineNumber ↔
      line = "" ∨ ∃ first rest, line.toList = first :: rest ∧ first.isDigit = false := by
  constructor
  · rintro ⟨hFirst⟩
    cases hLine : line.toList with
    | nil => exact .inl (String.toList_eq_nil_iff.mp hLine)
    | cons first rest =>
      rw [hLine] at hFirst
      exact .inr ⟨first, rest, rfl, hFirst first rfl⟩
  · rintro (rfl | ⟨first, rest, hLine, hDigit⟩)
    · exact .missing (by simp)
    · refine .missing ?_
      rw [hLine]
      intro c hc
      cases hc
      exact hDigit

theorem labelOf_ne_nil {line : String} {first : Char} {rest : List Char} (hLine : line.toList = first :: rest)
    (hDigit : first.isDigit = true) : labelOf line ≠ [] := by
  have hLabel : isLabelChar first = true := isLabelChar_of_isDigit hDigit
  rw [labelOf, hLine]
  change (first :: rest).takeWhile isLabelChar ≠ []
  rw [List.takeWhile_cons_of_pos hLabel]
  exact List.cons_ne_nil _ _

theorem labelFault_invalid_iff {line text : String} :
    LabelFault line.toList (.invalidLineNumber text) ↔ text = String.ofList (labelOf line) ∧
      (∃ first rest, line.toList = first :: rest ∧ first.isDigit = true) ∧
        ((∃ c ∈ labelOf line, c.isDigit = false) ∨ ∃ n, Text.Numeral (labelOf line) n ∧ maxLineNumber < n) := by
  constructor
  · intro h
    cases h with
    | invalid hFirst hLabel =>
      obtain ⟨first, hMem, hDigit⟩ := hFirst
      obtain ⟨rest, hLine⟩ := List.head?_eq_some_iff.mp hMem
      have hFault := (labelNumber?_eq_none_iff_exists (labelOf_ne_nil hLine hDigit)).mp hLabel
      exact ⟨rfl, ⟨first, rest, hLine, hDigit⟩, hFault⟩
  · rintro ⟨rfl, ⟨first, rest, hLine, hDigit⟩, hFault⟩
    refine .invalid ?_ ((labelNumber?_eq_none_iff_exists (labelOf_ne_nil hLine hDigit)).mpr hFault)
    rw [hLine]
    exact ⟨first, rfl, hDigit⟩

theorem failsAt_missing_iff {mode : Mode} {line : String} :
    FailsAt mode line .missingLineNumber 0 ↔ LabelFault line.toList .missingLineNumber := by
  rw [failsAt_iff]
  constructor
  · rintro ⟨fault, hCode, -, hFault⟩
    cases labelFault_of_kind hFault (by rw [hCode]; rfl) with
    | missing hFirst => exact .missing hFirst
    | invalid => cases hCode
  · intro h
    exact ⟨_, rfl, rfl, .inl h⟩

theorem failsAt_invalid_iff {mode : Mode} {line : String} :
    FailsAt mode line .invalidLineNumber 0 ↔
      LabelFault line.toList (.invalidLineNumber (String.ofList (labelOf line))) := by
  rw [failsAt_iff]
  constructor
  · rintro ⟨fault, hCode, -, hFault⟩
    cases labelFault_of_kind hFault (by rw [hCode]; rfl) with
    | missing => cases hCode
    | invalid hFirst hLabel => exact .invalid hFirst hLabel
  · intro h
    exact ⟨_, rfl, rfl, .inl h⟩

theorem Refusal.before_length_lt {mode : Mode} {line : List Char} {fault : Fault} (refusal : Refusal mode line fault) :
    refusal.before.length < line.length := by
  have hLength := congrArg List.length refusal.line_eq_before
  have hText := List.length_pos_iff.mpr refusal.text_ne_nil
  rw [List.length_append] at hLength
  omega

theorem Refusal.lookup_offset {mode : Mode} {line : List Char} {fault : Fault} (refusal : Refusal mode line fault) :
    fault.diagnostic.args.lookup "offset" = some (.number (.whole refusal.before.length)) := by
  rcases refusal.eq_unrecognized_or_eq_unterminated with ⟨word, -, hFault⟩ | ⟨-, hFault⟩
  · exact congrArg (fun fault => fault.diagnostic.args.lookup "offset") hFault
  · exact congrArg (fun fault => fault.diagnostic.args.lookup "offset") hFault

theorem Refusal.exists_unrecognizedAt {mode : Mode} {line : List Char} {fault : Fault}
    (refusal : Refusal mode line fault) (hCode : fault.code = .unrecognizedToken) :
    ∃ word, fault.diagnostic.args.lookup "text" = some (.text (String.ofList word)) ∧
      UnrecognizedAt line refusal.before.length word := by
  rcases refusal.eq_unrecognized_or_eq_unterminated with ⟨reported, hRejection, hFault⟩ | ⟨-, hFault⟩
  · have hStands := refusal.stands
    rw [hRejection] at hStands
    obtain ⟨word, hReported, hWord⟩ := hStands.unrecognizedAt refusal.drop_eq_text
    refine ⟨word, ?_, hWord⟩
    rw [← hReported]
    exact congrArg (fun fault => fault.diagnostic.args.lookup "text") hFault
  · cases hCode.symm.trans (congrArg Fault.code hFault)

theorem FailsAt.unclosed {mode : Mode} {line : String} {offset : Nat}
    (h : FailsAt mode line .unterminatedString offset) :
    mode = .strict ∧ line.toList[offset]? = some '"' ∧ '"' ∉ line.toList.drop (offset + 1) := by
  obtain ⟨fault, refusal, hCode, rfl⟩ := h.exists_refusal
  obtain ⟨hMode, body, hText, hBody⟩ := refusal.exists_quote hCode
  refine ⟨hMode, ?_, ?_⟩
  · rw [← List.head?_drop, refusal.drop_eq_text, hText, List.head?_cons]
  · rwa [← List.drop_drop, refusal.drop_eq_text, hText, List.drop_one, List.tail_cons]

theorem exactFaults (mode : Mode) (line : String) : ExactFaults mode line where
  missing_iff := failsAt_missing_iff.trans labelFault_missing_iff
  invalid_iff := by
    rw [failsAt_invalid_iff, labelFault_invalid_iff]
    exact and_iff_right rfl
  invalid_text diagnostic h hCode := by
    obtain ⟨fault, rfl, hFault⟩ := tokenize_eq_rejected_iff.mp h
    cases labelFault_of_kind hFault (congrArg LexCode.kind hCode) with
    | missing => cases hCode
    | invalid => rfl
  leftmost diagnostic h hCode := by
    obtain ⟨fault, rfl, hFault⟩ := tokenize_eq_rejected_iff.mp h
    obtain ⟨refusal⟩ := nonempty_refusal_of_code hFault hCode
    have hOffset : fault.diagnostic.offset = .whole refusal.before.length :=
      congrArg (fun offset : Nat => Number.whole offset) refusal.offset_eq
    exact ⟨refusal.before.length, hOffset, refusal.lookup_offset, refusal.before_length_lt, _,
      refusal.tokenize_before .strict, refusal.ne_rem⟩
  unrecognized diagnostic offset h hCode hOffset := by
    obtain ⟨fault, rfl, hFault⟩ := tokenize_eq_rejected_iff.mp h
    obtain ⟨refusal⟩ := nonempty_refusal_of_code hFault (.inl hCode)
    obtain rfl : offset = refusal.before.length :=
      (Int.ofNat_inj.mp (Number.whole.inj hOffset)).symm.trans refusal.offset_eq
    exact refusal.exists_unrecognizedAt hCode
  unterminated _ h := h.unclosed

end LineBasic
