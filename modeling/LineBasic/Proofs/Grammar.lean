import LineBasic.Proofs.Line

/-! # The grammar of lines, given without reference to tokens or to the order of scanning

A line is a line number and a body, and a body is a sequence of segments. A word or a remark is a
segment only together with what follows it; all other segments stand for themselves.
-/
namespace LineBasic.Grammar
set_option autoImplicit false

structure IsWord (word : List Char) : Prop where
  nonempty : word ≠ []
  chars : ∀ c ∈ word, Text.isSpace c = false ∧ c ≠ ')'
  first : ∀ c ∈ word.head?, c ≠ '"' ∧ c ≠ '-' ∧ c ≠ '!' ∧ c ≠ '('
  notRem : word ≠ ['R', 'E', 'M']
  form : (∃ n, Text.Numeral word n ∧ n ≤ 2147483647) ∨
    (∃ digits n, word = '+' :: digits ∧ Text.Numeral digits n ∧ n ≤ 2147483647) ∨
    String.ofList word ∈ wordTable.map Prod.fst ∨
    ∃ first rest, word = first :: rest ∧ first.isAlpha = true ∧ ∀ c ∈ rest, c.isAlphanum = true ∨ c = '_'

/-- Only lenient reading has strings without a closing quote. -/
inductive Body (mode : Mode) : List Char → Prop
  | nil : Body mode []
  | space {c : Char} {rest : List Char} (hSpace : Text.isSpace c = true) (hRest : Body mode rest) :
      Body mode (c :: rest)
  | string {text rest : List Char} (hText : '"' ∉ text) (hRest : Body mode rest) :
      Body mode ('"' :: (text ++ '"' :: rest))
  | mark {c : Char} {rest : List Char} (hMark : c ∈ ['-', '!', '(', ')']) (hRest : Body mode rest) :
      Body mode (c :: rest)
  | word {word rest : List Char} (hWord : IsWord word)
      (hEnd : ∀ c ∈ rest.head?, Text.isSpace c = true ∨ c = ')') (hRest : Body mode rest) :
      Body mode (word ++ rest)
  | remark {text : List Char} (hEnd : ∀ c ∈ text.head?, Text.isSpace c = true ∨ c = ')') :
      Body mode ('R' :: 'E' :: 'M' :: text)
  | openString {text : List Char} (hMode : mode = .lenient) (hText : '"' ∉ text) :
      Body mode ('"' :: text)

def Line (mode : Mode) (line : List Char) : Prop :=
  ∃ digits body n, line = digits ++ body ∧ Text.Numeral digits n ∧ n ≤ 4294967295 ∧
    (∀ c ∈ body.head?, Text.isSpace c = true) ∧ Body mode body

theorem endsWord_iff {after : List Char} :
    EndsWord after ↔ ∀ c ∈ after.head?, Text.isSpace c = true ∨ c = ')' := by
  simp only [EndsWord, isWordChar_eq_false_iff]

theorem isIdentifier_iff {word : List Char} :
    isIdentifier word = true ↔ ∃ first rest, word = first :: rest ∧ first.isAlpha = true ∧
      ∀ c ∈ rest, c.isAlphanum = true ∨ c = '_' := by
  cases word with
  | nil => simp [isIdentifier]
  | cons first rest =>
    simp only [isIdentifier, isIdentifierChar, Bool.and_eq_true, List.all_eq_true, Bool.or_eq_true,
      beq_iff_eq]
    constructor
    · intro h
      exact ⟨first, rest, rfl, h⟩
    · rintro ⟨_, _, hWord, h⟩
      cases hWord
      exact h

theorem isWord_of_wordFor {t : Token} {word : List Char} (hWord : t.WordFor word)
    (hToken : t ≠ .symbol .kwRem) : IsWord word := by
  have hOpens := hWord.all_opensWord
  refine ⟨hWord.ne_nil, ?_, ?_, ?_, ?_⟩
  · intro c hc
    have hChar := ((opensWord_iff c).mp (hOpens c hc)).1
    simpa [isWordChar] using hChar
  · intro c hc
    exact ((opensWord_iff c).mp (hOpens c (List.mem_of_mem_head? hc))).2
  · rintro rfl
    exact hToken (hWord.unique Token.wordFor_rem)
  · cases hWord with
    | number hDigits hMax => exact .inl ⟨_, hDigits, Int.ofNat_le.mp hMax⟩
    | signedNumber hDigits hMax => exact .inr (.inl ⟨_, _, rfl, hDigits, Int.ofNat_le.mp hMax⟩)
    | symbol hEntry =>
      rw [String.ofList_toList]
      exact .inr (.inr (.inl (List.mem_map_of_mem hEntry)))
    | identifier hName => exact .inr (.inr (.inr (isIdentifier_iff.mp hName)))

theorem exists_wordFor {word : List Char} (h : IsWord word) :
    ∃ t : Token, t.WordFor word ∧ t ≠ .symbol .kwRem := by
  have hSymbol {s : Symbol} (hEntry : lookupWord (String.ofList word) = some s) :
      ∃ t : Token, t.WordFor word ∧ t ≠ .symbol .kwRem := by
    have hWord := Token.wordFor_symbol hEntry
    refine ⟨.symbol s, hWord, ?_⟩
    intro hRem
    rw [hRem] at hWord
    exact h.notRem hWord.eq_rem
  rcases h.form with ⟨n, hDigits, hMax⟩ | ⟨digits, n, rfl, hDigits, hMax⟩ | hTable | hName
  · exact ⟨_, .number hDigits (Int.ofNat_le.mpr hMax), nofun⟩
  · exact ⟨_, .signedNumber hDigits (Int.ofNat_le.mpr hMax), nofun⟩
  · obtain ⟨⟨key, s⟩, hEntry, hKey⟩ := List.mem_map.mp hTable
    rw [← hKey] at hSymbol
    exact hSymbol (lookupWord_eq_some_iff.mpr hEntry)
  · cases hLookup : lookupWord (String.ofList word) with
    | some s => exact hSymbol hLookup
    | none => exact ⟨_, Token.wordFor_identifier (isIdentifier_iff.mpr hName) hLookup, nofun⟩

namespace Body

theorem blank_append {mode : Mode} {gap rest : List Char} (hGap : Text.isBlank gap = true)
    (hRest : Body mode rest) : Body mode (gap ++ rest) := by
  induction gap with
  | nil => exact hRest
  | cons c gap ih =>
    obtain ⟨hSpace, hGap⟩ := Bool.and_eq_true_iff.mp hGap
    exact .space hSpace (ih hGap)

theorem stands_append {mode : Mode} {afterValue : Bool} {lexeme : Lexeme} {text rest : List Char}
    (hText : lexeme.Stands mode afterValue text rest) (hRest : Body mode rest) : Body mode (text ++ rest) := by
  have hMarks : ∀ entry ∈ markTable, entry.1 ∈ ['-', '!', '(', ')'] := by decide
  cases hText with
  | string hText =>
    rw [List.cons_append, List.append_assoc]
    exact .string hText hRest
  | openString hMode hText =>
    rw [List.append_nil]
    exact .openString hMode hText
  | minus => exact .mark (by decide) hRest
  | mark hMark => exact .mark (hMarks _ hMark) hRest
  | word hWord hToken hEnd => exact .word (isWord_of_wordFor hWord hToken) (endsWord_iff.mp hEnd) hRest
  | bareRemark => exact .remark (by simp)
  | remark hSeparator =>
    rw [List.append_nil]
    refine .remark ?_
    intro c hc
    cases hc
    exact (isWordChar_eq_false_iff _).mp hSeparator

theorem of_layout {mode : Mode} {afterValue last : Bool} {blocks : List Block} {gap : List Char}
    (h : Layout mode afterValue blocks gap last) (hGap : Text.isBlank gap = true) :
    Body mode (Block.sources blocks ++ gap) := by
  induction h with
  | nil => simpa [Block.sources_nil] using blank_append hGap nil
  | cons hBlank hText _ ih =>
    rw [Block.sources_cons, Block.source, List.append_assoc, List.append_assoc]
    exact blank_append hBlank (stands_append hText (ih hGap))

theorem exists_tokens_append {mode : Mode} (afterValue : Bool) {lexeme : Lexeme} {text rest : List Char}
    (position : Nat) (hText : lexeme.Stands mode afterValue text rest)
    (hRest : ∀ afterValue position, ∃ tokens, scanTokens mode afterValue ⟨position, rest⟩ = .ok tokens) :
    ∃ tokens, scanTokens mode afterValue ⟨position, text ++ rest⟩ = .ok tokens := by
  have hBlank : Text.isBlank [] = true := rfl
  have hStep := scanTokens_append position hBlank hText
  obtain ⟨tokens, hTokens⟩ := hRest lexeme.isValue (position + ([] ++ text).length)
  rw [hTokens] at hStep
  exact ⟨_, hStep⟩

/-- Every segment is scanned as one lexeme or as whitespace, from wherever it is met. -/
theorem exists_tokens {mode : Mode} {body : List Char} (h : Body mode body) (afterValue : Bool)
    (position : Nat) : ∃ tokens, scanTokens mode afterValue ⟨position, body⟩ = .ok tokens := by
  have hNil (afterValue : Bool) (position : Nat) :
      ∃ tokens, scanTokens mode afterValue ⟨position, []⟩ = .ok tokens :=
    ⟨[], scanTokens_blank mode afterValue position rfl⟩
  induction h generalizing afterValue position with
  | nil => exact hNil afterValue position
  | @space c rest hSpace _ ih =>
    rw [scanTokens_space mode afterValue rest position hSpace]
    exact ih afterValue (position + 1)
  | string hText _ ih =>
    have hStep := exists_tokens_append afterValue position (.string hText) ih
    rwa [List.cons_append, List.append_assoc] at hStep
  | @mark c rest hMark _ ih =>
    have hEntry {s : Symbol} (hMem : (c, s) ∈ markTable) :=
      exists_tokens_append afterValue position (.mark hMem) ih
    simp only [List.mem_cons, List.not_mem_nil, or_false] at hMark
    rcases hMark with rfl | rfl | rfl | rfl
    · exact exists_tokens_append afterValue position .minus ih
    · exact hEntry (by decide : ('!', Symbol.bang) ∈ markTable)
    · exact hEntry (by decide : ('(', Symbol.leftParen) ∈ markTable)
    · exact hEntry (by decide : (')', Symbol.rightParen) ∈ markTable)
  | word hWord hEnd _ ih =>
    obtain ⟨t, hToken, hRem⟩ := exists_wordFor hWord
    exact exists_tokens_append afterValue position (.word hToken hRem (endsWord_iff.mpr hEnd)) ih
  | @remark text hEnd =>
    cases text with
    | nil => exact exists_tokens_append afterValue position .bareRemark hNil
    | cons c text =>
      have hRemark : (Lexeme.remark (String.ofList text)).Stands mode afterValue
          ('R' :: 'E' :: 'M' :: c :: text) [] := .remark ((isWordChar_eq_false_iff c).mpr (hEnd c rfl))
      have hStep := exists_tokens_append afterValue position hRemark hNil
      rwa [List.append_nil] at hStep
  | openString hMode hText =>
    have hStep := exists_tokens_append afterValue position (.openString hMode hText) hNil
    rwa [List.append_nil] at hStep

end Body

theorem exists_tokenize_accepted_iff (mode : Mode) (line : String) :
    (∃ record, tokenize mode line = .ok (.accepted record)) ↔ Line mode line.toList := by
  constructor
  · rintro ⟨record, h⟩
    obtain ⟨layout⟩ := tokenize_eq_accepted_iff.mp h
    exact ⟨layout.digits, _, record.label.val, layout.line_eq, layout.label, record.label.le_max,
      layout.boundary, .of_layout layout.layout layout.blank⟩
  · rintro ⟨digits, body, n, hLine, hDigits, hMax, hBody, hSegments⟩
    obtain ⟨tokens, hTokens⟩ := hSegments.exists_tokens false digits.length
    have hRead := @readLine_append mode digits body ⟨n, hMax⟩ tokens hDigits hBody hTokens
    rw [← hLine, String.ofList_toList] at hRead
    exact ⟨_, tokenize_eq_accepted_iff_readLine.mpr hRead⟩

end LineBasic.Grammar
