import LineBasic.Proofs.WellFormed

/-! # Spelling a line: the label and the tokens, each token after one space

Tokenizing a spelled line gives back the label and the tokens, whatever they are, as long as they are
well-formed; the offsets are those of the spellings.
-/
namespace LineBasic
set_option autoImplicit false

/-- A code that belongs to no kind is spelled as nothing. -/
def Token.spelled (t : Token) : String := t.spelling?.getD ""

def spelledLine (label : LineNumber) (tokens : List Token) : String :=
  label.text ++ String.join (tokens.map fun t => " " ++ t.spelled)

def spelledTokens (offset : Nat) : List Token → List PositionedToken
  | [] => []
  | t :: rest => ⟨offset, t⟩ :: spelledTokens (offset + t.spelled.length + 1) rest

theorem symbol_mem_table (s : Symbol) (hOther : s ∉ [.minus, .unaryMinus, .kwRem]) :
    s ∈ markTable.map Prod.snd ∨ s ∈ wordTable.map Prod.snd := by
  revert hOther
  cases s <;> decide

/-- The spelling of a token that fits stands wherever it is followed by the end of a word. -/
theorem Token.Fits.stands {t : Token} {afterValue : Bool} (h : t.Fits afterValue) (mode : Mode)
    {after : List Char} (hEnd : EndsWord after) :
    (Lexeme.single t).Stands mode afterValue t.spelled.toList after := by
  cases h with
  | number hMax =>
    refine .word ?_ nofun hEnd
    rw [spelled, spelling?, Option.getD_some, Int.ofNat_eq_natCast, Text.toList_decimal]
    exact .number (Text.numeral_toDigits _) hMax
  | identifier hName hTable => exact .word (.identifier hName hTable) nofun hEnd
  | @stringLiteral text hText =>
    have hStands := @Lexeme.Stands.string mode afterValue text.toList after hText
    rw [String.ofList_toList] at hStands
    simpa [spelled, spelling?] using hStands
  | minus hValue =>
    subst hValue
    exact .minus
  | unaryMinus hValue =>
    subst hValue
    exact .minus
  | @symbol s hOther =>
    rcases symbol_mem_table s hOther with hMark | hWord
    · obtain ⟨entry, hEntry, rfl⟩ := List.mem_map.mp hMark
      rw [spelled, spelling?, Option.getD_some, spelling_toList_of_mem_markTable hEntry]
      exact .mark hEntry
    · obtain ⟨entry, hEntry, rfl⟩ := List.mem_map.mp hWord
      rw [spelled, spelling?, Option.getD_some, spelling_of_mem_wordTable entry hEntry]
      refine .word (.symbol hEntry) ?_ hEnd
      intro hRem
      rw [Token.symbol.inj hRem] at hOther
      exact hOther (by decide)

theorem exists_layout_of_wellFormedFrom {afterValue : Bool} {tokens : List Token}
    (h : WellFormedFrom afterValue tokens) (mode : Mode) :
    ∃ blocks last, Layout mode afterValue blocks [] last ∧
      Block.sources blocks = tokens.flatMap (fun t => ' ' :: t.spelled.toList) ∧
      ∀ position, Block.tokensFrom position blocks = spelledTokens (position + 1) tokens := by
  induction h with
  | nil => exact ⟨[], _, .nil, rfl, fun _ => rfl⟩
  | @token afterValue t rest hToken hRest ih =>
    obtain ⟨blocks, last, hLayout, hSource, hTokens⟩ := ih
    have hEnd : EndsWord (Block.sources blocks ++ []) := by
      rw [List.append_nil, hSource]
      cases rest with
      | nil => simp [EndsWord]
      | cons u rest =>
        intro c hc
        cases hc
        decide
    have hStands := hToken.stands mode hEnd
    refine ⟨⟨[' '], t.spelled.toList, .single t⟩ :: blocks, last, .cons rfl hStands hLayout, ?_, ?_⟩
    · rw [Block.sources_cons, hSource]
      rfl
    · intro position
      have hStop : position + ([' '] ++ t.spelled.toList).length + 1 = position + 1 + t.spelled.length + 1 := by
        rw [List.length_append, List.length_singleton, String.length_toList]
        omega
      rw [Block.tokensFrom, hTokens, Block.source, hStop]
      rfl
  | @remark afterValue text =>
    have hStands :
        (Lexeme.remark text).Stands mode afterValue ('R' :: 'E' :: 'M' :: ' ' :: text.toList) [] := by
      have hRemark := @Lexeme.Stands.remark mode afterValue ' ' text.toList (by decide)
      rwa [String.ofList_toList] at hRemark
    refine ⟨[⟨[' '], 'R' :: 'E' :: 'M' :: ' ' :: text.toList, .remark text⟩], _, .cons rfl hStands .nil, ?_, ?_⟩
    · simp [Block.sources, Block.source, Token.spelled, Token.spelling?, Symbol.spelling]
    · intro position
      rfl

theorem tokenize_spelledLine (mode : Mode) (label : LineNumber) {tokens : List Token} (h : WellFormed tokens) :
    tokenize mode (spelledLine label tokens) =
      .ok (.accepted ⟨label, spelledTokens (label.text.length + 1) tokens⟩) := by
  obtain ⟨blocks, last, hLayout, hSource, hTokens⟩ :=
    exists_layout_of_wellFormedFrom (wellFormed_iff.mp h) mode
  rw [tokenize_eq_accepted_iff]
  refine ⟨⟨label.text.toList, blocks, [], last, ?_, ?_, ?_, hLayout, rfl, ?_⟩⟩
  · rw [spelledLine, String.toList_append, String.toList_join, List.flatMap_map, hSource, List.append_nil]
    simp
  · rw [LineNumber.text]
    exact Text.toList_decimal label.val ▸ Text.numeral_toDigits label.val
  · rw [hSource, List.append_nil]
    cases tokens with
    | nil => simp [StartsBlank]
    | cons t rest =>
      intro c hc
      cases hc
      decide
  · rw [hTokens, String.length_toList]

theorem tokenize_spelledLine_remark :
    let label : LineNumber := ⟨4294967295, by decide⟩
    let tokens : List Token := [.symbol .kwLet, .identifier "A", .symbol .equals, .symbol .unaryMinus,
      .number 5, .symbol .minus, .stringLiteral "x y", .symbol .kwRem, .comment "\" ("]
    WellFormed tokens ∧ spelledLine label tokens = "4294967295 LET A = - 5 - \"x y\" REM \" (" ∧
      tokenize .strict (spelledLine label tokens) =
        .ok (.accepted ⟨label, spelledTokens (label.text.length + 1) tokens⟩) := by
  intro label tokens
  have hTokens : WellFormed tokens := by
    rw [wellFormed_iff]
    exact .token (.symbol (by decide)) <| .token (.identifier (by decide) (by decide)) <|
      .token (.symbol (by decide)) <| .token (.unaryMinus rfl) <| .token (@Token.Fits.number _ 5 (by decide)) <|
      .token (.minus rfl) <| .token (.stringLiteral (by decide)) .remark
  exact ⟨hTokens, by cbv, tokenize_spelledLine .strict label hTokens⟩

end LineBasic
