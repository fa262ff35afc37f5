import LineBasic.Command.Failure

/-! # Filling in templates part by part: literal text, placeholders with a value, what follows them

Every message of the command has one placeholder with literal text around it.
-/
namespace LineBasic
set_option autoImplicit false

namespace Text.Template

theorem parse_of_opening?_eq_none {c : Char} {rest : List Char} (h : opening? c rest = none) :
    parse (c :: rest) = .literal c :: parse rest := by
  rw [parse]
  split
  · rename_i hSome
    cases h.symm.trans hSome
  · rfl

theorem parse_of_opening?_eq_some {c : Char} {rest key after : List Char}
    (h : opening? c rest = some (key, after)) : parse (c :: rest) = .placeholder key :: parse after := by
  rw [parse]
  split
  · rename_i hSome
    cases h.symm.trans hSome
    rfl
  · rename_i hNone
    cases h.symm.trans hNone

theorem parse_literal {c : Char} (rest : List Char) (hBrace : c ≠ '{') :
    parse (c :: rest) = .literal c :: parse rest :=
  parse_of_opening?_eq_none (if_neg hBrace)

theorem parse_literals {before : List Char} (rest : List Char) (hBrace : '{' ∉ before) :
    parse (before ++ rest) = before.map .literal ++ parse rest := by
  induction before with
  | nil => rfl
  | cons c before ih =>
    obtain ⟨hFirst, hBefore⟩ := not_or.mp (mt List.mem_cons.mpr hBrace)
    rw [List.cons_append, parse_literal (before ++ rest) (Ne.symm hFirst), ih hBefore]
    rfl

theorem placeholder?_append {key : List Char} (rest : List Char) (hKey : key ≠ [])
    (hChars : ∀ c ∈ key, isKeyChar c = true) : placeholder? (key ++ '}' :: rest) = some (key, rest) := by
  have hRun : (key ++ '}' :: rest).takeWhile isKeyChar = key := by
    rw [List.takeWhile_append_of_pos hChars, List.takeWhile_cons_of_neg (by decide), List.append_nil]
  have hRest : (key ++ '}' :: rest).dropWhile isKeyChar = '}' :: rest := by
    rw [List.dropWhile_append_of_pos hChars, List.dropWhile_cons_of_neg (by decide)]
  obtain ⟨first, others, rfl⟩ := List.exists_cons_of_ne_nil hKey
  rw [placeholder?, hRun, hRest]
  rfl

theorem parse_placeholder {key : List Char} (rest : List Char) (hKey : key ≠ [])
    (hChars : ∀ c ∈ key, isKeyChar c = true) :
    parse ('{' :: (key ++ '}' :: rest)) = .placeholder key :: parse rest :=
  parse_of_opening?_eq_some (placeholder?_append rest hKey hChars)

theorem fill_literals (value? : String → Option String) (text : List Char) (template : Template) :
    fill value? (text.map .literal ++ template) = text ++ fill value? template := by
  rw [fill, List.flatMap_append, List.flatMap_map]
  congr 1
  exact List.flatMap_singleton' text

end Text.Template

namespace Text

theorem interpolate_append {before : String} (rest : String) (value? : String → Option String)
    (hBrace : '{' ∉ before.toList) :
    interpolate (before ++ rest) value? = before ++ interpolate rest value? := by
  rw [interpolate, String.toList_append, Template.parse_literals rest.toList hBrace, Template.fill_literals,
    String.ofList_append, String.ofList_toList, interpolate]

theorem interpolate_literal {text : String} (value? : String → Option String) (hBrace : '{' ∉ text.toList) :
    interpolate text value? = text := by
  have hText := interpolate_append "" value? hBrace
  rw [String.append_empty] at hText
  rw [hText]
  simp [interpolate, Template.parse, Template.fill]

theorem interpolate_placeholder {key value : String} (rest : String) {value? : String → Option String}
    (hKey : key.toList ≠ []) (hChars : ∀ c ∈ key.toList, isKeyChar c = true) (hValue : value? key = some value) :
    interpolate ("\x7b" ++ key ++ "\x7d" ++ rest) value? = value ++ interpolate rest value? := by
  have hTemplate : ("\x7b" ++ key ++ "\x7d" ++ rest).toList = '{' :: (key.toList ++ '}' :: rest.toList) := by
    simp
  rw [interpolate, hTemplate, Template.parse_placeholder rest.toList hKey hChars, interpolate]
  rw [Template.fill, List.flatMap_cons, Template.Piece.fill, String.ofList_toList, hValue]
  simp [Template.fill]

end Text

theorem CommandCode.messageWith_eq {code : CommandCode} {before key after : String}
    (hMessage : code.definition.message = before ++ ("\x7b" ++ key ++ "\x7d" ++ after))
    (hBefore : '{' ∉ before.toList) (hKey : key.toList ≠ []) (hChars : key.toList.all Text.isKeyChar = true)
    (hAfter : '{' ∉ after.toList) (value : ArgValue) :
    code.messageWith key value = "[" ++ code.name ++ "] " ++ before ++ value.display ++ after := by
  have hValue : Args.value? [(key, value)] key = some value.display := by simp [Args.value?]
  have hCode : code.definition.code = code.name := by cases code <;> rfl
  rw [messageWith, Definition.codedMessage, hMessage, hCode, Text.interpolate_append _ _ hBefore,
    Text.interpolate_placeholder after hKey (List.all_eq_true.mp hChars) hValue, Text.interpolate_literal _ hAfter]
  simp only [String.append_assoc]

theorem unknownFormatMessage_eq (format : String) :
    unknownFormatMessage format = "[BSCLI003] unknown format \"" ++ format ++ "\"" := by
  have hMessage : CommandCode.unknownFormat.definition.message =
      "unknown format \"" ++ ("\x7b" ++ "format" ++ "\x7d" ++ "\"") := rfl
  exact CommandCode.messageWith_eq hMessage (by decide) (by decide) (by decide) (by decide) (.text format)

theorem failureSummary_eq (count : Nat) :
    failureSummary (.whole count) = "[BSCLI004] " ++ Text.decimal count ++ " line(s) failed to tokenize" := by
  have hMessage : CommandCode.linesFailed.definition.message =
      "" ++ ("\x7b" ++ "count" ++ "\x7d" ++ " line(s) failed to tokenize") := rfl
  exact CommandCode.messageWith_eq hMessage (by decide) (by decide) (by decide) (by decide) (.number (.whole count))

end LineBasic
