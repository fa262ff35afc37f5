import Mathlib
import LineBasic.Program
import LineBasic.Proofs.Document

/-! # Sizes: the units of a text, and the size of a listing that is not written

What is told of a listing without writing it is the number of its units.
-/
namespace LineBasic
set_option autoImplicit false

namespace Text

theorem foldl_add {α : Type} (measure : α → Nat) (entries : List α) (total : Nat) :
    entries.foldl (fun total entry => total + measure entry) total = total + (entries.map measure).sum := by
  induction entries generalizing total with
  | nil => rfl
  | cons entry entries ih => rw [List.foldl_cons, ih, List.map_cons, List.sum_cons, Nat.add_assoc]

theorem units_eq (text : String) : units text = (text.toList.map unitsOf).sum := by
  rw [units, String.foldl_eq_foldl_toList, foldl_add, Nat.zero_add]

theorem units_ofList (chars : List Char) : units (String.ofList chars) = (chars.map unitsOf).sum := by
  rw [units_eq, String.toList_ofList]

theorem units_empty : units "" = 0 := units_eq ""

theorem units_append (text rest : String) : units (text ++ rest) = units text + units rest := by
  rw [units_eq, units_eq, units_eq, String.toList_append, List.map_append, List.sum_append]

theorem unitsOf_of_isDigit {c : Char} (h : c.isDigit = true) : unitsOf c = 1 := by
  have hRange : 48 ≤ c.toNat ∧ c.toNat ≤ 57 := Char.isDigit_iff_toNat.mp h
  exact if_pos (by omega)

theorem units_decimal (n : Nat) : units (decimal n) = (Nat.toDigits 10 n).length := by
  have hDigits : (Nat.toDigits 10 n).map unitsOf = List.replicate (Nat.toDigits 10 n).length 1 := by
    apply List.eq_replicate_iff.mpr
    rw [List.length_map]
    refine ⟨rfl, ?_⟩
    intro m hm
    obtain ⟨c, hc, rfl⟩ := List.mem_map.mp hm
    exact unitsOf_of_isDigit ((numeral_toDigits n).isDigit c hc)
  rw [units_eq, toList_decimal, hDigits, List.sum_replicate_nat, Nat.mul_one]

theorem units_decimal_le {n : Nat} (k : Nat) (h : n < 10 ^ (k + 1)) : units (decimal n) ≤ k + 1 := by
  rw [units_decimal]
  exact (Nat.length_toDigits_le_iff (by decide) k.succ_pos).mpr h

end Text

namespace Text.Json

theorem unitsOf_hexDigit (n : Nat) : unitsOf (hexDigit n) = 1 := by
  have hDigits : ∀ k < 16, unitsOf (Nat.digitChar k) = 1 := by decide
  exact hDigits (n % 16) (Nat.mod_lt n (by decide))

theorem sum_escape (c : Char) : ((escape c).map unitsOf).sum = escapeUnits c := by
  by_cases hListed : c = '\n' ∨ c = '\r' ∨ c = '\t' ∨ c = '"' ∨ c = '\\'
  · rcases hListed with rfl | rfl | rfl | rfl | rfl <;> decide
  · simp only [not_or] at hListed
    obtain ⟨hFeed, hReturn, hTab, hQuote, hBackslash⟩ := hListed
    have hMarks : unitsOf '\\' = 1 ∧ unitsOf 'b' = 1 ∧ unitsOf 'f' = 1 ∧ unitsOf 'u' = 1 ∧ unitsOf '0' = 1 := by decide
    rw [escape, escapeUnits, if_neg hQuote, if_neg hBackslash, if_neg hFeed, if_neg hReturn, if_neg hTab]
    simp only [hFeed, hReturn, hTab, hQuote, hBackslash, false_or, or_self, if_false]
    -- What is left is the two short escapes by number, the other control characters and the character itself.
    split
    · rename_i hBackspace
      simp [hBackspace, hMarks]
    · split
      · rename_i hFormFeed
        simp [hFormFeed, hMarks]
      · split
        · simp [unitsOf_hexDigit, *]
        · simp

theorem quoteUnits_eq (text : String) : quoteUnits text = 2 + (text.toList.map escapeUnits).sum := by
  rw [quoteUnits, String.foldl_eq_foldl_toList, foldl_add]

theorem rowsSize_cons (depth first : Nat) (rest : List Nat) :
    rowsSize depth (first :: rest) =
      2 + breakUnits (depth + 1) + first + breakUnits depth + (rest.map (1 + breakUnits (depth + 1) + ·)).sum :=
  foldl_add (1 + breakUnits (depth + 1) + ·) rest _

theorem units_quote (text : String) : units (quote text) = quoteUnits text := by
  have hEscaped (chars : List Char) : ((chars.flatMap escape).map unitsOf).sum = (chars.map escapeUnits).sum := by
    induction chars with
    | nil => rfl
    | cons c chars ih => rw [List.flatMap_cons, List.map_append, List.sum_append, sum_escape, ih, List.map_cons, List.sum_cons]
  have hQuote : unitsOf '"' = 1 := rfl
  rw [quote, units_ofList, quoteUnits_eq, List.map_cons, List.map_append, List.sum_cons, List.sum_append,
    List.map_singleton, List.sum_singleton, hQuote, hEscaped]
  omega

theorem units_lineBreak (depth : Nat) : units (lineBreak depth) = breakUnits depth := by
  have hFeed : unitsOf '\n' = 1 := rfl
  have hSpace : unitsOf ' ' = 1 := rfl
  rw [lineBreak, units_ofList, List.map_cons, List.sum_cons, List.map_replicate, List.sum_replicate_nat, hFeed, hSpace,
    breakUnits]
  omega

theorem units_renderItems {depth : Nat} {items : List Json}
    (h : ∀ item ∈ items, units (render depth item) = size depth item) :
    units (renderItems depth items) = ((itemSizes depth items).map (1 + breakUnits depth + ·)).sum := by
  have hComma : units "," = 1 := units_eq ","
  induction items with
  | nil => exact units_empty
  | cons item items ih =>
    obtain ⟨hFirst, hRest⟩ := List.forall_mem_cons.mp h
    rw [renderItems, units_append, units_append, units_append, hComma, units_lineBreak, hFirst, ih hRest, itemSizes,
      List.map_cons, List.sum_cons]

theorem units_renderField {depth : Nat} {field : String × Json}
    (h : units (render depth field.2) = size depth field.2) :
    units (renderField depth field) = fieldSize depth field := by
  have hColon : units ": " = 2 := units_eq ": "
  rw [renderField, units_append, units_append, units_quote, hColon, h, fieldSize]

theorem units_renderFields {depth : Nat} {fields : List (String × Json)}
    (h : ∀ field ∈ fields, units (renderField depth field) = fieldSize depth field) :
    units (renderFields depth fields) = ((fieldSizes depth fields).map (1 + breakUnits depth + ·)).sum := by
  have hComma : units "," = 1 := units_eq ","
  induction fields with
  | nil => exact units_empty
  | cons field fields ih =>
    obtain ⟨hFirst, hRest⟩ := List.forall_mem_cons.mp h
    rw [renderFields, units_append, units_append, units_append, hComma, units_lineBreak, hFirst, ih hRest, fieldSizes,
      List.map_cons, List.sum_cons]

theorem units_render (depth : Nat) (value : Json) : units (render depth value) = size depth value := by
  have hOpen : units "[" = 1 := units_eq "["
  have hClose : units "]" = 1 := units_eq "]"
  have hOpenBrace : units "\x7b" = 1 := units_eq "\x7b"
  have hCloseBrace : units "\x7d" = 1 := units_eq "\x7d"
  induction value using Json.induction generalizing depth with
  | string value => rw [render, units_quote, size]
  | number value => rw [render, size]
  | array items ih =>
    cases items with
    | nil =>
      rw [render, size, itemSizes, rowsSize]
      exact units_eq "[]"
    | cons item items =>
      obtain ⟨hFirst, hRest⟩ := List.forall_mem_cons.mp ih
      rw [render, size, itemSizes, rowsSize_cons]
      simp only [units_append, units_lineBreak, hOpen, hClose, hFirst,
        units_renderItems fun item hItem => hRest item hItem (depth + 1)]
      omega
  | object fields ih =>
    cases fields with
    | nil =>
      rw [render, size, fieldSizes, rowsSize]
      exact units_eq "\x7b\x7d"
    | cons field fields =>
      have hFields : ∀ entry ∈ field :: fields, units (renderField (depth + 1) entry) = fieldSize (depth + 1) entry :=
        fun entry hEntry => units_renderField (ih entry hEntry (depth + 1))
      obtain ⟨hFirst, hRest⟩ := List.forall_mem_cons.mp hFields
      rw [render, size, fieldSizes, rowsSize_cons]
      simp only [units_append, units_lineBreak, hOpenBrace, hCloseBrace, hFirst, units_renderFields hRest]
      omega

theorem itemSizes_map {α : Type} (depth : Nat) (f : α → Json) (entries : List α) :
    itemSizes depth (entries.map f) = entries.map fun entry => size depth (f entry) := by
  induction entries with
  | nil => rfl
  | cons entry entries ih => rw [List.map_cons, itemSizes, ih, List.map_cons]

end Text.Json

theorem OutputFormat.units_render (format : OutputFormat) (records : List IndexedRecord) :
    Text.units (format.render records) = format.size records := by
  cases format with
  | text => rfl
  | json => rw [render, Text.Json.units_render, Text.Json.size, Text.Json.itemSizes_map, size]

end LineBasic
