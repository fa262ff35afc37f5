import LineBasic.Proofs.Document

/-! # The indented form: it is a document of its value, so no two values share one -/
namespace LineBasic.Text.Json
set_option autoImplicit false

theorem toDigits_eq_of_head? (n : Nat) : (Nat.toDigits 10 n).head? = some '0' → Nat.toDigits 10 n = ['0'] := by
  induction n using Nat.strongRecOn with
  | ind n ih =>
    intro hZero
    rcases Nat.lt_or_ge n 10 with hSmall | hLarge
    · rw [Nat.toDigits_of_lt_base hSmall] at hZero ⊢
      rw [Option.some.inj hZero]
    · -- The digits of the quotient come first, so they would be a zero alone, and the quotient zero.
      have hQuotient := numeral_toDigits (n / 10)
      obtain ⟨first, more, hDigits, -⟩ := hQuotient.exists_cons
      rw [Nat.toDigits_of_base_le (by decide) hLarge, hDigits] at hZero
      have hValue := hQuotient.value
      rw [ih (n / 10) (by omega) (hDigits ▸ hZero)] at hValue
      have hNone : n / 10 = 0 := hValue.symm
      omega

theorem integerForm_decimal (value : Int) (rest : List Char) :
    IntegerForm value ((decimal value).toList ++ rest) rest := by
  cases value with
  | ofNat n =>
    rw [decimal, Nat.toList_repr]
    exact .natural (numeral_toDigits n) (toDigits_eq_of_head? n)
  | negSucc n =>
    rw [decimal, String.toList_append, Nat.toList_repr]
    exact .negative (numeral_toDigits (n + 1)) (toDigits_eq_of_head? (n + 1))

theorem isGap_lineBreak (depth : Nat) : IsGap (lineBreak depth).toList := by
  rw [lineBreak, String.toList_ofList]
  refine List.forall_mem_cons.mpr ⟨rfl, ?_⟩
  intro c hc
  rw [List.eq_of_mem_replicate hc]
  rfl

/-- Entries written one after the other, each with the same whitespace before it. -/
theorem Series.of_written {α : Type} {Form : α → List Char → List Char → Prop} {close : Char}
    {written : α → List Char} {gap after : List Char} {first : α} {entries : List α} (hGap : IsGap gap)
    (hAfter : IsGap after) (hForm : ∀ a ∈ first :: entries, ∀ rest, Form a (written a ++ rest) rest)
    (rest : List Char) :
    Series Form close (first :: entries)
      (gap ++ (written first ++ (entries.flatMap (fun a => ',' :: (gap ++ written a)) ++ (after ++ close :: rest)))) rest := by
  induction entries generalizing first with
  | nil => exact .last hGap (hForm first List.mem_cons_self _) hAfter
  | cons second entries ih =>
    have hMore := ih fun a ha => hForm a (List.mem_cons_of_mem first ha)
    have hNone : IsGap [] := nofun
    simp only [List.flatMap_cons, List.cons_append, List.append_assoc]
    exact .next hGap (hForm first List.mem_cons_self _) hNone hMore

theorem toList_renderItems (depth : Nat) (items : List Json) :
    (renderItems depth items).toList =
      items.flatMap fun item => ',' :: ((lineBreak depth).toList ++ (render depth item).toList) := by
  induction items with
  | nil => rfl
  | cons item items ih =>
    rw [renderItems, String.toList_append, String.toList_append, String.toList_append, ih, List.flatMap_cons]
    rfl

theorem toList_renderFields (depth : Nat) (fields : List (String × Json)) :
    (renderFields depth fields).toList =
      fields.flatMap fun field => ',' :: ((lineBreak depth).toList ++ (renderField depth field).toList) := by
  induction fields with
  | nil => rfl
  | cons field fields ih =>
    rw [renderFields, String.toList_append, String.toList_append, String.toList_append, ih, List.flatMap_cons]
    rfl

theorem field_renderField {depth : Nat} {field : String × Json}
    (h : ∀ rest, Value field.2 ((render depth field.2).toList ++ rest) rest) (rest : List Char) :
    Field Value field ((renderField depth field).toList ++ rest) rest := by
  obtain ⟨key, value⟩ := field
  have hNone : IsGap [] := nofun
  have hSpace : IsGap [' '] := List.forall_mem_singleton.mpr rfl
  rw [renderField, String.toList_append, String.toList_append, List.append_assoc, List.append_assoc]
  exact .colon (quoted_quote key _) hNone hSpace (h rest)

/-- The indented form of a value is a form of it, however deep it is set in. -/
theorem value_render (value : Json) (depth : Nat) (rest : List Char) :
    Value value ((render depth value).toList ++ rest) rest := by
  have hNone : IsGap [] := nofun
  induction value using Json.induction generalizing depth rest with
  | string value =>
    rw [render]
    exact .string (quoted_quote value rest)
  | number value =>
    rw [render]
    exact .number (integerForm_decimal value rest)
  | array items ih =>
    cases items with
    | nil =>
      rw [render]
      exact .array (.empty hNone)
    | cons item items =>
      have hSeries := @Series.of_written _ _ ']' _ _ _ _ _ (isGap_lineBreak (depth + 1)) (isGap_lineBreak depth)
        (fun item hItem => ih item hItem (depth + 1)) rest
      rw [render]
      simp only [String.toList_append, toList_renderItems, List.append_assoc]
      exact .array (.series hSeries)
  | object fields ih =>
    cases fields with
    | nil =>
      rw [render]
      exact .object (.empty hNone)
    | cons field fields =>
      have hSeries := @Series.of_written _ _ '}' _ _ _ _ _ (isGap_lineBreak (depth + 1)) (isGap_lineBreak depth)
        (fun field hField => field_renderField (ih field hField (depth + 1))) rest
      rw [render]
      simp only [String.toList_append, toList_renderFields, List.append_assoc]
      exact .object (.series hSeries)

theorem document_render_iff {value other : Json} : Document (render 0 value) other ↔ other = value := by
  have hDocument : Document (render 0 value) value := by
    have hNone : IsGap [] := nofun
    have hValue := value_render value 0 []
    rw [List.append_nil] at hValue
    exact .form (List.nil_append _).symm hNone hValue hNone
  constructor
  · intro h
    exact h.unique hDocument
  · rintro rfl
    exact hDocument

theorem render_injective {value other : Json} (h : render 0 value = render 0 other) : value = other :=
  document_render_iff.mp (h ▸ document_render_iff.mpr rfl)

end LineBasic.Text.Json
