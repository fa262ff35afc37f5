import LineBasic.Program
import LineBasic.Proofs.Rendering
import LineBasic.Proofs.WellFormed

/-! # The JSON listing: records with the same listing are the same

A token is determined by the name of its kind and by its payload, and the listing writes both.
-/
namespace LineBasic
set_option autoImplicit false

namespace Token

/-- The token is of some kind; the token of a code that belongs to no kind is not listed. -/
def Listed (t : Token) : Prop := ∃ kind, t.kind? = some kind

instance : DecidablePred Listed := fun t =>
  decidable_of_iff (t.kind?.isSome = true) Option.isSome_iff_exists

theorem kindName_of_kind? {t : Token} {kind : Kind} (h : t.kind? = some kind) : t.kindName = kind.name := by
  cases t with
  | unlisted => cases h
  | symbol | comment | identifier | number | stringLiteral =>
    cases h
    rfl

theorem kind?_of_kindName {t u : Token} (ht : t.Listed) (hu : u.Listed) (h : t.kindName = u.kindName) :
    t.kind? = u.kind? := by
  -- No two kinds share a name.
  have hNames : (Kind.all.map Kind.name).Nodup := by decide
  obtain ⟨kind, hKind⟩ := ht
  obtain ⟨other, hOther⟩ := hu
  rw [kindName_of_kind? hKind, kindName_of_kind? hOther] at h
  rw [hKind, hOther, List.inj_on_of_nodup_map hNames kind.mem_all other.mem_all h]

theorem eq_of_kind?_of_payload? {t u : Token} (ht : t.Listed) (hKind : t.kind? = u.kind?)
    (hPayload : t.payload? = u.payload?) : t = u := by
  obtain ⟨kind, h⟩ := ht
  have hOther := hKind.symm.trans h
  cases t with
  | unlisted => cases h
  | symbol | comment | identifier | number | stringLiteral =>
    cases h
    cases u <;> cases hOther
    cases hPayload
    rfl

theorem eq_of_kindName_of_payload? {t u : Token} (ht : t.Listed) (hu : u.Listed) (hName : t.kindName = u.kindName)
    (hPayload : t.payload? = u.payload?) : t = u :=
  eq_of_kind?_of_payload? ht (kind?_of_kindName ht hu hName) hPayload

end Token

def LineRecord.Listed (record : LineRecord) : Prop := ∀ positioned ∈ record.tokens, positioned.token.Listed

instance : DecidablePred LineRecord.Listed := fun record =>
  inferInstanceAs (Decidable (∀ positioned ∈ record.tokens, positioned.token.Listed))

/-- The tokenizer makes no other records. -/
theorem LineRecord.listed_of_tokenize {mode : Mode} {line : String} {record : LineRecord}
    (h : tokenize mode line = .ok (.accepted record)) : record.Listed := by
  obtain ⟨layout⟩ := tokenize_eq_accepted_iff.mp h
  have hTokens := (layout.layout.wellFormedFrom layout.digits.length).wellFormed
  rw [← layout.tokens_eq] at hTokens
  intro positioned hMember
  have hToken := List.mem_map_of_mem (f := PositionedToken.token) hMember
  cases hKind : positioned.token with
  | unlisted code => exact False.elim (hTokens.listed code (hKind ▸ hToken))
  | symbol | comment | identifier | number | stringLiteral => exact ⟨_, rfl⟩

theorem eq_of_map_eq {α β : Type} {f : α → β} {entries others : List α}
    (hUnique : ∀ a ∈ entries, ∀ b ∈ others, f a = f b → a = b) (h : entries.map f = others.map f) :
    entries = others := by
  induction entries generalizing others with
  | nil => exact (List.map_eq_nil_iff.mp h.symm).symm
  | cons a entries ih =>
    cases others with
    | nil => cases h
    | cons b others =>
      obtain ⟨hHead, hTail⟩ := List.cons.inj h
      obtain rfl := hUnique a List.mem_cons_self b List.mem_cons_self hHead
      rw [ih (fun c hc d hd => hUnique c (List.mem_cons_of_mem a hc) d (List.mem_cons_of_mem a hd)) hTail]

theorem Payload.toJson_injective : Function.Injective Payload.toJson := by
  intro payload other h
  cases payload <;> cases other <;> cases h <;> rfl

theorem PositionedToken.eq_of_toJson {positioned other : PositionedToken} (hListed : positioned.token.Listed)
    (hOther : other.token.Listed) (h : positioned.toJson = other.toJson) : positioned = other := by
  have hField : Function.Injective fun payload : Payload => ("value", payload.toJson) := fun _ _ hSame =>
    Payload.toJson_injective (Prod.mk.inj hSame).2
  obtain ⟨offset, t⟩ := positioned
  obtain ⟨otherOffset, u⟩ := other
  simp only [toJson, List.cons_append, List.nil_append, Text.Json.object.injEq, List.cons.injEq, Prod.mk.injEq,
    Text.Json.string.injEq, Text.Json.number.injEq, true_and, Int.natCast_inj] at h
  obtain ⟨hName, rfl, hValue⟩ := h
  -- The field of the value is there where there is a payload, whatever the payload is.
  have hPayload := congrArg List.head? (List.map_injective_iff.mpr hField hValue)
  rw [Option.head?_toList, Option.head?_toList] at hPayload
  obtain rfl := Token.eq_of_kindName_of_payload? hListed hOther hName hPayload
  rfl

theorem IndexedRecord.eq_of_toJson {indexed other : IndexedRecord} (hListed : indexed.record.Listed)
    (hOther : other.record.Listed) (h : indexed.toJson = other.toJson) : indexed = other := by
  obtain ⟨index, ⟨label, hLabel⟩, tokens⟩ := indexed
  obtain ⟨otherIndex, ⟨otherLabel, hOtherLabel⟩, others⟩ := other
  simp only [toJson, Text.Json.object.injEq, List.cons.injEq, Prod.mk.injEq, Text.Json.number.injEq,
    Text.Json.array.injEq, true_and, and_true, Int.natCast_inj] at h
  obtain ⟨rfl, rfl, hTokens⟩ := h
  obtain rfl := eq_of_map_eq (fun positioned hMember positioned' hMember' =>
    PositionedToken.eq_of_toJson (hListed positioned hMember) (hOther positioned' hMember')) hTokens
  rfl

/-- The JSON listing is a document of the array of the forms of the records, and of no other value. It
loses nothing: other records have another listing. -/
theorem OutputFormat.render_json {records others : List IndexedRecord}
    (hListed : ∀ indexed ∈ records, indexed.record.Listed) (hOthers : ∀ indexed ∈ others, indexed.record.Listed) :
    (∀ value, Text.Json.Document (OutputFormat.json.render records) value ↔
        value = .array (records.map IndexedRecord.toJson)) ∧
      (OutputFormat.json.render records = OutputFormat.json.render others ↔ records = others) := by
  refine ⟨fun value => Text.Json.document_render_iff, ?_, congrArg _⟩
  intro hSame
  have hItems := Text.Json.array.inj (Text.Json.render_injective hSame)
  exact eq_of_map_eq (fun indexed hMember indexed' hMember' =>
    IndexedRecord.eq_of_toJson (hListed indexed hMember) (hOthers indexed' hMember')) hItems

/-- Quotes, braces, a backslash and a line break in the texts, and an empty text against none. -/
theorem OutputFormat.render_json_braces :
    let quoted : PositionedToken := ⟨3, .stringLiteral "\\\x7d\n, \"value\": 0"⟩
    let records : List IndexedRecord := [⟨1, ⟨⟨10, by decide⟩, [quoted, ⟨9, .comment ""⟩]⟩⟩, ⟨4, ⟨⟨0, by decide⟩, []⟩⟩]
    let others : List IndexedRecord :=
      [⟨1, ⟨⟨10, by decide⟩, [quoted, ⟨9, .symbol .kwRem⟩]⟩⟩, ⟨4, ⟨⟨0, by decide⟩, []⟩⟩]
    (∀ indexed ∈ records, indexed.record.Listed) ∧ (∀ indexed ∈ others, indexed.record.Listed) ∧
      Text.Json.Document (OutputFormat.json.render records) (.array (records.map IndexedRecord.toJson)) ∧
      OutputFormat.json.render records ≠ OutputFormat.json.render others := by
  intro quoted records others
  have hListed : ∀ indexed ∈ records, indexed.record.Listed := by decide
  have hOthers : ∀ indexed ∈ others, indexed.record.Listed := by decide
  have hDifferent : records ≠ others := by decide
  obtain ⟨hDocument, hSame⟩ := OutputFormat.render_json hListed hOthers
  exact ⟨hListed, hOthers, (hDocument _).mpr rfl, fun h => hDifferent (hSame.mp h)⟩

end LineBasic
