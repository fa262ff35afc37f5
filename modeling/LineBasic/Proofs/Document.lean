import LineBasic.Proofs.Quoted

/-! # JSON documents: which texts write a value, and that no text writes two

The grammar leaves free where whitespace stands, how characters are escaped and how deep rows are set
in. It has a rule for each sort of value that there is here: numbers are integers, and the words `true`,
`false` and `null` write no value.
-/
namespace LineBasic.Text
set_option autoImplicit false

/-- Nothing at the start of `rest` goes on with a run of this class. -/
def Ends (test : Char → Bool) (rest : List Char) : Prop := ∀ c ∈ rest.head?, test c = false

theorem run_unique {test : Char → Bool} {run other rest otherRest : List Char}
    (hRun : ∀ c ∈ run, test c = true) (hOther : ∀ c ∈ other, test c = true) (hRest : Ends test rest)
    (hOtherRest : Ends test otherRest) (h : run ++ rest = other ++ otherRest) :
    run = other ∧ rest = otherRest := by
  -- Had one of the runs more characters, the first of them would go on with the other run.
  rcases List.append_eq_append_iff.mp h with ⟨more, rfl, rfl⟩ | ⟨more, rfl, rfl⟩
  · cases more with
    | nil => exact ⟨(List.append_nil run).symm, rfl⟩
    | cons c more =>
      have hGoesOn := hOther c (List.mem_append_right run List.mem_cons_self)
      cases hGoesOn.symm.trans (hRest c rfl)
  · cases more with
    | nil => exact ⟨List.append_nil other, rfl⟩
    | cons c more =>
      have hGoesOn := hRun c (List.mem_append_right other List.mem_cons_self)
      cases hGoesOn.symm.trans (hOtherRest c rfl)

theorem ends_cons {test : Char → Bool} {c : Char} (rest : List Char) (h : test c = false) : Ends test (c :: rest) := by
  intro x hx
  cases hx
  exact h

namespace Json

def isGap (c : Char) : Bool := c == ' ' || c == '\n' || c == '\r' || c == '\t'

def IsGap (gap : List Char) : Prop := ∀ c ∈ gap, isGap c = true

/-- An integer has no leading zero; zero may be written with a sign. -/
inductive IntegerForm : Int → List Char → List Char → Prop
  | natural {digits : List Char} {n : Nat} {rest : List Char} (hDigits : Numeral digits n)
      (hZero : digits.head? = some '0' → digits = ['0']) : IntegerForm n (digits ++ rest) rest
  | negative {digits : List Char} {n : Nat} {rest : List Char} (hDigits : Numeral digits n)
      (hZero : digits.head? = some '0' → digits = ['0']) : IntegerForm (-n) ('-' :: (digits ++ rest)) rest

/-- One entry or more, with commas between them, up to the closing bracket. -/
inductive Series {α : Type} (Form : α → List Char → List Char → Prop) (close : Char) :
    List α → List Char → List Char → Prop
  | last {a : α} {before text after rest : List Char} (hBefore : IsGap before)
      (hForm : Form a text (after ++ close :: rest)) (hAfter : IsGap after) :
      Series Form close [a] (before ++ text) rest
  | next {a : α} {entries : List α} {before text after more rest : List Char} (hBefore : IsGap before)
      (hForm : Form a text (after ++ ',' :: more)) (hAfter : IsGap after)
      (hRest : Series Form close entries more rest) : Series Form close (a :: entries) (before ++ text) rest

inductive Enclosed {α : Type} (Form : α → List Char → List Char → Prop) (close : Char) :
    List α → List Char → List Char → Prop
  | empty {gap rest : List Char} (hGap : IsGap gap) : Enclosed Form close [] (gap ++ close :: rest) rest
  | series {entries : List α} {text rest : List Char} (hSeries : Series Form close entries text rest) :
      Enclosed Form close entries text rest

inductive Field {α : Type} (Form : α → List Char → List Char → Prop) : String × α → List Char → List Char → Prop
  | colon {key : String} {value : α} {text before after more rest : List Char}
      (hKey : Quoted key text (before ++ ':' :: (after ++ more))) (hBefore : IsGap before) (hAfter : IsGap after)
      (hForm : Form value more rest) : Field Form (key, value) text rest

inductive Value : Json → List Char → List Char → Prop
  | string {value : String} {text rest : List Char} (hForm : Quoted value text rest) :
      Value (.string value) text rest
  | number {value : Int} {text rest : List Char} (hForm : IntegerForm value text rest) :
      Value (.number value) text rest
  | array {items : List Json} {text rest : List Char} (hItems : Enclosed Value ']' items text rest) :
      Value (.array items) ('[' :: text) rest
  | object {fields : List (String × Json)} {text rest : List Char}
      (hFields : Enclosed (Field Value) '}' fields text rest) : Value (.object fields) ('{' :: text) rest

/-- A text is a document of a value if there is only whitespace around a form of it. -/
inductive Document : String → Json → Prop
  | form {text : String} {value : Json} {before body after : List Char} (hText : text.toList = before ++ body)
      (hBefore : IsGap before) (hValue : Value value body after) (hAfter : IsGap after) : Document text value

/-- Where a text starts with a form of `a`, it starts with a form of nothing else, and the form ends in
one place, as long as no digit follows it. -/
structure Sharp {α : Type} (Form : α → List Char → List Char → Prop) (a : α) : Prop where
  unique : ∀ {b : α} {text rest otherRest : List Char}, Form a text rest → Form b text otherRest →
    Ends Char.isDigit rest → Ends Char.isDigit otherRest → a = b ∧ rest = otherRest

/-- A form starts with no whitespace and with no closing bracket. -/
def Opens {α : Type} (Form : α → List Char → List Char → Prop) : Prop :=
  ∀ {a : α} {text rest : List Char}, Form a text rest →
    ∃ first tail, text = first :: tail ∧ isGap first = false ∧ first ≠ ']' ∧ first ≠ '}'

theorem isDigit_of_isGap {c : Char} (h : isGap c = true) : c.isDigit = false := by
  simp only [isGap, Bool.or_eq_true, beq_iff_eq] at h
  rcases h with ((rfl | rfl) | rfl) | rfl <;> rfl

theorem ends_gap {gap : List Char} {c : Char} (rest : List Char) (hGap : IsGap gap) (hChar : c.isDigit = false) :
    Ends Char.isDigit (gap ++ c :: rest) := by
  cases gap with
  | nil => exact ends_cons rest hChar
  | cons first gap => exact ends_cons _ (isDigit_of_isGap (hGap first List.mem_cons_self))

theorem gap_unique {gap other rest otherRest : List Char} {c d : Char} (hGap : IsGap gap) (hOther : IsGap other)
    (hFirst : isGap c = false) (hOtherFirst : isGap d = false) (h : gap ++ c :: rest = other ++ d :: otherRest) :
    c = d ∧ rest = otherRest :=
  List.cons_eq_cons.mp (run_unique hGap hOther (ends_cons rest hFirst) (ends_cons otherRest hOtherFirst) h).2

section Series

variable {α : Type} {Form : α → List Char → List Char → Prop} {close : Char}

theorem Opens.text_unique (hOpens : Opens Form) {a b : α} {gap other text otherText rest otherRest : List Char}
    (hForm : Form a text rest) (hOtherForm : Form b otherText otherRest) (hGap : IsGap gap) (hOther : IsGap other)
    (h : gap ++ text = other ++ otherText) : text = otherText := by
  obtain ⟨first, tail, rfl, hFirst, -⟩ := hOpens hForm
  obtain ⟨otherFirst, otherTail, rfl, hOtherFirst, -⟩ := hOpens hOtherForm
  obtain ⟨rfl, rfl⟩ := gap_unique hGap hOther hFirst hOtherFirst h
  rfl

theorem Series.exists_first (hOpens : Opens Form) {entries : List α} {text rest : List Char}
    (h : Series Form close entries text rest) :
    ∃ gap first tail, text = gap ++ first :: tail ∧ IsGap gap ∧ isGap first = false ∧ first ≠ ']' ∧ first ≠ '}' := by
  cases h with
  | last hBefore hForm | next hBefore hForm =>
    obtain ⟨first, tail, rfl, hFirst⟩ := hOpens hForm
    exact ⟨_, first, tail, rfl, hBefore, hFirst⟩

theorem Opens.entry_unique (hOpens : Opens Form) {a b : α} {c d : Char}
    {before other text otherText after otherAfter rest otherRest : List Char} (hSharp : Sharp Form a)
    (hForm : Form a text (after ++ c :: rest)) (hOtherForm : Form b otherText (otherAfter ++ d :: otherRest))
    (hBefore : IsGap before) (hOther : IsGap other) (hAfter : IsGap after) (hOtherAfter : IsGap otherAfter)
    (hMark : isGap c = false ∧ c.isDigit = false) (hOtherMark : isGap d = false ∧ d.isDigit = false)
    (h : before ++ text = other ++ otherText) : a = b ∧ c = d ∧ rest = otherRest := by
  obtain rfl := hOpens.text_unique hForm hOtherForm hBefore hOther h
  obtain ⟨rfl, hRest⟩ := hSharp.unique hForm hOtherForm (ends_gap rest hAfter hMark.2)
    (ends_gap otherRest hOtherAfter hOtherMark.2)
  exact ⟨rfl, gap_unique hAfter hOtherAfter hMark.1 hOtherMark.1 hRest⟩

theorem Series.unique (hOpens : Opens Form) (hClose : close = ']' ∨ close = '}') {entries : List α}
    (hSharp : ∀ a ∈ entries, Sharp Form a) {others : List α} {text rest otherRest : List Char}
    (h : Series Form close entries text rest) (hOther : Series Form close others text otherRest) :
    entries = others ∧ rest = otherRest := by
  have hMark : isGap close = false ∧ close.isDigit = false := by rcases hClose with rfl | rfl <;> decide
  have hComma : isGap ',' = false ∧ ','.isDigit = false := by decide
  have hDiffer : close ≠ ',' := by rcases hClose with rfl | rfl <;> decide
  generalize hText : text = otherText at hOther
  induction h generalizing others otherText with
  | last hBefore hForm hAfter =>
    have hFirst := hSharp _ List.mem_cons_self
    cases hOther with
    | last hBefore' hForm' hAfter' =>
      obtain ⟨rfl, -, rfl⟩ := hOpens.entry_unique hFirst hForm hForm' hBefore hBefore' hAfter hAfter' hMark hMark hText
      exact ⟨rfl, rfl⟩
    | next hBefore' hForm' hAfter' =>
      obtain ⟨-, hSame, -⟩ :=
        hOpens.entry_unique hFirst hForm hForm' hBefore hBefore' hAfter hAfter' hMark hComma hText
      exact False.elim (hDiffer hSame)
  | next hBefore hForm hAfter _ ih =>
    have hFirst := hSharp _ List.mem_cons_self
    cases hOther with
    | last hBefore' hForm' hAfter' =>
      obtain ⟨-, hSame, -⟩ :=
        hOpens.entry_unique hFirst hForm hForm' hBefore hBefore' hAfter hAfter' hComma hMark hText
      exact False.elim (hDiffer hSame.symm)
    | next hBefore' hForm' hAfter' hRest' =>
      obtain ⟨rfl, -, rfl⟩ :=
        hOpens.entry_unique hFirst hForm hForm' hBefore hBefore' hAfter hAfter' hComma hComma hText
      obtain ⟨rfl, rfl⟩ := ih (fun b hb => hSharp b (List.mem_cons_of_mem _ hb)) _ rfl hRest'
      exact ⟨rfl, rfl⟩

theorem Enclosed.unique (hOpens : Opens Form) (hClose : close = ']' ∨ close = '}') {entries : List α}
    (hSharp : ∀ a ∈ entries, Sharp Form a) {others : List α} {text rest otherRest : List Char}
    (h : Enclosed Form close entries text rest) (hOther : Enclosed Form close others text otherRest) :
    entries = others ∧ rest = otherRest := by
  have hStop : isGap close = false := by rcases hClose with rfl | rfl <;> rfl
  -- An entry starts with no closing bracket, so brackets with whitespace between them hold no entries.
  have hNone {gap tail stop : List Char} {bs : List α} (hGap : IsGap gap) :
      ¬ Series Form close bs (gap ++ close :: tail) stop := by
    intro hSeries
    obtain ⟨before, first, more, hText, hBefore, hFirst, hBracket, hBrace⟩ := hSeries.exists_first hOpens
    obtain ⟨rfl, -⟩ := gap_unique hGap hBefore hStop hFirst hText
    rcases hClose with rfl | rfl
    · exact hBracket rfl
    · exact hBrace rfl
  generalize hText : text = otherText at hOther
  cases h with
  | empty hGap =>
    cases hOther with
    | empty hGap' => exact ⟨rfl, (gap_unique hGap hGap' hStop hStop hText).2⟩
    | series hSeries => exact False.elim (hNone hGap (hText ▸ hSeries))
  | series hSeries =>
    cases hOther with
    | empty hGap => exact False.elim (hNone hGap (hText ▸ hSeries))
    | series hSeries' => exact hSeries.unique hOpens hClose hSharp (hText ▸ hSeries')

end Series

variable {text rest otherRest : List Char}

theorem Quoted.exists_first {value : String} (h : Quoted value text rest) : ∃ tail, text = '"' :: tail := by
  cases h with
  | body => exact ⟨_, rfl⟩

theorem IntegerForm.exists_first {value : Int} (h : IntegerForm value text rest) :
    ∃ first tail, text = first :: tail ∧ (first = '-' ∨ first.isDigit = true) := by
  cases h with
  | natural hDigits =>
    obtain ⟨first, tail, rfl, hFirst⟩ := hDigits.exists_cons
    exact ⟨first, _, rfl, .inr hFirst⟩
  | negative => exact ⟨'-', _, rfl, .inl rfl⟩

theorem not_integerForm {value : Int} {first : Char} {tail : List Char} (hMinus : first ≠ '-')
    (hDigit : first.isDigit = false) : ¬ IntegerForm value (first :: tail) rest := by
  intro h
  obtain ⟨_, _, hText, rfl | hFirst⟩ := h.exists_first
  · exact hMinus (List.cons.inj hText).1
  · rw [← (List.cons.inj hText).1, hDigit] at hFirst
    cases hFirst

theorem digits_unique {digits others : List Char} {m n : Nat} (hDigits : Numeral digits m)
    (hOthers : Numeral others n) (hRest : Ends Char.isDigit rest) (hOtherRest : Ends Char.isDigit otherRest)
    (h : digits ++ rest = others ++ otherRest) : m = n ∧ rest = otherRest := by
  obtain ⟨rfl, rfl⟩ := run_unique hDigits.isDigit hOthers.isDigit hRest hOtherRest h
  exact ⟨hDigits.value.symm.trans hOthers.value, rfl⟩

theorem not_numeral_minus {digits tail : List Char} {n : Nat} (h : Numeral digits n) :
    digits ++ rest ≠ '-' :: tail := by
  obtain ⟨first, more, rfl, hFirst⟩ := h.exists_cons
  intro hText
  cases hText
  cases hFirst

theorem integerForm_sharp (value : Int) : Sharp IntegerForm value := by
  constructor
  intro other text rest otherRest h hOther hRest hOtherRest
  generalize hText : text = otherText at hOther
  cases h with
  | natural hDigits =>
    cases hOther with
    | natural hDigits' =>
      obtain ⟨rfl, rfl⟩ := digits_unique hDigits hDigits' hRest hOtherRest hText
      exact ⟨rfl, rfl⟩
    | negative => exact False.elim (not_numeral_minus hDigits hText)
  | negative hDigits =>
    cases hOther with
    | natural hDigits' => exact False.elim (not_numeral_minus hDigits' hText.symm)
    | negative hDigits' =>
      obtain ⟨rfl, rfl⟩ := digits_unique hDigits hDigits' hRest hOtherRest (List.cons_inj_right '-' |>.mp hText)
      exact ⟨rfl, rfl⟩

theorem value_opens : Opens Value := by
  intro value text rest h
  cases h with
  | string hForm =>
    obtain ⟨tail, rfl⟩ := hForm.exists_first
    exact ⟨'"', tail, rfl, by decide⟩
  | number hForm =>
    obtain ⟨first, tail, rfl, rfl | hDigit⟩ := hForm.exists_first
    · exact ⟨'-', tail, rfl, by decide⟩
    · have hOther {c : Char} (h : c.isDigit = false) : first ≠ c := by
        rintro rfl
        cases h.symm.trans hDigit
      refine ⟨first, tail, rfl, ?_, hOther rfl, hOther rfl⟩
      rw [Bool.eq_false_iff]
      intro hGap
      cases hDigit.symm.trans (isDigit_of_isGap hGap)
  | array => exact ⟨'[', _, rfl, by decide⟩
  | object => exact ⟨'{', _, rfl, by decide⟩

theorem field_opens {α : Type} (Form : α → List Char → List Char → Prop) : Opens (Field Form) := by
  intro entry text rest h
  cases h with
  | colon hKey =>
    obtain ⟨tail, rfl⟩ := hKey.exists_first
    exact ⟨'"', tail, rfl, by decide⟩

theorem Sharp.field {α : Type} {Form : α → List Char → List Char → Prop} (hOpens : Opens Form) (key : String) {value : α}
    (h : Sharp Form value) : Sharp (Field Form) (key, value) := by
  constructor
  intro other text rest otherRest hForm hOther hRest hOtherRest
  cases hForm with
  | colon hKey hBefore hAfter hValue =>
    cases hOther with
    | colon hKey' hBefore' hAfter' hValue' =>
      obtain ⟨rfl, hColon⟩ := hKey.unique hKey'
      obtain ⟨-, hMore⟩ := gap_unique hBefore hBefore' rfl rfl hColon
      obtain rfl := hOpens.text_unique hValue hValue' hAfter hAfter' hMore
      obtain ⟨rfl, rfl⟩ := h.unique hValue hValue' hRest hOtherRest
      exact ⟨rfl, rfl⟩

theorem induction {motive : Json → Prop} (string : ∀ value, motive (.string value))
    (number : ∀ value, motive (.number value)) (array : ∀ items, (∀ item ∈ items, motive item) → motive (.array items))
    (object : ∀ fields, (∀ field ∈ fields, motive field.2) → motive (.object fields)) (value : Json) : motive value := by
  cases value with
  | string value => exact string value
  | number value => exact number value
  | array items => exact array items fun item _ => induction string number array object item
  | object fields => exact object fields fun field _ => induction string number array object field.2
termination_by sizeOf value
decreasing_by
  · have hItem := List.sizeOf_lt_of_mem ‹item ∈ items›
    rw [Json.array.sizeOf_spec]
    omega
  · have hField := List.sizeOf_lt_of_mem ‹field ∈ fields›
    have hEntry : sizeOf field = 1 + sizeOf field.1 + sizeOf field.2 := Prod.mk.sizeOf_spec field.1 field.2
    rw [Json.object.sizeOf_spec]
    omega

theorem value_sharp (value : Json) : Sharp Value value := by
  induction value using Json.induction with
  | string value =>
    constructor
    intro other text rest otherRest h hOther _ _
    cases h with
    | string hForm =>
      obtain ⟨tail, rfl⟩ := hForm.exists_first
      cases hOther with
      | string hForm' =>
        obtain ⟨rfl, rfl⟩ := hForm.unique hForm'
        exact ⟨rfl, rfl⟩
      | number hForm' => exact False.elim (not_integerForm (by decide) rfl hForm')
  | number value =>
    constructor
    intro other text rest otherRest h hOther hRest hOtherRest
    cases h with
    | number hForm =>
      cases hOther with
      | string hForm' =>
        obtain ⟨tail, rfl⟩ := hForm'.exists_first
        exact False.elim (not_integerForm (by decide) rfl hForm)
      | number hForm' =>
        obtain ⟨rfl, rfl⟩ := (integerForm_sharp _).unique hForm hForm' hRest hOtherRest
        exact ⟨rfl, rfl⟩
      | array | object => exact False.elim (not_integerForm (by decide) rfl hForm)
  | array items ih =>
    constructor
    intro other text rest otherRest h hOther _ _
    cases h with
    | array hItems =>
      cases hOther with
      | string hForm' => cases hForm'
      | number hForm' => exact False.elim (not_integerForm (by decide) rfl hForm')
      | array hItems' =>
        obtain ⟨rfl, rfl⟩ := hItems.unique value_opens (.inl rfl) ih hItems'
        exact ⟨rfl, rfl⟩
  | object fields ih =>
    constructor
    intro other text rest otherRest h hOther _ _
    have hSharp : ∀ field ∈ fields, Sharp (Field Value) field := fun field hField =>
      (ih field hField).field value_opens field.1
    cases h with
    | object hFields =>
      cases hOther with
      | string hForm' => cases hForm'
      | number hForm' => exact False.elim (not_integerForm (by decide) rfl hForm')
      | object hFields' =>
        obtain ⟨rfl, rfl⟩ := hFields.unique (field_opens Value) (.inr rfl) hSharp hFields'
        exact ⟨rfl, rfl⟩

/-- A text is a document of one value at most. -/
theorem Document.unique {text : String} {value other : Json} (h : Document text value)
    (hOther : Document text other) : value = other := by
  obtain ⟨hText, hBefore, hValue, hAfter⟩ := h
  obtain ⟨hText', hBefore', hValue', hAfter'⟩ := hOther
  obtain rfl := value_opens.text_unique hValue hValue' hBefore hBefore' (hText.symm.trans hText')
  have hEnds {gap : List Char} (hGap : IsGap gap) : Ends Char.isDigit gap := fun c hc =>
    isDigit_of_isGap (hGap c (List.mem_of_mem_head? hc))
  exact ((value_sharp value).unique hValue hValue' (hEnds hAfter) (hEnds hAfter')).1

end Json
end LineBasic.Text
