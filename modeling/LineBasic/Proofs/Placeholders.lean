import LineBasic.Proofs.Interpolation

/-! # Placeholders: where they stand in a message, and what filling them in makes of it

No two placeholders overlap, so that a message is in one way only a row of placeholders with literal text
around them. Filling in the message is filling in the row.
-/
namespace LineBasic.Text
set_option autoImplicit false

/-- What stands between the braces of a placeholder. -/
@[ext] structure Key where
  chars : List Char
  nonempty : chars ≠ []
  isAlphanum : ∀ c ∈ chars, c.isAlphanum = true ∨ c = '_'

/-- A row of placeholders, with literal text before each and after the last. -/
inductive Alternation where
  | last (literal : List Char)
  | next (literal : List Char) (key : Key) (rest : Alternation)

def Key.placeholder (key : Key) : List Char := '{' :: (key.chars ++ ['}'])

/-- What stands for the placeholder once it is filled in; without a value it stays as it is. -/
def Key.filled (args : Args) (key : Key) : List Char :=
  match args.lookup (String.ofList key.chars) with
  | some value => value.display.toList
  | none => key.placeholder

def PlaceholderAt (text : List Char) (start : Nat) (key : Key) : Prop := key.placeholder <+: text.drop start

namespace Alternation

def source : Alternation → List Char
  | last literal => literal
  | next literal key rest => literal ++ (key.placeholder ++ rest.source)

def filled (args : Args) : Alternation → List Char
  | last literal => literal
  | next literal key rest => literal ++ (key.filled args ++ rest.filled args)

/-- The placeholder is one of the row, and this is where it starts. -/
inductive Lists : Alternation → Nat → Key → Prop
  | here {literal : List Char} {key : Key} {rest : Alternation} : Lists (next literal key rest) literal.length key
  | later {literal : List Char} {key other : Key} {rest : Alternation} {start : Nat} (h : Lists rest start other) :
      Lists (next literal key rest) (literal.length + key.placeholder.length + start) other

/-- No placeholder of the text is taken for literal text, not even in part. -/
structure Analyses (a : Alternation) (text : List Char) : Prop where
  source : a.source = text
  complete : ∀ start key, PlaceholderAt text start key → a.Lists start key

end Alternation

/-- Every placeholder of the message is filled in, once and independently of all others. -/
structure FilledOnce (message : String) : Prop where
  analysis : ∃ a : Alternation, a.Analyses message.toList ∧ (∀ b : Alternation, b.Analyses message.toList → b = a) ∧
    ∀ args : Args, interpolate message args.value? = String.ofList (a.filled args)
  apart : ∀ i j key other, PlaceholderAt message.toList i key → PlaceholderAt message.toList j other → i ≤ j →
    (i = j ∧ key = other) ∨ i + key.placeholder.length ≤ j
  append : ∀ other : String, (∀ start key, PlaceholderAt (message ++ other).toList start key →
    start < message.length → start + key.placeholder.length ≤ message.length) →
      ∀ args : Args, interpolate (message ++ other) args.value? =
        interpolate message args.value? ++ interpolate other args.value?

theorem Key.isKeyChar (key : Key) : ∀ c ∈ key.chars, isKeyChar c = true := by
  intro c hc
  rw [Text.isKeyChar, Bool.or_eq_true, beq_iff_eq]
  exact key.isAlphanum c hc

theorem Key.brace_notMem (key : Key) : '{' ∉ key.chars ++ ['}'] := by
  intro hMem
  rcases List.mem_append.mp hMem with hMem | hMem
  · cases key.isKeyChar '{' hMem
  · simp at hMem

theorem Key.placeholder_length (key : Key) : key.placeholder.length = key.chars.length + 2 := by
  simp [placeholder]

theorem Key.placeholder_append (key : Key) (after : List Char) :
    key.placeholder ++ after = '{' :: (key.chars ++ '}' :: after) := by
  simp [placeholder]

theorem Key.opening? (key : Key) (after : List Char) :
    Template.opening? '{' (key.chars ++ '}' :: after) = some (key.chars, after) :=
  Template.placeholder?_append after key.nonempty key.isKeyChar

/-- The keys of the two definitions are the same. -/
theorem exists_key_of_opening? {c : Char} {rest chars after : List Char}
    (h : Template.opening? c rest = some (chars, after)) :
    ∃ key : Key, key.chars = chars ∧ c :: rest = key.placeholder ++ after := by
  obtain ⟨rfl, rfl⟩ := Template.eq_of_opening? h
  have hKey : chars ≠ [] ∧ ∀ c ∈ chars, isKeyChar c = true := by
    rw [Template.opening?, if_pos rfl, Template.placeholder?] at h
    split at h
    · rename_i first chars _ hRun _
      cases h
      have hAll := @List.all_takeWhile _ isKeyChar (first :: chars ++ '}' :: after)
      rw [hRun, List.all_eq_true] at hAll
      exact ⟨List.cons_ne_nil first chars, hAll⟩
    · cases h
  have hChars : ∀ c ∈ chars, c.isAlphanum = true ∨ c = '_' := by
    intro c hc
    have hChar := hKey.2 c hc
    rwa [isKeyChar, Bool.or_eq_true, beq_iff_eq] at hChar
  let key : Key := ⟨chars, hKey.1, hChars⟩
  exact ⟨key, rfl, (key.placeholder_append after).symm⟩

namespace PlaceholderAt

variable {text : List Char} {start : Nat} {key other : Key}

theorem getElem? (h : PlaceholderAt text start key) : text[start]? = some '{' := by
  obtain ⟨after, hText⟩ := h
  rw [← List.head?_drop, ← hText, Key.placeholder_append, List.head?_cons]

theorem append_iff (before : List Char) :
    PlaceholderAt (before ++ text) (before.length + start) key ↔ PlaceholderAt text start key := by
  rw [PlaceholderAt, List.drop_length_add_append, PlaceholderAt]

theorem exists_opening? {c : Char} {rest : List Char} (h : PlaceholderAt (c :: rest) 0 key) :
    ∃ after, Template.opening? c rest = some (key.chars, after) := by
  obtain ⟨after, hText⟩ := h
  rw [Key.placeholder_append, List.drop_zero] at hText
  cases hText
  exact ⟨after, key.opening? after⟩

theorem unique (h : PlaceholderAt text start key) (hOther : PlaceholderAt text start other) : key = other := by
  obtain ⟨after, hText⟩ := h
  have hHere : PlaceholderAt ('{' :: (key.chars ++ '}' :: after)) 0 other := by
    rw [← Key.placeholder_append, hText]
    exact hOther
  obtain ⟨otherAfter, hOpening⟩ := hHere.exists_opening?
  rw [key.opening? after] at hOpening
  exact Key.ext (Prod.mk.inj (Option.some.inj hOpening)).1

/-- Behind its first character a placeholder has no brace that could open another. -/
theorem not_inside {offset : Nat} (after : List Char) (hPos : 0 < offset)
    (hInside : offset < key.placeholder.length) : ¬ PlaceholderAt (key.placeholder ++ after) offset other := by
  intro h
  obtain ⟨place, rfl⟩ := Nat.exists_eq_succ_of_ne_zero (Nat.pos_iff_ne_zero.mp hPos)
  have hBrace := h.getElem?
  rw [List.getElem?_append_left hInside, Key.placeholder, List.getElem?_cons_succ] at hBrace
  exact key.brace_notMem (List.mem_of_getElem? hBrace)

theorem apart {i j : Nat} (h : PlaceholderAt text i key) (hOther : PlaceholderAt text j other) (hLe : i ≤ j) :
    (i = j ∧ key = other) ∨ i + key.placeholder.length ≤ j := by
  obtain ⟨offset, rfl⟩ := Nat.exists_eq_add_of_le hLe
  rcases Nat.eq_zero_or_pos offset with rfl | hPos
  · exact .inl ⟨rfl, h.unique hOther⟩
  · obtain ⟨after, hText⟩ := h
    have hHere : PlaceholderAt (key.placeholder ++ after) offset other := by
      rw [PlaceholderAt, hText, List.drop_drop]
      exact hOther
    refine .inr (Nat.add_le_add_left ?_ i)
    apply Nat.le_of_not_lt
    intro hInside
    exact not_inside after hPos hInside hHere

end PlaceholderAt

namespace Alternation

theorem lists_next_iff {literal : List Char} {key other : Key} {rest : Alternation} {start : Nat} :
    (next literal key rest).Lists start other ↔
      (start = literal.length ∧ other = key) ∨
        ∃ later, start = literal.length + key.placeholder.length + later ∧ rest.Lists later other := by
  constructor
  · intro h
    cases h with
    | here => exact .inl ⟨rfl, rfl⟩
    | later h => exact .inr ⟨_, rfl, h⟩
  · rintro (⟨rfl, rfl⟩ | ⟨later, rfl, h⟩)
    · exact .here
    · exact .later h

/-- The row with one more literal character at its start. -/
def push (c : Char) : Alternation → Alternation
  | last literal => last (c :: literal)
  | next literal key rest => next (c :: literal) key rest

theorem source_push (c : Char) (a : Alternation) : (a.push c).source = c :: a.source := by
  cases a <;> rfl

theorem Lists.push {a : Alternation} {start : Nat} {key : Key} (h : a.Lists start key) (c : Char) :
    (a.push c).Lists (start + 1) key := by
  cases h with
  | here => exact .here
  | @later literal key other rest start h =>
    refine lists_next_iff.mpr (.inr ⟨start, ?_, h⟩)
    rw [List.length_cons]
    omega

theorem exists_analyses (text : List Char) : ∃ a : Alternation, a.Analyses text := by
  fun_induction Template.parse text with
  | case1 =>
    refine ⟨last [], rfl, ?_⟩
    intro start key h
    cases h.getElem?
  | case2 c rest chars after hOpening ih =>
    obtain ⟨key, -, hText⟩ := exists_key_of_opening? hOpening
    obtain ⟨a, hSource, hComplete⟩ := ih
    rw [hText]
    refine ⟨next [] key a, ?source, ?complete⟩
    case source => rw [source, hSource, List.nil_append]
    case complete =>
      intro start other h
      have hFirst : PlaceholderAt (key.placeholder ++ after) 0 key := List.prefix_append _ _
      rcases hFirst.apart h (Nat.zero_le start) with ⟨rfl, rfl⟩ | hLe
      · exact .here
      · obtain ⟨later, rfl⟩ := Nat.exists_eq_add_of_le hLe
        rw [Nat.zero_add, PlaceholderAt.append_iff] at h
        exact lists_next_iff.mpr (.inr ⟨later, by simp, hComplete later other h⟩)
  | case3 c rest hOpening ih =>
    obtain ⟨a, hSource, hComplete⟩ := ih
    refine ⟨a.push c, ?source, ?complete⟩
    case source => rw [source_push, hSource]
    case complete =>
      intro start key h
      cases start with
      | zero =>
        obtain ⟨after, hSome⟩ := h.exists_opening?
        cases hOpening.symm.trans hSome
      | succ start => exact (hComplete start key h).push c

def template : Alternation → Template
  | last literal => literal.map .literal
  | next literal key rest => literal.map .literal ++ .placeholder key.chars :: rest.template

/-- Literal text goes on up to the next placeholder. -/
theorem map_literal_append_inj {first second : List Char} {a b : Template}
    (ha : ∀ c, a.head? ≠ some (.literal c)) (hb : ∀ c, b.head? ≠ some (.literal c))
    (h : first.map .literal ++ a = second.map .literal ++ b) : first = second ∧ a = b := by
  induction first generalizing second with
  | nil =>
    cases second with
    | nil => exact ⟨rfl, h⟩
    | cons x second => exact False.elim (ha x (congrArg List.head? h))
  | cons c first ih =>
    cases second with
    | nil => exact False.elim (hb c (congrArg List.head? h.symm))
    | cons x second =>
      obtain ⟨hFirst, hRest⟩ := List.cons.inj h
      obtain ⟨rfl, hTail⟩ := ih hRest
      cases hFirst
      exact ⟨rfl, hTail⟩

theorem template_inj {a b : Alternation} (h : a.template = b.template) : a = b := by
  have hNone (c : Char) : ([] : Template).head? ≠ some (.literal c) := nofun
  have hSome (key : List Char) (rest : Template) (c : Char) :
      (Template.Piece.placeholder key :: rest).head? ≠ some (.literal c) := nofun
  induction a generalizing b with
  | last literal =>
    rw [template, ← List.append_nil (literal.map _)] at h
    cases b with
    | last other =>
      rw [template, ← List.append_nil (other.map _)] at h
      exact congrArg last (map_literal_append_inj hNone hNone h).1
    | next => cases (map_literal_append_inj hNone (hSome _ _) h).2
  | next literal key rest ih =>
    cases b with
    | last other =>
      rw [template, template, ← List.append_nil (other.map _)] at h
      cases (map_literal_append_inj (hSome _ _) hNone h).2
    | next other otherKey otherRest =>
      obtain ⟨rfl, hTail⟩ := map_literal_append_inj (hSome _ _) (hSome _ _) h
      obtain ⟨hKey, hRest⟩ := List.cons.inj hTail
      rw [ih hRest, Key.ext (Template.Piece.placeholder.inj hKey)]

end Alternation

/-- Text in which no placeholder starts is literal. -/
theorem parse_literal_append {before rest : List Char}
    (h : ∀ start key, PlaceholderAt (before ++ rest) start key → before.length ≤ start) :
    Template.parse (before ++ rest) = before.map .literal ++ Template.parse rest := by
  induction before with
  | nil => rfl
  | cons c before ih =>
    have hOpening : Template.opening? c (before ++ rest) = none := by
      rw [Option.eq_none_iff_forall_ne_some]
      rintro ⟨chars, after⟩ hSome
      obtain ⟨key, -, hText⟩ := exists_key_of_opening? hSome
      have hHere : PlaceholderAt (c :: before ++ rest) 0 key := ⟨after, hText.symm⟩
      cases h 0 key hHere
    have hLater : ∀ start key, PlaceholderAt (before ++ rest) start key → before.length ≤ start :=
      fun start key hThere => Nat.le_of_succ_le_succ (h (start + 1) key hThere)
    rw [List.cons_append, Template.parse_of_opening?_eq_none hOpening, ih hLater]
    rfl

theorem parse_placeholder_append (key : Key) (rest : List Char) :
    Template.parse (key.placeholder ++ rest) = .placeholder key.chars :: Template.parse rest := by
  rw [key.placeholder_append, Template.parse_of_opening?_eq_some (key.opening? rest)]

theorem Alternation.Analyses.parse {a : Alternation} {text : List Char} (h : a.Analyses text) :
    Template.parse text = a.template := by
  obtain ⟨rfl, hComplete⟩ := h
  induction a with
  | last literal =>
    have hParse := @parse_literal_append literal []
    rw [List.append_nil, Template.parse, List.append_nil] at hParse
    apply hParse
    intro start key hHere
    cases hComplete start key hHere
  | next literal key rest ih =>
    have hLiteral : ∀ start other, PlaceholderAt (literal ++ (key.placeholder ++ rest.source)) start other →
        literal.length ≤ start := by
      intro start other hHere
      rcases lists_next_iff.mp (hComplete start other hHere) with ⟨rfl, -⟩ | ⟨later, rfl, -⟩ <;> omega
    -- Further on than the first placeholder it is only the rest of the row that can list one.
    have hRest : ∀ start other, PlaceholderAt rest.source start other → rest.Lists start other := by
      intro start other hHere
      rw [← PlaceholderAt.append_iff key.placeholder, ← PlaceholderAt.append_iff literal] at hHere
      have hLength := key.placeholder_length
      rcases lists_next_iff.mp (hComplete _ other hHere) with ⟨hStart, -⟩ | ⟨later, hStart, hLater⟩
      · omega
      · obtain rfl : start = later := by omega
        exact hLater
    rw [Alternation.source, parse_literal_append hLiteral, parse_placeholder_append, ih hRest, template]

theorem Alternation.fill_template (args : Args) (a : Alternation) :
    a.template.fill args.value? = a.filled args := by
  have hPlaceholder (key : Key) : Template.Piece.fill args.value? (.placeholder key.chars) = key.filled args := by
    rw [Template.Piece.fill, Args.value?, Key.filled]
    cases args.lookup (String.ofList key.chars) <;> rfl
  induction a with
  | last literal =>
    have hFill := Template.fill_literals args.value? literal []
    rw [List.append_nil] at hFill
    exact hFill.trans (List.append_nil literal)
  | next literal key rest ih =>
    rw [template, Template.fill_literals, Template.fill, List.flatMap_cons, hPlaceholder, filled, ← ih, Template.fill]

/-- Where no placeholder goes over the end of the first text, the two are taken apart each on its own. -/
theorem parse_append {text rest : List Char}
    (h : ∀ start key, PlaceholderAt (text ++ rest) start key → start < text.length →
      start + key.placeholder.length ≤ text.length) :
    Template.parse (text ++ rest) = Template.parse text ++ Template.parse rest := by
  fun_induction Template.parse text with
  | case1 => rfl
  | case2 c tail chars after hOpening ih =>
    obtain ⟨key, rfl, hText⟩ := exists_key_of_opening? hOpening
    have hAfter : ∀ start other, PlaceholderAt (after ++ rest) start other → start < after.length →
        start + other.placeholder.length ≤ after.length := by
      intro start other hHere hStart
      have hWhole := h (key.placeholder.length + start) other
      rw [hText, List.append_assoc, PlaceholderAt.append_iff, List.length_append] at hWhole
      have hEnd := hWhole hHere (by omega)
      omega
    rw [hText, List.append_assoc, parse_placeholder_append, ih hAfter]
    rfl
  | case3 c tail hOpening ih =>
    have hTail : ∀ start key, PlaceholderAt (tail ++ rest) start key → start < tail.length →
        start + key.placeholder.length ≤ tail.length := by
      intro start key hHere hStart
      have hEnd := h (start + 1) key hHere (Nat.succ_lt_succ hStart)
      rw [List.length_cons] at hEnd
      omega
    -- What the longer text opens here ends within the first text, so that the first text would open it too.
    have hLonger : Template.opening? c (tail ++ rest) = none := by
      rw [Option.eq_none_iff_forall_ne_some]
      rintro ⟨chars, after⟩ hSome
      obtain ⟨key, -, hText⟩ := exists_key_of_opening? hSome
      have hPrefix : key.placeholder <+: c :: (tail ++ rest) := ⟨after, hText.symm⟩
      have hEnd := h 0 key hPrefix (Nat.zero_lt_succ _)
      rw [Nat.zero_add] at hEnd
      have hHere : PlaceholderAt (c :: tail) 0 key :=
        List.prefix_of_prefix_length_le hPrefix (List.prefix_append (c :: tail) rest) hEnd
      obtain ⟨_, hOther⟩ := hHere.exists_opening?
      cases hOpening.symm.trans hOther
    rw [List.cons_append, Template.parse_of_opening?_eq_none hLonger, ih hTail]
    rfl

theorem filledOnce (message : String) : FilledOnce message where
  analysis := by
    obtain ⟨a, h⟩ := Alternation.exists_analyses message.toList
    refine ⟨a, h, ?unique, ?filled⟩
    case unique => exact fun b hOther => Alternation.template_inj (hOther.parse.symm.trans h.parse)
    case filled =>
      intro args
      rw [interpolate, h.parse, a.fill_template]
  apart _ _ _ _ h hOther hLe := h.apart hOther hLe
  append other h args := by
    rw [String.toList_append, ← String.length_toList] at h
    rw [interpolate, String.toList_append, parse_append h, Template.fill, List.flatMap_append, String.ofList_append]
    rfl

/-- Doubled braces, cut between those that close; an open brace at the very end. -/
theorem filledOnce_braces :
    let message := "\x7b\x7ba\x7d"
    let other := "\x7d\x7bb"
    (∀ start key, PlaceholderAt (message ++ other).toList start key →
      start < message.length → start + key.placeholder.length ≤ message.length) ∧
    ∀ args : Args, interpolate (message ++ other) args.value? =
      interpolate message args.value? ++ interpolate other args.value? := by
  intro message other
  have hApart : ∀ start key, PlaceholderAt (message ++ other).toList start key →
      start < message.length → start + key.placeholder.length ≤ message.length := by
    intro start key h hStart
    have hText : (message ++ other).toList = ['{', '{', 'a', '}', '}', '{', 'b'] := by decide
    have hLength : message.length = 4 := by decide
    rw [hText] at h
    rw [hLength] at hStart ⊢
    match start, hStart with
    | 0, _ =>
      obtain ⟨after, hOpening⟩ := h.exists_opening?
      cases hOpening
    | 1, _ =>
      have hHere : PlaceholderAt ['{', 'a', '}', '}', '{', 'b'] 0 key := h
      obtain ⟨after, hOpening⟩ := hHere.exists_opening?
      have hKey : ['a'] = key.chars := congrArg Prod.fst (Option.some.inj hOpening)
      rw [key.placeholder_length, ← hKey]
      decide
    | 2, _ | 3, _ => cases h.getElem?
  exact ⟨hApart, (filledOnce message).append other hApart⟩

end LineBasic.Text
