import LineBasic.Text.Space

/-! # Cursors: a place in a line and the characters ahead of it

Moving a cursor drops characters from the front of what is ahead and adds their number to the
position; nothing else changes either.
-/
namespace LineBasic
set_option autoImplicit false

structure Cursor where
  position : Nat
  ahead : List Char
  deriving DecidableEq, Repr

namespace Cursor

def start (line : List Char) : Cursor := ⟨0, line⟩

def atEnd (c : Cursor) : Bool := c.ahead.isEmpty

def peek? (c : Cursor) : Option Char := c.ahead.head?

def advance? (c : Cursor) : Option (Char × Cursor) :=
  match c.ahead with
  | [] => none
  | first :: rest => some (first, ⟨c.position + 1, rest⟩)

/-- Past the character at the cursor; at the end there is nothing to pass. -/
def next (c : Cursor) : Cursor := ((c.advance?).map Prod.snd).getD c

def run (c : Cursor) (test : Char → Bool) : List Char := c.ahead.takeWhile test

def skip (c : Cursor) (test : Char → Bool) : Cursor :=
  ⟨c.position + (c.run test).length, c.ahead.dropWhile test⟩

def skipSpace (c : Cursor) : Cursor := c.skip Text.isSpace

def finish (c : Cursor) : Cursor := ⟨c.position + c.ahead.length, []⟩

theorem run_append_skip (c : Cursor) (test : Char → Bool) :
    c.run test ++ (c.skip test).ahead = c.ahead :=
  List.takeWhile_append_dropWhile

theorem advance?_length {c rest : Cursor} {first : Char} (h : c.advance? = some (first, rest)) :
    c.ahead.length = rest.ahead.length + 1 := by
  unfold advance? at h
  split at h
  · cases h
  · rename_i hAhead
    cases h
    rw [hAhead, List.length_cons]

theorem next_cons (position : Nat) (first : Char) (rest : List Char) :
    (mk position (first :: rest)).next = ⟨position + 1, rest⟩ := rfl

theorem next_length (c : Cursor) : c.next.ahead.length ≤ c.ahead.length := by
  cases h : c.advance? with
  | none => simp [next, h]
  | some step =>
    have := advance?_length h
    simp only [next, h, Option.map_some, Option.getD_some]
    omega

/-- A run goes as far as it can: the next character, if there is one, fails the test. -/
theorem exists_run_skip (c : Cursor) (test : Char → Bool) :
    ∃ inside after, c.ahead = inside ++ after ∧ c.run test = inside ∧
      c.skip test = ⟨c.position + inside.length, after⟩ ∧
      (∀ x ∈ inside, test x = true) ∧ ∀ x ∈ after.head?, test x = false := by
  refine ⟨c.run test, (c.skip test).ahead, (c.run_append_skip test).symm, rfl, rfl, ?_, ?_⟩
  · exact List.all_eq_true.mp List.all_takeWhile
  · intro x hx
    have hDrop := List.head?_dropWhile_not test c.ahead
    rw [skip] at hx
    rw [Option.mem_def.mp hx] at hDrop
    simpa using hDrop

/-- A run that can go no further is the longest one. -/
theorem run_skip_append {test : Char → Bool} {inside : List Char} (after : List Char) (position : Nat)
    (hInside : ∀ c ∈ inside, test c = true) (hAfter : ∀ c ∈ after.head?, test c = false) :
    (mk position (inside ++ after)).run test = inside ∧
      (mk position (inside ++ after)).skip test = ⟨position + inside.length, after⟩ := by
  have hStop : after.takeWhile test = [] ∧ after.dropWhile test = after := by
    cases after with
    | nil => exact ⟨rfl, rfl⟩
    | cons c rest => simp [hAfter c rfl]
  have hRun : (mk position (inside ++ after)).run test = inside := by
    rw [run, List.takeWhile_append_of_pos hInside, hStop.1, List.append_nil]
  refine ⟨hRun, ?_⟩
  rw [skip, hRun, List.dropWhile_append_of_pos hInside, hStop.2]

theorem skip_length (c : Cursor) (test : Char → Bool) :
    (c.skip test).ahead.length ≤ c.ahead.length :=
  (List.dropWhile_sublist test).length_le

end Cursor

end LineBasic
