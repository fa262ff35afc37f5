import LineBasic.Scanner

/-! # Consumption: a scanner passes every character of its line once, in order

What is ahead of a scanner is its line from its position on; every action keeps this, wherever the scanner was
put. So an action can be told by positions of the line alone, and as long as none sets the position, what the
actions take, put together, is the line up to the position.
-/
namespace LineBasic
set_option autoImplicit false

namespace Scanner

def between (chars : List Char) (start stop : Nat) : List Char := (chars.take stop).drop start

/-- From a position on, all that passes the test is passed, up to the end of the line or the first that fails. -/
structure Runs (test : Char → Bool) (chars : List Char) (start stop : Nat) : Prop where
  forward : start ≤ stop
  inside : stop ≤ max start chars.length
  passes : ∀ c ∈ between chars start stop, test c = true
  stops : ∀ c ∈ chars[stop]?, test c = false

/-- What an action at a position of a line answers, and the position that it leads to. -/
inductive Does (chars : List Char) (start : Nat) : Action → Observation → Nat → Prop
  | peek : Does chars start .peek (.char chars[start]?) start
  | askEnd : Does chars start .askEnd (.flag (decide (chars.length ≤ start))) start
  | advance {c : Char} (hChar : chars[start]? = some c) : Does chars start .advance (.char (some c)) (start + 1)
  | stay (hEnd : chars.length ≤ start) : Does chars start .advance (.char none) start
  | skipSpace {stop : Nat} (hRun : Runs Text.isSpace chars start stop) : Does chars start .skipSpace .nothing stop
  | takeWhile {test : Char → Bool} {stop : Nat} (hRun : Runs test chars start stop) :
      Does chars start (.takeWhile test) (.text (String.ofList (between chars start stop))) stop
  | rest : Does chars start .rest (.text (String.ofList (chars.drop start))) chars.length
  | seek {stop : Nat} : Does chars start (.seek stop) .nothing stop

def Action.isForward : Action → Bool
  | .seek _ => false
  | _ => true

def Observation.chars : Observation → List Char
  | .nothing | .flag _ => []
  | .char value => value.toList
  | .text value => value.toList

/-- What an action takes from the line: its answer if it moves on, or else what it skips. -/
def taken (s : Scanner) (action : Action) : List Char :=
  match action with
  | .peek | .askEnd | .seek _ => []
  | .skipSpace => between s.line s.position s.skipSpace.position
  | .advance | .takeWhile _ | .rest => (s.perform action).1.chars

/-- The scanner as a sequence of actions leaves it. -/
def after (s : Scanner) (actions : List Action) : Scanner := ((s.trace actions).getLast?.map Prod.snd).getD s

def pieces (s : Scanner) : List Action → List (List Char)
  | [] => []
  | action :: actions => s.taken action :: pieces (s.perform action).2 actions

/-- Where a scanner stands, each action does what is told of it, and a character is missing at the end only. -/
structure Obeys (chars : List Char) (s : Scanner) : Prop where
  does : ∀ action, Does chars s.position action (s.perform action).1 (s.perform action).2.position
  peek_iff : s.peek? = none ↔ s.atEnd = true

/-- An action goes forward in the line, and it passes what it takes. -/
structure Moves (chars : List Char) (s : Scanner) (action : Action) : Prop where
  forward : s.position ≤ (s.perform action).2.position
  inside : (s.perform action).2.position ≤ chars.length
  taken : s.taken action = between chars s.position (s.perform action).2.position

/-- A sequence of actions on a line, with each action told from where those before it have led. -/
structure Consumes (line : String) (actions : List Action) : Prop where
  steps : ∀ before rest, actions = before ++ rest →
    (ofLine line).trace actions = (ofLine line).trace before ++ ((ofLine line).after before).trace rest
  moves : ∀ before action rest, actions = before ++ action :: rest →
    Moves line.toList ((ofLine line).after before) action
  forward : ((ofLine line).trace actions).Pairwise fun earlier later => earlier.2.position ≤ later.2.position
  inside : ∀ step ∈ (ofLine line).trace actions, step.2.position ≤ line.length
  whole : ((ofLine line).pieces actions).flatten = line.toList.take ((ofLine line).after actions).position

/-- Nothing is ahead: no action answers anything or moves, and only `rest` sets the position back. -/
structure Exhausted (s : Scanner) : Prop where
  peek : s.perform .peek = (.char none, s)
  advance : s.perform .advance = (.char none, s)
  skipSpace : s.perform .skipSpace = (.nothing, s)
  takeWhile : ∀ test, s.perform (.takeWhile test) = (.text "", s)
  rest : s.perform .rest = (.text "", s.seek s.length)

def Aligned (s : Scanner) : Prop := s.cursor.ahead = s.line.drop s.position

theorem between_add (chars : List Char) (start n : Nat) : between chars start (start + n) = (chars.drop start).take n := by
  rw [between, List.drop_take, Nat.add_sub_cancel_left]

theorem between_self (chars : List Char) (start : Nat) : between chars start start = [] := by
  rw [between, List.drop_eq_nil_iff]
  exact List.length_take_le start chars

theorem between_length (chars : List Char) (start : Nat) : between chars start chars.length = chars.drop start := by
  rw [between, List.take_length]

theorem take_append_between (chars : List Char) {start stop : Nat} (h : start ≤ stop) :
    chars.take start ++ between chars start stop = chars.take stop := by
  obtain ⟨n, rfl⟩ := Nat.exists_eq_add_of_le h
  rw [between_add, List.take_add]

theorem Runs.le_length {test : Char → Bool} {chars : List Char} {start stop : Nat} (h : Runs test chars start stop)
    (hInside : start ≤ chars.length) : stop ≤ chars.length := by
  have hLimit := h.inside
  omega

theorem runs_of_ahead {chars : List Char} {c : Cursor} (h : c.ahead = chars.drop c.position) (test : Char → Bool) :
    Runs test chars c.position (c.skip test).position ∧ c.run test = between chars c.position (c.skip test).position ∧
      (c.skip test).ahead = chars.drop (c.skip test).position := by
  obtain ⟨inside, rest, hAhead, hRun, hSkip, hInside, hRest⟩ := c.exists_run_skip test
  rw [hSkip, hRun]
  dsimp only
  have hDrop : chars.drop c.position = inside ++ rest := h.symm.trans hAhead
  have hBetween : between chars c.position (c.position + inside.length) = inside := by
    rw [between_add, hDrop, List.take_left]
  have hBehind : chars.drop (c.position + inside.length) = rest := by
    rw [← List.drop_drop, hDrop, List.drop_left]
  refine ⟨⟨Nat.le_add_right _ _, ?inside, ?passes, ?stops⟩, hBetween.symm, hBehind.symm⟩
  case inside =>
    have hLength := congrArg List.length hDrop
    rw [List.length_drop, List.length_append] at hLength
    omega
  case passes =>
    rw [hBetween]
    exact hInside
  case stops =>
    rw [← List.head?_drop, hBehind]
    exact hRest

theorem aligned_ofLine (line : String) : (ofLine line).Aligned := rfl

theorem perform_line (s : Scanner) (action : Action) : (s.perform action).2.line = s.line := by
  cases action <;> rfl

theorem Aligned.peek?_eq {s : Scanner} (h : s.Aligned) : s.peek? = s.line[s.position]? := by
  rw [peek?, Cursor.peek?, h, List.head?_drop]

theorem Aligned.atEnd_eq {s : Scanner} (h : s.Aligned) : s.atEnd = decide (s.line.length ≤ s.position) := by
  rw [atEnd, Cursor.atEnd, h, Bool.eq_iff_iff, List.isEmpty_iff, decide_eq_true_iff, List.drop_eq_nil_iff]

theorem Aligned.advance_of_end {s : Scanner} (h : s.Aligned) (hEnd : s.length ≤ s.position) : s.advance = (none, s) := by
  have hNone : s.cursor.ahead = [] := h.trans (List.drop_eq_nil_iff.mpr hEnd)
  simp [Scanner.advance, peek?, Cursor.peek?, Cursor.next, Cursor.advance?, hNone]

theorem Aligned.advance_of_char {s : Scanner} (h : s.Aligned) {c : Char} (hChar : s.line[s.position]? = some c) :
    s.advance = (some c, s.seek (s.position + 1)) := by
  have hAhead : s.cursor.ahead = c :: s.line.drop (s.position + 1) := by
    obtain ⟨hLess, rfl⟩ := List.getElem?_eq_some_iff.mp hChar
    exact h.trans (List.drop_eq_getElem_cons hLess)
  simp [Scanner.advance, peek?, Cursor.peek?, Cursor.next, Cursor.advance?, hAhead, seek, position]

/-- The step: wherever the scanner stands, an action does what is told of it by positions alone. -/
theorem Aligned.perform {s : Scanner} (h : s.Aligned) (action : Action) :
    Does s.line s.position action (s.perform action).1 (s.perform action).2.position ∧
      (s.perform action).2.Aligned := by
  cases action with
  | peek =>
    refine ⟨?_, h⟩
    rw [Scanner.perform, h.peek?_eq]
    exact .peek
  | advance =>
    rw [Scanner.perform]
    cases hChar : s.line[s.position]? with
    | none =>
      have hEnd := List.getElem?_eq_none_iff.mp hChar
      rw [h.advance_of_end hEnd]
      exact ⟨.stay hEnd, h⟩
    | some c =>
      rw [h.advance_of_char hChar]
      exact ⟨.advance hChar, rfl⟩
  | askEnd =>
    refine ⟨?_, h⟩
    rw [Scanner.perform, h.atEnd_eq]
    exact .askEnd
  | skipSpace =>
    obtain ⟨hRuns, -, hAhead⟩ := runs_of_ahead h Text.isSpace
    exact ⟨.skipSpace hRuns, hAhead⟩
  | takeWhile test =>
    obtain ⟨hRuns, hRun, hAhead⟩ := runs_of_ahead h test
    refine ⟨?_, hAhead⟩
    have hDoes : Does s.line s.position (.takeWhile test) _ _ := .takeWhile hRuns
    rwa [position, ← hRun] at hDoes
  | rest =>
    constructor
    · rw [Scanner.perform, Scanner.rest, h]
      exact .rest
    · exact List.drop_length.symm
  | seek position => exact ⟨.seek, rfl⟩

theorem Aligned.exhausted {s : Scanner} (h : s.Aligned) (hEnd : s.length ≤ s.position) : s.Exhausted := by
  have hNone : s.cursor.ahead = [] := h.trans (List.drop_eq_nil_iff.mpr hEnd)
  have hSkip (test : Char → Bool) : s.cursor.skip test = s.cursor := by
    obtain ⟨line, ⟨position, ahead⟩⟩ := s
    obtain rfl : ahead = [] := hNone
    rfl
  refine ⟨?peek, ?advance, ?skipSpace, ?takeWhile, ?rest⟩
  case peek => rw [Scanner.perform, peek?, Cursor.peek?, hNone, List.head?_nil]
  case advance => rw [Scanner.perform, h.advance_of_end hEnd]
  case skipSpace => rw [Scanner.perform, Scanner.skipSpace, Cursor.skipSpace, hSkip]
  case takeWhile =>
    intro test
    rw [Scanner.perform, Scanner.takeWhile, hSkip, Cursor.run, hNone, List.takeWhile_nil, String.ofList_nil]
  case rest =>
    rw [Scanner.perform, Scanner.rest, hNone, seek, length, List.drop_length, String.ofList_nil]

structure On (chars : List Char) (s : Scanner) : Prop where
  line_eq : s.line = chars
  aligned : s.Aligned
  inside : s.position ≤ chars.length

theorem on_ofLine (line : String) : On line.toList (ofLine line) := ⟨rfl, rfl, Nat.zero_le _⟩

theorem On.moves {chars : List Char} {s : Scanner} (h : On chars s) {action : Action} (hForward : action.isForward = true) :
    Moves chars s action := by
  obtain ⟨rfl, hAligned, hInside⟩ := h
  cases action with
  | peek | askEnd => exact ⟨Nat.le_refl _, hInside, (between_self _ _).symm⟩
  | advance =>
    cases hChar : s.line[s.position]? with
    | none =>
      have hStays := hAligned.advance_of_end (List.getElem?_eq_none_iff.mp hChar)
      have hPosition : (s.perform .advance).2.position = s.position := congrArg (fun step => step.2.position) hStays
      refine ⟨?_, ?_, ?_⟩
      · omega
      · omega
      · rw [hPosition, between_self, taken, Scanner.perform, hStays]
        rfl
    | some c =>
      obtain ⟨hLess, hGet⟩ := List.getElem?_eq_some_iff.mp hChar
      have hAdvance := hAligned.advance_of_char hChar
      have hPosition : (s.perform .advance).2.position = s.position + 1 :=
        congrArg (fun step => step.2.position) hAdvance
      refine ⟨?_, ?_, ?_⟩
      · omega
      · omega
      · rw [hPosition, between_add, List.drop_eq_getElem_cons hLess, hGet, taken, Scanner.perform, hAdvance]
        rfl
  | skipSpace =>
    obtain ⟨hRuns, -, -⟩ := runs_of_ahead hAligned Text.isSpace
    exact ⟨hRuns.forward, hRuns.le_length hInside, rfl⟩
  | takeWhile test =>
    obtain ⟨hRuns, hRun, -⟩ := runs_of_ahead hAligned test
    exact ⟨hRuns.forward, hRuns.le_length hInside, String.toList_ofList.trans hRun⟩
  | rest =>
    refine ⟨hInside, Nat.le_refl _, ?_⟩
    rw [taken, Scanner.perform, Scanner.rest, Observation.chars, String.toList_ofList, hAligned]
    exact (between_length s.line s.position).symm
  | seek position => cases hForward

theorem On.perform {chars : List Char} {s : Scanner} (h : On chars s) {action : Action}
    (hForward : action.isForward = true) : On chars (s.perform action).2 :=
  ⟨(s.perform_line action).trans h.line_eq, (h.aligned.perform action).2, (h.moves hForward).inside⟩

theorem after_cons (s : Scanner) (action : Action) (actions : List Action) :
    s.after (action :: actions) = (s.perform action).2.after actions := by
  rw [after, trace, List.getLast?_cons, after]
  cases ((s.perform action).2.trace actions).getLast? <;> rfl

theorem after_line (s : Scanner) (actions : List Action) : (s.after actions).line = s.line := by
  induction actions generalizing s with
  | nil => rfl
  | cons action actions ih => rw [after_cons, ih, perform_line]

theorem trace_append (s : Scanner) (before rest : List Action) :
    s.trace (before ++ rest) = s.trace before ++ (s.after before).trace rest := by
  induction before generalizing s with
  | nil => rfl
  | cons action before ih => rw [List.cons_append, trace, ih, trace, after_cons, List.cons_append]

theorem Aligned.after {s : Scanner} (h : s.Aligned) (actions : List Action) : (s.after actions).Aligned := by
  induction actions generalizing s with
  | nil => exact h
  | cons action actions ih =>
    rw [after_cons]
    exact ih (h.perform action).2

section

variable {chars : List Char} {s : Scanner} {actions : List Action}

/-- The run: what one action keeps, a sequence of them keeps. -/
theorem On.after (h : On chars s) (hForward : ∀ action ∈ actions, action.isForward = true) :
    On chars (s.after actions) := by
  induction actions generalizing s with
  | nil => exact h
  | cons action actions ih =>
    obtain ⟨hFirst, hRest⟩ := List.forall_mem_cons.mp hForward
    rw [after_cons]
    exact ih (h.perform hFirst) hRest

theorem On.position_of_mem_trace (h : On chars s) (hForward : ∀ action ∈ actions, action.isForward = true) :
    ∀ step ∈ s.trace actions, s.position ≤ step.2.position ∧ step.2.position ≤ chars.length := by
  induction actions generalizing s with
  | nil => nofun
  | cons action actions ih =>
    obtain ⟨hFirst, hRest⟩ := List.forall_mem_cons.mp hForward
    have hMoves := h.moves hFirst
    rw [trace, List.forall_mem_cons]
    refine ⟨⟨hMoves.forward, hMoves.inside⟩, ?_⟩
    intro step hStep
    obtain ⟨hFrom, hTo⟩ := ih (h.perform hFirst) hRest step hStep
    exact ⟨Nat.le_trans hMoves.forward hFrom, hTo⟩

theorem On.pairwise_trace (h : On chars s) (hForward : ∀ action ∈ actions, action.isForward = true) :
    (s.trace actions).Pairwise fun earlier later => earlier.2.position ≤ later.2.position := by
  induction actions generalizing s with
  | nil => exact .nil
  | cons action actions ih =>
    obtain ⟨hFirst, hRest⟩ := List.forall_mem_cons.mp hForward
    have hNext := h.perform hFirst
    refine .cons ?_ (ih hNext hRest)
    intro step hStep
    exact (hNext.position_of_mem_trace hRest step hStep).1

theorem On.flatten_pieces (h : On chars s) (hForward : ∀ action ∈ actions, action.isForward = true) :
    chars.take s.position ++ (s.pieces actions).flatten = chars.take (s.after actions).position := by
  -- A piece ends where the next action starts, so nothing is left out between two of them.
  induction actions generalizing s with
  | nil => exact List.append_nil _
  | cons action actions ih =>
    obtain ⟨hFirst, hRest⟩ := List.forall_mem_cons.mp hForward
    have hMoves := h.moves hFirst
    rw [pieces, List.flatten_cons, hMoves.taken, ← List.append_assoc, take_append_between chars hMoves.forward,
      ih (h.perform hFirst) hRest, after_cons]

end

theorem consumes_of_isForward (line : String) {actions : List Action}
    (hForward : ∀ action ∈ actions, action.isForward = true) : Consumes line actions := by
  have hStart := on_ofLine line
  refine ⟨?steps, ?moves, hStart.pairwise_trace hForward, ?inside, ?whole⟩
  case steps =>
    rintro before rest rfl
    exact trace_append _ before rest
  case moves =>
    rintro before action rest rfl
    obtain ⟨hBefore, hAction⟩ := List.forall_mem_append.mp hForward
    exact (hStart.after hBefore).moves (hAction action List.mem_cons_self)
  case inside =>
    intro step hStep
    rw [← String.length_toList]
    exact (hStart.position_of_mem_trace hForward step hStep).2
  case whole =>
    have hWhole := hStart.flatten_pieces hForward
    rwa [position, ofLine, Cursor.start, List.take_zero, List.nil_append] at hWhole

/-- Whatever has been done with a scanner, its actions are those of its position. If they all went forward from
the start, they took the line up to it; put past the end, the scanner finds nothing there. -/
theorem consumes (line : String) (actions : List Action) :
    Obeys line.toList ((ofLine line).after actions) ∧
    ((∀ action ∈ actions, action.isForward = true) → Consumes line actions) ∧
    ∀ position, line.length ≤ position → Exhausted (((ofLine line).after actions).seek position) := by
  have hLine : ((ofLine line).after actions).line = line.toList := after_line _ actions
  have hAligned : ((ofLine line).after actions).Aligned := (aligned_ofLine line).after actions
  refine ⟨⟨?does, ?peek⟩, consumes_of_isForward line, ?past⟩
  case does =>
    intro action
    rw [← hLine]
    exact (hAligned.perform action).1
  case peek =>
    rw [hAligned.peek?_eq, hAligned.atEnd_eq, decide_eq_true_iff]
    exact List.getElem?_eq_none_iff
  case past =>
    -- Wherever a scanner is put, its line from there on is ahead of it, so the actions before do not matter.
    intro position hPast
    have hPut : (((ofLine line).after actions).seek position).Aligned := rfl
    apply hPut.exhausted
    change (((ofLine line).after actions).line).length ≤ position
    rwa [hLine, String.length_toList]

/-- Characters beyond the first plane, a run that is empty, and a position that is set back before it is set past
the end. -/
theorem consumes_marks :
    let line := "10 \"A😀\"\t)"
    let actions : List Action := [.takeWhile Char.isDigit, .skipSpace, .advance, .takeWhile (· != '"'), .peek, .advance,
      .takeWhile Char.isDigit, .rest, .advance, .askEnd]
    let moved := (ofLine line).after [.rest, .seek 3]
    (∀ action ∈ actions, action.isForward = true) ∧ Consumes line actions ∧
      (ofLine line).pieces actions = [['1', '0'], [' '], ['"'], ['A', '😀'], [], ['"'], [], ['\t', ')'], [], []] ∧
      line.length ≤ 12 ∧ Exhausted (moved.seek 12) := by
  intro line actions moved
  have hForward : ∀ action ∈ actions, action.isForward = true := by decide
  have hLength : line.length ≤ 12 := by decide
  exact ⟨hForward, (consumes line actions).2.1 hForward, by decide, hLength, (consumes line _).2.2 12 hLength⟩

end Scanner

end LineBasic
