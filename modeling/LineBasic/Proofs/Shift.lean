import LineBasic.Proofs.Refusal

/-! # The same text further on in a line

Reading looks at a position only to report it. A text read from `k` characters further on yields the same
tokens and the same faults, with all offsets `k` greater. Nor does it matter much what stands before the
text: whether that is a value decides about a minus sign at its start and about nothing else.
-/
namespace LineBasic
set_option autoImplicit false

namespace Cursor

def shift (k : Nat) (c : Cursor) : Cursor := ⟨c.position + k, c.ahead⟩

@[simp] theorem shift_ahead (k : Nat) (c : Cursor) : (c.shift k).ahead = c.ahead := rfl

@[simp] theorem shift_position (k : Nat) (c : Cursor) : (c.shift k).position = c.position + k := rfl

@[simp] theorem shift_atEnd (k : Nat) (c : Cursor) : (c.shift k).atEnd = c.atEnd := rfl

@[simp] theorem shift_run (k : Nat) (c : Cursor) (test : Char → Bool) : (c.shift k).run test = c.run test := rfl

@[simp] theorem shift_skip (k : Nat) (c : Cursor) (test : Char → Bool) :
    (c.shift k).skip test = (c.skip test).shift k := by
  rw [skip, shift_run, skip, shift, shift, Nat.add_right_comm]

@[simp] theorem shift_skipSpace (k : Nat) (c : Cursor) : (c.shift k).skipSpace = c.skipSpace.shift k :=
  c.shift_skip k Text.isSpace

@[simp] theorem shift_advance? (k : Nat) (c : Cursor) :
    (c.shift k).advance? = c.advance?.map fun step => (step.1, step.2.shift k) := by
  obtain ⟨position, ahead⟩ := c
  cases ahead with
  | nil => rfl
  | cons first rest => simp [advance?, shift, Nat.add_right_comm]

theorem shift_skipSpace_advance? (k : Nat) {c body : Cursor} {first : Char}
    (h : c.skipSpace.advance? = some (first, body)) :
    (c.shift k).skipSpace.advance? = some (first, body.shift k) := by
  simp [h]

@[simp] theorem shift_next (k : Nat) (c : Cursor) : (c.shift k).next = c.next.shift k := by
  rw [next, shift_advance?, next]
  cases c.advance? with
  | none => rfl
  | some step => rfl

@[simp] theorem shift_finish (k : Nat) (c : Cursor) : (c.shift k).finish = c.finish.shift k := by
  simp [finish, shift, Nat.add_right_comm]

end Cursor

def PositionedToken.shift (k : Nat) (positioned : PositionedToken) : PositionedToken :=
  ⟨positioned.offset + k, positioned.token⟩

def Fault.shift (k : Nat) : Fault → Fault
  | .unrecognizedToken offset text => .unrecognizedToken (offset + k) text
  | .unterminatedString offset => .unterminatedString (offset + k)
  | .missingLineNumber => .missingLineNumber
  | .invalidLineNumber text => .invalidLineNumber text

theorem Rejection.shift_faultAt (k offset : Nat) (rejection : Rejection) :
    (rejection.faultAt offset).shift k = rejection.faultAt (offset + k) := by
  cases rejection with
  | unrecognized | unterminated => rfl

namespace Lexeme

theorem shift_tokensAt (k offset : Nat) (lexeme : Lexeme) :
    (lexeme.tokensAt offset).map (PositionedToken.shift k) = lexeme.tokensAt (offset + k) := by
  cases lexeme with
  | single t => rfl
  | remark text => simp [tokensAt, PositionedToken.shift, Nat.add_right_comm]

/-- What was read, with the cursor behind it moved on. -/
def shiftRead (k : Nat) (result : Except Rejection (Lexeme × Cursor)) : Except Rejection (Lexeme × Cursor) :=
  result.map fun step => (step.1, step.2.shift k)

theorem shift_readString (k : Nat) (mode : Mode) (body : Cursor) :
    readString mode (body.shift k) = shiftRead k (readString mode body) := by
  simp only [readString, Cursor.shift_skip, Cursor.shift_atEnd, Cursor.shift_run, Cursor.shift_next]
  split <;> rfl

theorem shift_readWord (k : Nat) (first : Char) (body : Cursor) :
    readWord first (body.shift k) = shiftRead k (readWord first body) := by
  simp only [readWord, Cursor.shift_skip, Cursor.shift_run]
  split
  · rfl
  · simp [readRemark, shiftRead, Except.map]
  · rfl

theorem shift_read (k : Nat) (mode : Mode) (afterValue : Bool) (first : Char) (body : Cursor) :
    read mode afterValue first (body.shift k) = shiftRead k (read mode afterValue first body) := by
  unfold read
  split
  · exact shift_readString k mode body
  · split
    · rfl
    · split
      · rfl
      · exact shift_readWord k first body

theorem shift_read_eq_ok (k : Nat) {mode : Mode} {afterValue : Bool} {first : Char} {body rest : Cursor}
    {lexeme : Lexeme} (h : read mode afterValue first body = .ok (lexeme, rest)) :
    read mode afterValue first (body.shift k) = .ok (lexeme, rest.shift k) := by
  rw [shift_read, h]
  rfl

theorem shift_read_eq_error (k : Nat) {mode : Mode} {afterValue : Bool} {first : Char} {body : Cursor}
    {rejection : Rejection} (h : read mode afterValue first body = .error rejection) :
    read mode afterValue first (body.shift k) = .error rejection := by
  rw [shift_read, h]
  rfl

end Lexeme

/-- What was scanned, with all offsets greater. -/
def shiftScan (k : Nat) : Except Fault (List PositionedToken) → Except Fault (List PositionedToken)
  | .error fault => .error (fault.shift k)
  | .ok tokens => .ok (tokens.map (PositionedToken.shift k))

theorem scanTokens_shift (k : Nat) (mode : Mode) (afterValue : Bool) (c : Cursor) :
    scanTokens mode afterValue (c.shift k) = shiftScan k (scanTokens mode afterValue c) := by
  fun_induction scanTokens mode afterValue c with
  | case1 afterValue c hEnd =>
    apply scanTokens_of_end
    simp [hEnd]
  | case2 afterValue c first body hFirst rejection hRead =>
    rw [scanTokens_of_read_error (Cursor.shift_skipSpace_advance? k hFirst) (Lexeme.shift_read_eq_error k hRead),
      Cursor.shift_skipSpace, Cursor.shift_position, shiftScan, Rejection.shift_faultAt]
  | case3 afterValue c first body hFirst lexeme rest hRead fault hRest ih =>
    rw [scanTokens_of_read (Cursor.shift_skipSpace_advance? k hFirst) (Lexeme.shift_read_eq_ok k hRead), ih, hRest]
    rfl
  | case4 afterValue c first body hFirst lexeme rest hRead tokens hRest ih =>
    rw [scanTokens_of_read (Cursor.shift_skipSpace_advance? k hFirst) (Lexeme.shift_read_eq_ok k hRead), ih, hRest,
      shiftScan, shiftScan, List.map_append, Lexeme.shift_tokensAt, Cursor.shift_skipSpace, Cursor.shift_position]
    rfl

/-- A sign at the start of the tokens is binary if they stand right after a value. -/
def boundTokens : List PositionedToken → List PositionedToken
  | ⟨offset, .symbol .unaryMinus⟩ :: rest => ⟨offset, .symbol .minus⟩ :: rest
  | tokens => tokens

theorem boundTokens_cons_of_ne {positioned : PositionedToken} (rest : List PositionedToken)
    (h : positioned.token ≠ .symbol .unaryMinus) : boundTokens (positioned :: rest) = positioned :: rest := by
  unfold boundTokens
  split
  · rename_i hSign
    cases hSign
    exact False.elim (h rfl)
  · rfl

theorem Lexeme.Stands.ne_unaryMinus {mode : Mode} {afterValue : Bool} {t : Token} {first : Char}
    {tail after : List Char} (h : (Lexeme.single t).Stands mode afterValue (first :: tail) after)
    (hFirst : first ≠ '-') : t ≠ .symbol .unaryMinus := by
  have hMarks : ∀ entry ∈ markTable, Token.symbol entry.2 ≠ .symbol .unaryMinus := by decide
  have hWords : ∀ entry ∈ wordTable, Token.symbol entry.2 ≠ .symbol .unaryMinus := by decide
  cases h with
  | string | openString => nofun
  | minus => exact False.elim (hFirst rfl)
  | mark hMark => exact hMarks _ hMark
  | word hWord =>
    generalize first :: tail = word at hWord
    cases hWord with
    | number | signedNumber | identifier => nofun
    | symbol hEntry => exact hWords _ hEntry

theorem Lexeme.boundTokens_tokensAt {mode : Mode} {afterValue : Bool} {lexeme : Lexeme} {first : Char}
    {body rest : Cursor} (hRead : Lexeme.read mode afterValue first body = .ok (lexeme, rest)) (hFirst : first ≠ '-')
    (offset : Nat) (tokens : List PositionedToken) :
    boundTokens (lexeme.tokensAt offset ++ tokens) = lexeme.tokensAt offset ++ tokens := by
  cases lexeme with
  | single t =>
    obtain ⟨tail, -, -, hStands⟩ := stands_of_read hRead
    exact boundTokens_cons_of_ne tokens (hStands.ne_unaryMinus hFirst)
  | remark text => rfl

theorem Lexeme.read_afterValue {first : Char} (hFirst : first ≠ '-') (mode : Mode) (body : Cursor) :
    Lexeme.read mode true first body = Lexeme.read mode false first body := by
  rw [Lexeme.read, if_neg hFirst, Lexeme.read, if_neg hFirst]

/-- All that is carried over to a text from what stands before it. -/
theorem scanTokens_afterValue (mode : Mode) (c : Cursor) :
    scanTokens mode true c = (scanTokens mode false c).map boundTokens := by
  cases hFirst : c.skipSpace.advance? with
  | none =>
    rw [scanTokens_of_end hFirst, scanTokens_of_end hFirst]
    rfl
  | some step =>
    obtain ⟨first, body⟩ := step
    by_cases hMinus : first = '-'
    · subst hMinus
      have hRead (afterValue : Bool) : Lexeme.read mode afterValue '-' body =
          .ok (.single (.symbol (Lexeme.minusSymbol afterValue)), body) := rfl
      rw [scanTokens_of_read hFirst (hRead true), scanTokens_of_read hFirst (hRead false)]
      change (scanTokens mode false body).map _ = ((scanTokens mode false body).map _).map _
      cases scanTokens mode false body <;> rfl
    · have hSame := Lexeme.read_afterValue hMinus mode body
      cases hRead : Lexeme.read mode false first body with
      | error rejection =>
        rw [scanTokens_of_read_error hFirst hRead, scanTokens_of_read_error hFirst (hSame.trans hRead)]
        rfl
      | ok result =>
        obtain ⟨lexeme, rest⟩ := result
        rw [scanTokens_of_read hFirst hRead, scanTokens_of_read hFirst (hSame.trans hRead)]
        cases scanTokens mode lexeme.isValue rest with
        | error fault => rfl
        | ok tokens => exact congrArg Except.ok (Lexeme.boundTokens_tokensAt hRead hMinus _ tokens).symm

end LineBasic
