import ScriptCheck.Source.Gap
import ScriptCheck.SyntaxError
import ScriptCheck.Text.Utf8

/-!
# Cursors

A `Cursor text` is a place in `text`, together with the line it is on and the terminal read last.
It only moves forward, byte by byte (`bump`), and every longer movement is made of such steps, so
the line counters stay right.  The bytes still to come are kept beside the position.

Reading a terminal (`expect`, `skipWord?`) also passes over the gap behind it.  A read that fails
gives no cursor, so whoever asked still has the old one.
-/

namespace ScriptCheck.Source

/-- A stretch of a text. -/
structure Span where
  start : Nat
  length : Nat
  deriving DecidableEq, Repr

namespace Span

/-- The place right behind the stretch. -/
def stop (s : Span) : Nat := s.start + s.length

/-- The bytes of the stretch in `text`. -/
def bytes (s : Span) (text : List UInt8) : List UInt8 := (text.drop s.start).take s.length

end Span

/-- A place in `text`. -/
structure Cursor (text : List UInt8) where
  /-- The number of bytes before the place. -/
  position : Nat
  /-- The bytes from the place on. -/
  rest : List UInt8
  /-- The number of the line, from one. -/
  line : Nat
  /-- The position where that line starts. -/
  lineStart : Nat
  /-- The name or number read last. -/
  token : Span
  rest_eq : rest = text.drop position
  position_le : position ≤ text.length

namespace Cursor

variable {text : List UInt8}

/-- The start of `text`. -/
def start (text : List UInt8) : Cursor text where
  position := 0
  rest := text
  line := 1
  lineStart := 0
  token := ⟨0, 0⟩
  rest_eq := rfl
  position_le := Nat.zero_le _

/-! ## Looking -/

/-- The byte at the place, if the text goes on. -/
def peek? (c : Cursor text) : Option UInt8 := c.rest.head?

/-- Whether `b` is the byte at the place. -/
def isAt (c : Cursor text) (b : UInt8) : Bool := c.peek? == some b

/-- Whether nothing follows. -/
def atEnd (c : Cursor text) : Bool := c.rest.isEmpty

/-- The column of the place, from one, in bytes. -/
def column (c : Cursor text) : Nat := c.position - c.lineStart + 1

/-- The terminal read last, as text; empty if it is no text. -/
def tokenText (c : Cursor text) : String :=
  (Text.Utf8.decode? (c.token.bytes text)).getD ""

/-- How many bytes an error quotes. -/
def snippetLength : Nat := 10

/-- The error of cause `cause` at the place. -/
def error (c : Cursor text) (cause : Cause) : SyntaxError where
  cause := cause
  offset := c.position
  line := c.line
  column := c.column
  snippet := Text.Utf8.lossy (c.rest.take snippetLength)

/-! ## Moving -/

theorem drop_succ_of_rest {c : Cursor text} {b : UInt8} {bs : List UInt8} (h : c.rest = b :: bs) :
    bs = text.drop (c.position + 1) := by
  rw [← List.tail_drop, ← c.rest_eq, h, List.tail_cons]

theorem position_lt_of_rest {c : Cursor text} {b : UInt8} {bs : List UInt8} (h : c.rest = b :: bs) :
    c.position < text.length := by
  have := congrArg List.length (c.rest_eq.symm.trans h)
  simp only [List.length_drop, List.length_cons] at this
  omega

/-- Moves over one byte, if there is one. -/
def bump (c : Cursor text) : Cursor text :=
  match h : c.rest with
  | [] => c
  | b :: bs =>
    { position := c.position + 1
      rest := bs
      line := if b = lineFeed then c.line + 1 else c.line
      lineStart := if b = lineFeed then c.position + 1 else c.lineStart
      token := c.token
      rest_eq := drop_succ_of_rest h
      position_le := position_lt_of_rest h }

/-- Moves over `n` bytes, or to the end. -/
def advance : Nat → Cursor text → Cursor text
  | 0, c => c
  | n + 1, c => advance n c.bump

/-- Moves over the gap at the place. -/
def skipGap (c : Cursor text) : Cursor text := c.advance (gapLength c.rest)

/-- Notes the stretch from `start` to the place as the terminal read last. -/
def setToken (c : Cursor text) (start : Nat) : Cursor text :=
  { c with token := ⟨start, c.position - start⟩ }

/-! ## Reading terminals -/

/-- Moves over the byte `b` and the gap behind it. -/
def expect (c : Cursor text) (b : UInt8) : Except SyntaxError (Cursor text) :=
  if c.isAt b then .ok c.bump.skipGap
  else .error (c.error (.expected (Char.ofNat b.toNat)))

/-- Moves over `word` and the gap behind it, if the text goes on with `word`.  What follows the
word does not matter. -/
def skipWord? (c : Cursor text) (word : List UInt8) : Option (Cursor text) :=
  if word.isPrefixOf c.rest then some (c.advance word.length).skipGap else none

/-- Moves over the `n` bytes of a name or number, notes them, and moves over the gap behind. -/
def takeToken (c : Cursor text) (n : Nat) : Cursor text :=
  ((c.advance n).setToken c.position).skipGap

/-! ## What moving changes -/

theorem bump_of_nil {c : Cursor text} (h : c.rest = []) : c.bump = c := by
  unfold bump
  split
  · rfl
  · simp_all

@[simp] theorem rest_bump (c : Cursor text) : c.bump.rest = c.rest.tail := by
  unfold bump
  split <;> simp_all

@[simp] theorem token_bump (c : Cursor text) : c.bump.token = c.token := by
  unfold bump
  split <;> rfl

theorem position_bump (c : Cursor text) : c.bump.position = min (c.position + 1) text.length := by
  have hle := c.position_le
  unfold bump
  split
  · rename_i h
    have : text.length ≤ c.position := by simpa [c.rest_eq] using h
    omega
  · rename_i h
    have := position_lt_of_rest h
    show c.position + 1 = _
    omega

@[simp] theorem rest_advance (n : Nat) (c : Cursor text) : (c.advance n).rest = c.rest.drop n := by
  induction n generalizing c with
  | zero => rfl
  | succ n ih => rw [advance, ih, rest_bump, List.drop_tail]

@[simp] theorem token_advance (n : Nat) (c : Cursor text) : (c.advance n).token = c.token := by
  induction n generalizing c with
  | zero => rfl
  | succ n ih => rw [advance, ih, token_bump]

theorem position_advance (n : Nat) (c : Cursor text) :
    (c.advance n).position = min (c.position + n) text.length := by
  induction n generalizing c with
  | zero => have := c.position_le; simp only [advance]; omega
  | succ n ih => rw [advance, ih, position_bump]; omega

theorem length_rest (c : Cursor text) : c.rest.length = text.length - c.position := by
  rw [c.rest_eq, List.length_drop]

theorem atEnd_iff (c : Cursor text) : c.atEnd = true ↔ c.position = text.length := by
  have := c.position_le
  rw [atEnd, List.isEmpty_iff_length_eq_zero, length_rest]
  omega

/-- The cursor passes over the whole gap, so skipping once more does nothing. -/
@[simp] theorem skipGap_skipGap (c : Cursor text) : c.skipGap.skipGap = c.skipGap := by
  rw [skipGap.eq_def c.skipGap]
  simp only [skipGap, rest_advance, gapLength_drop_gapLength, advance]

end Cursor

end ScriptCheck.Source
