import ScriptCheck.Source.Terminal

/-!
# Productions

A production of the grammar reads a stretch of the text and moves a `Reader` over it.  The reader
is a cursor with the number of expression levels that are open.  A production that fails stops where
it is: the reader keeps the place and the levels it had there, so that whoever goes on reading can
see both.

Productions are built from the few here: single terminals, and `repeatWhile` for everything the
grammar repeats.
-/

namespace ScriptCheck.Grammar

open Source

/-- A cursor and the number of open expression levels. -/
structure Reader (text : List UInt8) where
  cursor : Cursor text
  depth : Nat

namespace Reader

/-- The reader before the first statement of `text`: behind the gap at its start. -/
def start (text : List UInt8) : Reader text := ⟨(Cursor.start text).skipGap, 0⟩

end Reader

/-- A production: it moves the reader and gives a value, or fails with an error. -/
abbrev Production (text : List UInt8) (α : Type) := EStateM SyntaxError (Reader text) α

namespace Production

variable {text : List UInt8}

/-- Fails with `cause` at the place of the reader. -/
def failAt {α : Type} (cause : Cause) : Production text α :=
  fun r => .error (r.cursor.error cause) r

/-- The byte at the place of the reader, if the text goes on. -/
def peek : Production text (Option UInt8) := fun r => .ok r.cursor.peek? r

/-- The character `c` and the gap behind it. -/
def expect (c : Char) : Production text Unit := fun r =>
  match r.cursor.expect c.toUInt8 with
  | .ok cursor => .ok () { r with cursor := cursor }
  | .error e => .error e r

/-- The word `word` and the gap behind it, if the text goes on with it. -/
def skipWord (word : List UInt8) : Production text Bool := fun r =>
  match r.cursor.skipWord? word with
  | some cursor => .ok true { r with cursor := cursor }
  | none => .ok false r

/-- Any one character and the gap behind it. -/
def operator : Production text Unit :=
  fun r => .ok () { r with cursor := r.cursor.bump.skipGap }

/-- A name. -/
def name : Production text Unit := fun r =>
  match r.cursor.readName with
  | .ok cursor => .ok () { r with cursor := cursor }
  | .error e => .error e r

/-- A number, with its value. -/
def number : Production text Int64 := fun r =>
  match r.cursor.readNumber with
  | .ok (value, cursor) => .ok value { r with cursor := cursor }
  | .error e => .error e r

/-- Opens one more expression level. -/
def enter : Production text Unit := fun r => .ok () { r with depth := r.depth + 1 }

/-- One level less.  The count is a machine word, and wraps around where there is none to take
away. -/
def oneLess : Nat → Nat
  | 0 => UInt64.size - 1
  | n + 1 => n

@[simp] theorem oneLess_succ (n : Nat) : oneLess (n + 1) = n := rfl

/-- Closes one expression level. -/
def leave : Production text Unit := fun r => .ok () { r with depth := oneLess r.depth }

/-- Closes all expression levels. -/
def leaveAll : Production text Unit := fun r => .ok () { r with depth := 0 }

/-- Reads `body` again and again, as long as the byte at the place passes the test `going`
beforehand.  A round that stays in its place is the last one, so the repetition ends on every
text. -/
def repeatWhile (going : Option UInt8 → Bool) (body : Production text Unit) :
    Production text Unit := fun r =>
  if going r.cursor.peek? then
    match body r with
    | .ok () r' =>
      if r.cursor.position < r'.cursor.position then repeatWhile going body r' else .ok () r'
    | .error e r' => .error e r'
  else .ok () r
termination_by r => text.length - r.cursor.position
decreasing_by
  have := r'.cursor.position_le
  omega

theorem repeatWhile_of_stop {going : Option UInt8 → Bool} {body : Production text Unit}
    {r : Reader text} (h : going r.cursor.peek? = false) : repeatWhile going body r = .ok () r := by
  rw [repeatWhile]
  simp [h]

theorem repeatWhile_of_error {going : Option UInt8 → Bool} {body : Production text Unit}
    {r r' : Reader text} {e : SyntaxError} (h : going r.cursor.peek? = true)
    (hBody : body r = .error e r') : repeatWhile going body r = .error e r' := by
  rw [repeatWhile]
  simp [h, hBody]

/-- A round that gets on is followed by the rounds after it. -/
theorem repeatWhile_of_ok {going : Option UInt8 → Bool} {body : Production text Unit}
    {r r' : Reader text} (h : going r.cursor.peek? = true) (hBody : body r = .ok () r')
    (hMoved : r.cursor.position < r'.cursor.position) :
    repeatWhile going body r = repeatWhile going body r' := by
  rw [repeatWhile]
  simp [h, hBody, hMoved]

end Production

end ScriptCheck.Grammar
