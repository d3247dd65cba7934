/-!
# UTF-8 text in a byte sequence

Source texts are byte sequences, and nothing promises that they are well formed.  This file reads
them as UTF-8 one byte at a time.  The reader keeps the character under way, if there is one: its
bits so far, how many continuation bytes it still owes, and the range the next of them must lie in.
A byte outside that range ends the character under way as ill formed and is then read afresh, so an
ill-formed piece is always the longest start of a character, or a single byte that starts none.

* `pieces` — the characters of the text in order, `none` standing for each ill-formed piece.
* `lossy` — the text with U+FFFD for each ill-formed piece.
* `decode?` — the text, if no piece of it is ill formed.
* `encode` — the bytes of a text.
-/

namespace ScriptCheck.Text.Utf8

/-! ## Characters under way -/

/-- A character of which at least one continuation byte is still to come. -/
structure Pending where
  /-- The bits read so far. -/
  bits : Nat
  /-- How many continuation bytes follow the next one. -/
  owed : Nat
  /-- The least next byte that continues the character. -/
  low : UInt8
  /-- The greatest next byte that continues the character. -/
  high : UInt8

/-- What a byte is when no character is under way. -/
inductive Lead where
  /-- A character of its own. -/
  | whole (c : Char)
  /-- The first byte of a longer character. -/
  | opens (p : Pending)
  /-- No character starts with this byte. -/
  | stray

/-- The role of `b` at the start of a character.  The ranges leave out overlong forms, surrogates
and numbers past the last code point. -/
def Lead.of (b : UInt8) : Lead :=
  if b ≤ 0x7f then .whole (Char.ofNat b.toNat)
  else if b < 0xc2 then .stray
  else if b ≤ 0xdf then .opens ⟨b.toNat - 0xc0, 0, 0x80, 0xbf⟩
  else if b = 0xe0 then .opens ⟨0, 1, 0xa0, 0xbf⟩
  else if b = 0xed then .opens ⟨0xd, 1, 0x80, 0x9f⟩
  else if b ≤ 0xef then .opens ⟨b.toNat - 0xe0, 1, 0x80, 0xbf⟩
  else if b = 0xf0 then .opens ⟨0, 2, 0x90, 0xbf⟩
  else if b ≤ 0xf3 then .opens ⟨b.toNat - 0xf0, 2, 0x80, 0xbf⟩
  else if b = 0xf4 then .opens ⟨4, 2, 0x80, 0x8f⟩
  else .stray

/-! ## Reading byte by byte -/

/-- A reader between two bytes: the pieces it has finished, newest first, and the character under
way. -/
structure Reading where
  done : List (Option Char)
  pending : Option Pending

/-- Reads `b` where no character is under way. -/
def Reading.start (done : List (Option Char)) (b : UInt8) : Reading :=
  match Lead.of b with
  | .whole c => ⟨some c :: done, none⟩
  | .opens p => ⟨done, some p⟩
  | .stray => ⟨none :: done, none⟩

/-- Reads one byte. -/
def Reading.step (r : Reading) (b : UInt8) : Reading :=
  match r.pending with
  | none => Reading.start r.done b
  | some p =>
    if p.low ≤ b ∧ b ≤ p.high then
      let bits := p.bits * 64 + (b.toNat - 0x80)
      match p.owed with
      | 0 => ⟨some (Char.ofNat bits) :: r.done, none⟩
      | n + 1 => ⟨r.done, some ⟨bits, n, 0x80, 0xbf⟩⟩
    else Reading.start (none :: r.done) b

/-- The pieces of a reader at the end of its text, where a character under way is cut off. -/
def Reading.finish (r : Reading) : List (Option Char) :=
  match r.pending with
  | none => r.done.reverse
  | some _ => (none :: r.done).reverse

/-! ## Whole texts -/

/-- The characters of `bytes` in order, with `none` for each ill-formed piece. -/
def pieces (bytes : List UInt8) : List (Option Char) :=
  (bytes.foldl Reading.step ⟨[], none⟩).finish

/-- The character that stands for an ill-formed piece. -/
def replacement : Char := '\uFFFD'

/-- The text of `bytes` with every ill-formed piece replaced. -/
def lossy (bytes : List UInt8) : String :=
  String.ofList ((pieces bytes).map (·.getD replacement))

/-- The text of `bytes`, if it is well formed throughout. -/
def decode? (bytes : List UInt8) : Option String :=
  ((pieces bytes).mapM id).map String.ofList

/-- The bytes of a text. -/
def encode (text : String) : List UInt8 := text.toUTF8.data.toList

end ScriptCheck.Text.Utf8
