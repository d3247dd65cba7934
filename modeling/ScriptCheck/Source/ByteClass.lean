/-!
# Byte classes

Every byte of a source text belongs to one class.  The classes are ordered, and the order is what
the language asks about: the letters are the classes above `digit`, the letters and digits those
above `delimiter`.  The underscore is a delimiter; names allow it by an extra rule.
-/

namespace ScriptCheck.Source

/-- The class of a byte, in ascending order. -/
inductive ByteClass where
  /-- No byte of the language outside comments; the carriage return is here although it is a
  space. -/
  | invalid
  /-- Tab, line feed, form feed, space and ASCII punctuation. -/
  | delimiter
  /-- A decimal digit. -/
  | digit
  /-- A letter that is also a hexadecimal digit. -/
  | hexDigit
  /-- Any other ASCII letter. -/
  | letter
  deriving DecidableEq, Repr

namespace ByteClass

/-- The place of a class in the order. -/
def rank : ByteClass → Nat
  | invalid => 0
  | delimiter => 1
  | digit => 2
  | hexDigit => 3
  | letter => 4

/-- The class of `b`. -/
def of (b : UInt8) : ByteClass :=
  if 0x30 ≤ b ∧ b ≤ 0x39 then digit
  else if (0x41 ≤ b ∧ b ≤ 0x46) ∨ (0x61 ≤ b ∧ b ≤ 0x66) then hexDigit
  else if (0x47 ≤ b ∧ b ≤ 0x5a) ∨ (0x67 ≤ b ∧ b ≤ 0x7a) then letter
  else if (0x20 ≤ b ∧ b ≤ 0x7e) ∨ b = 0x09 ∨ b = 0x0a ∨ b = 0x0c then delimiter
  else invalid

end ByteClass

/-! ## The questions the language asks -/

/-- An ASCII letter. -/
def isLetter (b : UInt8) : Bool := ByteClass.digit.rank < (ByteClass.of b).rank

/-- An ASCII letter or digit. -/
def isAlphanumeric (b : UInt8) : Bool := ByteClass.delimiter.rank < (ByteClass.of b).rank

/-- A decimal digit. -/
def isDigit (b : UInt8) : Bool := ByteClass.of b == ByteClass.digit

/-- Space, tab, carriage return or line feed. -/
def isSpace (b : UInt8) : Bool := b == 0x20 || b == 0x09 || b == 0x0d || b == 0x0a

/-- A byte that may start a name. -/
def startsName (b : UInt8) : Bool := isLetter b || b == '_'.toUInt8

/-- A byte that may stand in a name after its first. -/
def continuesName (b : UInt8) : Bool := isAlphanumeric b || b == '_'.toUInt8

end ScriptCheck.Source
