import ScriptCheck.Source.Cursor

/-!
# Names and numbers

Two terminals have many spellings.  A name is a letter or underscore and all letters, digits and
underscores behind it; a number is a run of decimal digits.  Both take as many bytes as they can,
are noted as the terminal read last, and pass over the gap behind them.
-/

namespace ScriptCheck.Source

/-- The length of the name at the front of a text, zero if none starts there. -/
def nameLength : List UInt8 → Nat
  | [] => 0
  | b :: bs => if startsName b then (bs.takeWhile continuesName).length + 1 else 0

/-- The value of a run of decimal digits as a signed 64-bit word.  Runs that are too long wrap
around. -/
def digitsValue (digits : List UInt8) : Int64 :=
  digits.foldl (fun value d => value * 10 + Int64.ofNat (d.toNat - '0'.toNat)) 0

namespace Cursor

variable {text : List UInt8}

/-- Reads a name. -/
def readName (c : Cursor text) : Except SyntaxError (Cursor text) :=
  match nameLength c.rest with
  | 0 => .error (c.error .invalidIdentifier)
  | n + 1 => .ok (c.takeToken (n + 1))

/-- Reads a number and gives its value. -/
def readNumber (c : Cursor text) : Except SyntaxError (Int64 × Cursor text) :=
  match c.rest.takeWhile isDigit with
  | [] => .error (c.error .invalidNumber)
  | d :: ds => .ok (digitsValue (d :: ds), c.takeToken (ds.length + 1))

end Cursor

end ScriptCheck.Source
