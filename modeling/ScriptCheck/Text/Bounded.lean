/-!
# Bounded text

A message is stored with at most `capacity` bytes.  A longer text is cut after the last character
that fits as a whole, and the cut is remembered.  Setting a new text keeps nothing of the old one.
-/

namespace ScriptCheck.Text

/-- The longest start of `cs` that takes at most `room` bytes in UTF-8. -/
def fitting : Nat → List Char → List Char
  | _, [] => []
  | room, c :: cs => if c.utf8Size ≤ room then c :: fitting (room - c.utf8Size) cs else []

/-- A text of bounded size, with a mark that says whether it was cut. -/
structure Bounded where
  text : String
  truncated : Bool
  deriving DecidableEq, Repr

namespace Bounded

/-- The most bytes that are kept. -/
def capacity : Nat := 99

/-- No text. -/
def empty : Bounded := ⟨"", false⟩

/-- Stores `text`, cut to the bytes that fit. -/
def ofString (text : String) : Bounded :=
  ⟨String.ofList (fitting capacity text.toList), decide (capacity < text.utf8ByteSize)⟩

end Bounded

end ScriptCheck.Text
