/-!
# Colours and styles

A style says what it changes about the look of a text and leaves the rest as it is.  A line on the
screen is a list of texts, each with its style.
-/

namespace ScriptCheck.View

/-- A colour of the terminal. -/
inductive Color where
  /-- A mixed colour. -/
  | rgb (red green blue : UInt8)
  | white
  | black
  /-- The colour the terminal uses by itself. -/
  | reset
  deriving DecidableEq, Repr

/-- Two hexadecimal digits. -/
def hexPair (b : UInt8) : List Char :=
  [Nat.digitChar (b.toNat / 16), Nat.digitChar (b.toNat % 16)]

/-- The written form of a colour. -/
def Color.name : Color → String
  | rgb r g b => String.ofList ('#' :: (hexPair r ++ hexPair g ++ hexPair b))
  | white => "white"
  | black => "black"
  | reset => "reset"

/-- Changes to the look of a text. -/
structure Style where
  ink? : Option Color
  ground? : Option Color
  bold : Bool
  deriving DecidableEq, Repr

namespace Style

/-- The style that changes nothing. -/
def plain : Style := ⟨none, none, false⟩

/-- The style that sets the colour of the letters. -/
def ink (c : Color) : Style := ⟨some c, none, false⟩

/-- The style with the ground in colour `c`. -/
def on (s : Style) (c : Color) : Style := { s with ground? := some c }

/-- The style with bold letters. -/
def strong (s : Style) : Style := { s with bold := true }

end Style

/-- A text with its style. -/
structure Styled where
  text : String
  style : Style
  deriving DecidableEq, Repr

/-- A line on the screen. -/
abbrev Line := List Styled

end ScriptCheck.View
