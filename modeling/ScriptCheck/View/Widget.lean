import ScriptCheck.View.Palette

/-!
# Widgets

The viewer does not draw.  It says which lines are to be shown where, and leaves two things to a
toolkit: to divide an area among its parts, and to paint what is placed on a screen.  A `Drawing` is
all that the viewer hands over for one frame.
-/

namespace ScriptCheck.View

/-! ## Areas -/

/-- A rectangle of cells on the screen. -/
structure Area where
  left : Nat
  top : Nat
  width : Nat
  height : Nat
  deriving DecidableEq, Repr

/-- How the parts of an area lie. -/
inductive Direction where
  | horizontal
  | vertical
  deriving DecidableEq, Repr

/-- How much of an area a part asks for. -/
inductive Constraint where
  /-- What the others leave, and at least `n` cells. -/
  | min (n : Nat)
  | length (n : Nat)
  /-- A number of hundredths. -/
  | percentage (n : Nat)
  deriving DecidableEq, Repr

/-- Divides an area in two. -/
abbrev Splitter := Direction → Constraint × Constraint → Area → Area × Area

/-! ## Paragraphs -/

/-- A border around a paragraph, with a title in its upper edge. -/
structure Block where
  title : String
  border : Style
  deriving DecidableEq, Repr

/-- How lines that are too long go on in the next row. -/
structure Wrap where
  /-- Whether blanks at the front of a row are left out. -/
  trim : Bool
  deriving DecidableEq, Repr

/-- At which side of its row a line stands. -/
inductive Alignment where
  | left
  | right
  deriving DecidableEq, Repr

/-- Lines that are shown one below the other. -/
structure Paragraph where
  lines : List Line
  block? : Option Block := none
  /-- Without it, each line has one row, and what does not fit is cut. -/
  wrap? : Option Wrap := none
  style : Style := Style.plain
  alignment : Alignment := .left
  deriving DecidableEq, Repr

/-- A paragraph in its place. -/
structure Placed where
  paragraph : Paragraph
  area : Area
  deriving DecidableEq, Repr

/-- All that the viewer hands over for a frame. -/
structure Drawing where
  source : Placed
  diagnostic : Placed
  status : List Placed
  deriving DecidableEq, Repr

/-- The paragraphs in the order in which they are painted. -/
def Drawing.placed (d : Drawing) : List Placed := d.source :: d.diagnostic :: d.status

/-- The style of a pane's border. -/
def borderStyle (focused : Bool) : Style :=
  if focused then (Style.ink Palette.focusedBorder).strong else Style.ink Palette.border

/-! ## What a toolkit does -/

/-- What the viewer leaves to others. -/
structure Toolkit (Picture : Type) where
  split : Splitter
  /-- Paints a screen. -/
  paint : Area → List Placed → Picture

end ScriptCheck.View
