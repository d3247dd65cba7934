import ScriptCheck.SyntaxError
import ScriptCheck.Text.Lines
import ScriptCheck.View.Highlight
import ScriptCheck.View.Widget

/-!
# The source pane

The pane shows the lines of the source with their numbers.  The line of an error is drawn on the
error colour, and below it a caret points at the failing column.  An error behind the last line gets
a row of its own.  `sourceRows` lists all rows; `Scroll` says which of them are in view.
-/

namespace ScriptCheck.View

/-! ## Rows -/

/-- The width of the column of line numbers, with the space behind it. -/
def gutterWidth : Nat := 5

/-- The line number in front of a row, on the right of its column. -/
def gutter (number : Nat) : String :=
  let digits := (Nat.repr number).toList
  String.ofList (List.replicate (gutterWidth - 1 - digits.length) ' ' ++ digits ++ [' '])

/-- The text below a failing line: a caret under `column` and the failed condition. -/
def caretText (column : Nat) (condition : String) : String :=
  String.ofList (List.replicate (gutterWidth + (column - 1)) ' ') ++ "^ " ++ condition

/-- The caret row of an error. -/
def caretRow (e : SyntaxError) : Line :=
  [⟨caretText e.column e.cause.condition, Style.ink Palette.error⟩]

/-- The style of a failing line. -/
def failingStyle : Style := ((Style.ink .white).on Palette.error).strong

/-- The row of an ordinary line. -/
def lineRow (number : Nat) (line : String) : Line :=
  ⟨gutter number, Style.ink Palette.comment⟩ :: highlight line

/-- The row of a failing line. -/
def failingRow (number : Nat) (line : String) : Line :=
  ⟨gutter number, (Style.ink Palette.error).strong⟩ ::
    (highlight line).map fun s => { s with style := failingStyle }

/-- The rows of one line: one, or two if it is the line of the error. -/
def rowsOfLine (error? : Option SyntaxError) (number : Nat) (line : String) : List Line :=
  match error? with
  | some e =>
    if e.line = number then [failingRow number line, caretRow e] else [lineRow number line]
  | none => [lineRow number line]

/-- The rows behind the last of `count` lines: those of an error that lies there. -/
def rowsBehind (error? : Option SyntaxError) (count : Nat) : List Line :=
  match error? with
  | some e =>
    if count < e.line then [[⟨gutter e.line, Style.ink Palette.error⟩], caretRow e] else []
  | none => []

/-- All rows of the pane. -/
def sourceRows (source : String) (error? : Option SyntaxError) : List Line :=
  let lines := Text.lines source
  (lines.zipIdx 1).flatMap (fun (line, number) => rowsOfLine error? number line) ++
    rowsBehind error? lines.length

/-! ## Scrolling -/

/-- Which rows are in view. -/
structure Scroll where
  /-- The number of rows above the view. -/
  offset : Nat
  /-- Whether the next frame is to bring the error into view. -/
  follow : Bool
  deriving DecidableEq, Repr

namespace Scroll

/-- The greatest offset, that of a 64-bit word. -/
def mostOffset : Nat := UInt64.size - 1

/-- Moves the view up by `n` rows. -/
def up (s : Scroll) (n : Nat) : Scroll := { s with offset := s.offset - n }

/-- Moves the view down by `n` rows.  The next frame brings it back to the rows there are. -/
def down (s : Scroll) (n : Nat) : Scroll := { s with offset := min (s.offset + n) mostOffset }

/-- Moves the view to the first row. -/
def home (s : Scroll) : Scroll := { s with offset := 0 }

/-- The scroll state of a frame that has `height` of `count` rows in view: first, if that is asked
for, the failing line moves to the middle; then the view moves back to where rows are. -/
def settle (s : Scroll) (error? : Option SyntaxError) (count height : Nat) : Scroll :=
  let wanted := match s.follow, error? with
    | true, some e => e.line - 1 - height / 2
    | _, _ => s.offset
  ⟨min wanted (count - height), false⟩

end Scroll

/-- The number of rows that a pane of `height` cells has in view. -/
def viewHeight (height : Nat) : Nat := max (height - 2) 1

/-- The rows in view. -/
def visibleRows (rows : List Line) (offset height : Nat) : List Line :=
  (rows.drop offset).take height

/-- The pane in its area, with the rows in view, and the scroll state it is left in. -/
def sourcePane (source : String) (error? : Option SyntaxError) (focused : Bool) (scroll : Scroll)
    (area : Area) : Placed × Scroll :=
  let rows := sourceRows source error?
  let shown := viewHeight area.height
  let settled := scroll.settle error? rows.length shown
  ({ paragraph :=
      { lines := visibleRows rows settled.offset shown
        block? := some ⟨" Source ", borderStyle focused⟩ }
     area := area },
    settled)

end ScriptCheck.View
