import ScriptCheck.View.Widget

/-!
# Frames of cells

A frame is a picture of character cells, row by row.  `plain` is a toolkit that paints such frames
on a screen where every character takes one cell.  It is what the viewer runs on where there is no
other; nothing that the viewer hands over depends on how it is painted.
-/

namespace ScriptCheck.View

/-- How a cell looks. -/
structure Look where
  ink : Color
  ground : Color
  bold : Bool
  deriving DecidableEq, Repr

/-- The look of a cell that nothing was painted on. -/
def Look.bare : Look := ⟨.reset, .reset, false⟩

/-- The look that a style makes of another. -/
def Style.over (s : Style) (l : Look) : Look :=
  ⟨s.ink?.getD l.ink, s.ground?.getD l.ground, s.bold || l.bold⟩

/-- A character on the screen. -/
structure Cell where
  symbol : Char
  look : Look
  deriving DecidableEq, Repr

/-- A row of cells. -/
abbrev Row := List Cell

/-- Rows from top to bottom. -/
abbrev Frame := List Row

/-! ## Painting lines -/

/-- Whether a character takes a cell before the character `next`.  Line feeds take none, nor do the
carriage returns right before them. -/
def takesCell (c : Char) (next : Option Char) : Bool :=
  c != '\n' && !(c == '\r' && next == some '\n')

/-- The characters of a text that take a cell. -/
def cellChars (cs : List Char) : List Char :=
  ((cs.zip (cs.tail.map some ++ [none])).filter fun (c, next) => takesCell c next).map Prod.fst

/-- The cells of a text over the ground look `l`. -/
def Styled.cells (l : Look) (s : Styled) : Row :=
  (cellChars s.text.toList).map fun c => ⟨c, s.style.over l⟩

/-- The cells of a line over the ground look `l`. -/
def paintLine (l : Look) (line : Line) : Row := line.flatMap (Styled.cells l)

/-- `width` empty cells. -/
def blanks (l : Look) (width : Nat) : Row := List.replicate width ⟨' ', l⟩

/-- The row `cells` cut to `width` cells, or filled up on the side away from `alignment`. -/
def fit (alignment : Alignment) (l : Look) (width : Nat) (cells : Row) : Row :=
  let filling := blanks l (width - cells.length)
  match alignment with
  | .left => cells.take width ++ filling
  | .right => filling ++ cells.take width

/-- The rows of a line that goes on below wherever `width` cells are full. -/
def wrapped (width : Nat) (cells : Row) : List Row :=
  let more := (cells.length - 1) / max width 1
  (List.range (more + 1)).map fun i => (cells.drop (i * width)).take width

/-! ## Painting paragraphs -/

/-- The rows inside the border of a paragraph. -/
def Paragraph.inner (p : Paragraph) (width height : Nat) : Frame :=
  let ground := p.style.over .bare
  let rows := p.lines.flatMap fun line =>
    let cells := paintLine ground line
    if p.wrap?.isSome then wrapped width cells else [cells]
  let shown := rows.take height
  (shown ++ List.replicate (height - shown.length) []).map (fit p.alignment ground width)

/-- The edge of a box: two corners with `middle` between them, filled up with dashes. -/
def edge (l : Look) (left right : Char) (width : Nat) (middle : String) : Row :=
  let dashes := middle.toList ++ List.replicate width '─'
  (left :: dashes.take (width - 2) ++ [right]).map (⟨·, l⟩)

/-- The border of `b` around rows.  There are no more than `height` rows in all. -/
def Block.around (b : Block) (width height : Nat) (rows : Frame) : Frame :=
  let l := b.border.over .bare
  let side : Cell := ⟨'│', l⟩
  let box := edge l '┌' '┐' width b.title :: rows.map (fun row => side :: row ++ [side]) ++
    [edge l '└' '┘' width ""]
  box.take height

/-- The cells of a paragraph. -/
def Paragraph.cells (p : Paragraph) (width height : Nat) : Frame :=
  match p.block? with
  | none => p.inner width height
  | some b => b.around width height (p.inner (width - 2) (height - 2))

/-- Paints a paragraph over a frame. -/
def Frame.overlay (frame : Frame) (p : Placed) : Frame :=
  let cells := p.paragraph.cells p.area.width p.area.height
  frame.mapIdx fun y row =>
    if p.area.top ≤ y then
      match cells[y - p.area.top]? with
      | some painted => row.take p.area.left ++ painted ++ row.drop (p.area.left + painted.length)
      | none => row
    else row

/-! ## A plain toolkit -/

/-- How many of `total` cells a part asks for. -/
def Constraint.share (total : Nat) : Constraint → Nat
  | min n | length n => n
  | percentage n => (total * n + 50) / 100

/-- Gives the first part what it asks for, as far as there is room, and the second part the rest. -/
def plainSplit : Splitter := fun direction (first, second) area =>
  let upper (total : Nat) : Nat :=
    match first with
    | .min n => min total (max n (total - second.share total))
    | _ => min total (first.share total)
  match direction with
  | .vertical =>
    let cut := upper area.height
    ({ area with height := cut }, { area with top := area.top + cut, height := area.height - cut })
  | .horizontal =>
    let cut := upper area.width
    ({ area with width := cut }, { area with left := area.left + cut, width := area.width - cut })

/-- A toolkit for screens that start at the left and at the top. -/
def plain : Toolkit Frame where
  split := plainSplit
  paint screen placed :=
    placed.foldl Frame.overlay (List.replicate screen.height (blanks .bare screen.width))

/-! ## Reading a frame -/

/-- Neighbouring cells of one look. -/
structure Run where
  text : String
  look : Look
  deriving DecidableEq, Repr

/-- The runs of a row, each as long as possible. -/
def runs (row : Row) : List Run :=
  (row.splitBy fun a b => a.look = b.look).filterMap fun cells =>
    cells.head?.map fun cell => ⟨String.ofList (cells.map Cell.symbol), cell.look⟩

end ScriptCheck.View
