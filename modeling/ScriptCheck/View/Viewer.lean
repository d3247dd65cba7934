import ScriptCheck.Checker
import ScriptCheck.View.DiagnosticPane
import ScriptCheck.View.Frame
import ScriptCheck.View.SourcePane
import ScriptCheck.View.StatusBar

/-!
# The viewer

The viewer shows one checked file in three parts: source, diagnostic and status bar.  Keys change
what it shows (`press`), and rendering a frame (`render`) settles the scroll state, since only then
the height of the source pane is known.
-/

namespace ScriptCheck.View

/-- The panes that can have the focus. -/
inductive Pane where
  | source
  | diagnostic
  deriving DecidableEq, Repr

/-- The pane that gets the focus after this one. -/
def Pane.next : Pane → Pane
  | source => diagnostic
  | diagnostic => source

/-- A key of the terminal. -/
inductive Key where
  /-- A key that writes a character. -/
  | char (c : Char)
  | escape
  | tab
  | backTab
  | enter
  | up
  | down
  | left
  | right
  | pageUp
  | pageDown
  | home
  | last
  deriving DecidableEq, Repr

/-- A checked file and how it is shown. -/
structure Viewer where
  file : String
  source : String
  error? : Option SyntaxError
  message : Text.Bounded
  focus : Pane
  scroll : Scroll
  quit : Bool
  status : String
  deriving DecidableEq, Repr

namespace Viewer

/-- What the status bar says at first. -/
def firstStatus : Option SyntaxError → String
  | some e => "line " ++ Nat.repr e.line ++ ": " ++ e.cause.condition
  | none => "Syntax OK"

/-- The viewer of a file that `checker` has just checked. -/
def ofChecker (file source : String) (checker : Checker) : Viewer where
  file := file
  source := source
  error? := checker.lastError?
  message := checker.message
  focus := .source
  scroll := ⟨0, checker.lastError?.isSome⟩
  quit := false
  status := firstStatus checker.lastError?

/-- How many rows a page key moves the view. -/
def pageRows : Nat := 10

/-- Asks for the failing line in the next frame, if there is one. -/
def jump (v : Viewer) : Viewer :=
  match v.error? with
  | some e =>
    { v with
      scroll := { v.scroll with follow := true }
      status := "Jumped to line " ++ Nat.repr e.line }
  | none => v

/-- What a key does. -/
def press (v : Viewer) : Key → Viewer
  | .char 'q' | .char 'Q' | .escape => { v with quit := true }
  | .tab => { v with focus := v.focus.next }
  | .up => { v with scroll := v.scroll.up 1 }
  | .down => { v with scroll := v.scroll.down 1 }
  | .pageUp => { v with scroll := v.scroll.up pageRows }
  | .pageDown => { v with scroll := v.scroll.down pageRows }
  | .home => { v with scroll := v.scroll.home }
  | .char 'g' => v.jump
  | _ => v

/-- The drawing of a frame on `screen`, and the viewer with its scroll state settled.  The status
bar takes the last row; of what is left, the source takes three quarters. -/
def render (v : Viewer) (split : Splitter) (screen : Area) : Drawing × Viewer :=
  let parts := split .vertical (.min 0, .length 1) screen
  let panes := split .vertical (.percentage 75, .percentage 25) parts.1
  let source := sourcePane v.source v.error? (v.focus = .source) v.scroll panes.1
  ({ source := source.1
     diagnostic := diagnosticPane v.file v.error? v.message (v.focus = .diagnostic) panes.2
     status := statusBar split v.status v.error?.isSome parts.2 },
    { v with scroll := source.2 })

/-- A frame as the toolkit paints it, and the viewer behind it. -/
def frame {Picture : Type} (v : Viewer) (toolkit : Toolkit Picture) (screen : Area) :
    Picture × Viewer :=
  let rendered := v.render toolkit.split screen
  (toolkit.paint screen rendered.1.placed, rendered.2)

end Viewer

/-! ## On a plain screen -/

/-- A screen of `width` by `height` cells. -/
def plainScreen (width height : Nat) : Area := ⟨0, 0, width, height⟩

/-- Draws the source pane alone, and gives the scroll state it is left in. -/
def drawSource (source : String) (error? : Option SyntaxError) (focused : Bool) (scroll : Scroll)
    (width height : Nat) : Frame × Scroll :=
  let screen := plainScreen width height
  let pane := sourcePane source error? focused scroll screen
  (plain.paint screen [pane.1], pane.2)

/-- Draws the diagnostic pane alone. -/
def drawDiagnostic (file : String) (error? : Option SyntaxError) (message : Text.Bounded)
    (focused : Bool) (width height : Nat) : Frame :=
  let screen := plainScreen width height
  plain.paint screen [diagnosticPane file error? message focused screen]

/-- Draws the status bar alone. -/
def drawStatus (message : String) (failed : Bool) (width : Nat) : Row :=
  let screen := plainScreen width 1
  (plain.paint screen (statusBar plain.split message failed screen)).headD []

/-- Draws a frame, and gives the viewer with its scroll state settled. -/
def Viewer.draw (v : Viewer) (width height : Nat) : Frame × Viewer :=
  v.frame plain (plainScreen width height)

end ScriptCheck.View
