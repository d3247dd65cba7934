import ScriptCheck.SyntaxError
import ScriptCheck.Text.Bounded
import ScriptCheck.Text.Quoted
import ScriptCheck.View.Widget

/-!
# The diagnostic pane

The pane names the file and tells how its check went; of a failed check it gives the kind of error,
its place, the text that follows it, and the stored message.
-/

namespace ScriptCheck.View

/-- The style of the labels at the front of the lines. -/
def labelStyle : Style := Style.ink Palette.comment

/-- A line with its label. -/
def labelled (label : String) (content : Line) : Line := ⟨label, labelStyle⟩ :: content

/-- The place of an error in words. -/
def placeText (e : SyntaxError) : String :=
  "line " ++ Nat.repr e.line ++ ", column " ++ Nat.repr e.column ++
    " (offset " ++ Nat.repr e.offset ++ ")"

/-- The lines about an error. -/
def errorLines (e : SyntaxError) (message : Text.Bounded) : List Line :=
  [labelled "Error:    " [⟨e.cause.label, (Style.ink Palette.error).strong⟩],
    labelled "Position: " [⟨placeText e, Style.plain⟩],
    labelled "Near:     " [⟨Text.Quoted.encode e.snippet, Style.ink Palette.secondary⟩],
    labelled "Message:  " (⟨message.text, Style.plain⟩ ::
      if message.truncated then [⟨" (truncated)", labelStyle⟩] else [])]

/-- All lines of the pane. -/
def diagnosticLines (file : String) (error? : Option SyntaxError) (message : Text.Bounded) :
    List Line :=
  labelled "File:     " [⟨file, Style.plain⟩] ::
    match error? with
    | none => [[⟨"Syntax OK", (Style.ink Palette.success).strong⟩]]
    | some e => errorLines e message

/-- The pane in its area.  Lines that are too long go on in the next row. -/
def diagnosticPane (file : String) (error? : Option SyntaxError) (message : Text.Bounded)
    (focused : Bool) (area : Area) : Placed where
  paragraph :=
    { lines := diagnosticLines file error? message
      block? := some ⟨" Diagnostic ", borderStyle focused⟩
      wrap? := some ⟨false⟩ }
  area := area

end ScriptCheck.View
