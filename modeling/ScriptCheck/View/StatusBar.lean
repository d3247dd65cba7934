import ScriptCheck.View.Widget

/-!
# The status bar

The left half of the bar tells how the check went, the right half which keys do something.
-/

namespace ScriptCheck.View

/-- The style of text on the bar. -/
def barStyle (ink : Color) : Style := (Style.ink ink).on Palette.bar

/-- The texts in the left half. -/
def statusLine (message : String) (failed : Bool) : Line :=
  let badge (text : String) (ground : Color) : Styled :=
    ⟨text, ((Style.ink .black).on ground).strong⟩
  [if failed then badge " ERROR " Palette.error else badge " OK " Palette.success,
    ⟨" | ", barStyle Palette.comment⟩,
    ⟨" " ++ message ++ " ", barStyle (if failed then Palette.error else Palette.text)⟩]

/-- A key and what it does. -/
def keyHint (key deed : String) : Line :=
  [⟨key, (Style.ink .black).on Palette.comment⟩, ⟨deed, barStyle Palette.text⟩]

/-- What stands between two keys. -/
def hintBreak : Line := [⟨"│", barStyle Palette.comment⟩, ⟨" ", barStyle Palette.text⟩]

/-- The texts in the right half. -/
def keyLine (failed : Bool) : Line :=
  keyHint " ↑/↓ " " scroll " ++ hintBreak ++ keyHint " ⇥ " " focus " ++
    (if failed then hintBreak ++ keyHint " g " " error " else []) ++
    hintBreak ++ keyHint "q" " quit "

/-- The halves of the bar in their areas.  The keys stand at the right end. -/
def statusBar (split : Splitter) (message : String) (failed : Bool) (area : Area) : List Placed :=
  let halves := split .horizontal (.percentage 50, .percentage 50) area
  let ground := Style.plain.on Palette.bar
  [⟨{ lines := [statusLine message failed], style := ground }, halves.1⟩,
    ⟨{ lines := [keyLine failed], style := ground, alignment := .right }, halves.2⟩]

end ScriptCheck.View
