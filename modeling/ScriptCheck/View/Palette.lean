import ScriptCheck.View.Style

/-!
# The colours of the viewer
-/

namespace ScriptCheck.View.Palette

/-- Ordinary text. -/
def text : Color := .rgb 205 214 244

/-- Parentheses. -/
def primary : Color := .rgb 137 180 250

/-- Quoted text. -/
def secondary : Color := .rgb 250 179 135

/-- Comments, labels and everything in the background. -/
def comment : Color := .rgb 108 112 134

/-- A check that succeeded. -/
def success : Color := .rgb 166 227 161

/-- A check that failed. -/
def error : Color := .rgb 243 139 168

/-- Keywords. -/
def keyword : Color := .rgb 137 180 250

/-- Numbers. -/
def number : Color := .rgb 250 179 135

/-- Names of functions that are called. -/
def function : Color := .rgb 249 226 175

/-- The border of the pane that has the focus. -/
def focusedBorder : Color := .rgb 249 226 175

/-- The border of any other pane. -/
def border : Color := .rgb 108 112 134

/-- The ground of the status bar. -/
def bar : Color := .rgb 50 50 70

end ScriptCheck.View.Palette
