import ScriptCheck.Proofs.Rows
import ScriptCheck.View.Viewer

/-!
# The failing line comes into view

A viewer of a failed check brings the failing line into view in its first frame, and in the next
frame after `g` was pressed.  Nothing that happens in between takes that back: keys only move the
view, and it is only the frame that settles where the view is.

* `Viewer.Deed`, `Viewer.deed_press` — what a key can do, each deed with the keys that do it.
* `Event`, `Viewer.reactAll` — what happens to a viewer, one event after the other.
* `Viewer.Follows` — the viewer still owes the failing line to the next frame.  Every key keeps that
  (`Follows.press`), and `Asks.follows` tells which histories lead there.
* `Scroll.settle_follow` — **the settled view holds the failing line**, and the caret below it if
  there is room for three rows.
* `error_brought_into_view` — **the next frame shows the failing line**, whatever a toolkit makes of
  the screen.
-/

namespace ScriptCheck.View

open Text

/-! ## Keys -/

/-- The keys that quit. -/
def quitKeys : List Key := [.char 'q', .char 'Q', .escape]

namespace Viewer

/-- `Deed v k v'`: the key `k` makes the viewer `v'` of `v`. -/
inductive Deed (v : Viewer) : Key → Viewer → Prop
  | quit {k : Key} (h : k ∈ quitKeys) : Deed v k { v with quit := true }
  | focus : Deed v .tab { v with focus := v.focus.next }
  /-- The failing line is asked for. -/
  | follow {e : SyntaxError} (h : v.error? = some e) :
      Deed v (.char 'g') { v with
        scroll := { v.scroll with follow := true }
        status := "Jumped to line " ++ Nat.repr e.line }
  /-- The view is moved, if anything happens at all. -/
  | move {k : Key} (hQuit : k ∉ quitKeys) (hTab : k ≠ .tab) (offset : Nat) :
      Deed v k { v with scroll := { v.scroll with offset := offset } }

/-- Every key does one of these deeds. -/
theorem deed_press (v : Viewer) (k : Key) : Deed v k (v.press k) := by
  have hJump : Deed v (.char 'g') v.jump := by
    unfold jump
    split
    · rename_i e hError
      exact .follow hError
    · exact .move (by decide) (by decide) v.scroll.offset
  unfold press
  split
  case h_1 | h_2 | h_3 => exact .quit (by decide)
  case h_4 => exact .focus
  case h_5 | h_6 | h_7 | h_8 | h_9 => exact .move (by decide) (by decide) _
  case h_10 => exact hJump
  case h_11 => exact .move (by simp_all [quitKeys]) (by assumption) v.scroll.offset

end Viewer

/-! ## What happens to a viewer -/

/-- Something that happens to a viewer. -/
inductive Event where
  /-- A key is pressed. -/
  | key (k : Key)
  /-- A frame is drawn on a screen. -/
  | frame (screen : Area)
  deriving DecidableEq, Repr

/-- The viewer behind an event. -/
def Viewer.react (split : Splitter) (v : Viewer) : Event → Viewer
  | .key k => v.press k
  | .frame screen => (v.render split screen).2

/-- The viewer behind a number of events. -/
def Viewer.reactAll (split : Splitter) (v : Viewer) (events : List Event) : Viewer :=
  events.foldl (Viewer.react split) v

/-- No frame is drawn in these events. -/
def Undrawn (events : List Event) : Prop := ∀ screen, Event.frame screen ∉ events

/-- The failing line is asked for: nothing has been drawn yet, or `g` was pressed since. -/
def Asks (events : List Event) : Prop :=
  Undrawn events ∨
    ∃ before after, events = before ++ .key (.char 'g') :: after ∧ Undrawn after

namespace Viewer

/-- The viewer shows the text `source` with the error `e`. -/
structure Shows (source : String) (e : SyntaxError) (v : Viewer) : Prop where
  source_eq : v.source = source
  error?_eq : v.error? = some e

/-- The viewer is to bring the error into view. -/
structure Follows (source : String) (e : SyntaxError) (v : Viewer) : Prop
    extends Shows source e v where
  follow_eq : v.scroll.follow = true

section Events

variable {split : Splitter} {source : String} {e : SyntaxError} {v : Viewer}

theorem Shows.jump (h : v.Shows source e) : v.jump.Follows source e := by
  have hJump : v.jump = { v with
      scroll := { v.scroll with follow := true }
      status := "Jumped to line " ++ Nat.repr e.line } := by
    simp only [Viewer.jump, h.error?_eq]
  rw [hJump]
  exact ⟨⟨h.source_eq, h.error?_eq⟩, rfl⟩

theorem Shows.press (h : v.Shows source e) (k : Key) : (v.press k).Shows source e := by
  have hDeed := v.deed_press k
  generalize v.press k = v' at hDeed
  cases hDeed with
  | quit | focus | follow | move => exact ⟨h.source_eq, h.error?_eq⟩

/-- No key takes back that the error was asked for. -/
theorem Follows.press (h : v.Follows source e) (k : Key) : (v.press k).Follows source e := by
  refine ⟨h.toShows.press k, ?_⟩
  have hDeed := v.deed_press k
  generalize v.press k = v' at hDeed
  cases hDeed with
  | follow => rfl
  | quit | focus | move => exact h.follow_eq

theorem Shows.react (h : v.Shows source e) (event : Event) :
    (v.react split event).Shows source e := by
  cases event with
  | key k => exact h.press k
  | frame screen => exact ⟨h.source_eq, h.error?_eq⟩

theorem Shows.reactAll (h : v.Shows source e) (events : List Event) :
    (v.reactAll split events).Shows source e := by
  induction events generalizing v with
  | nil => exact h
  | cons event events ih => exact ih (h.react event)

/-- As long as no frame is drawn, the error stays asked for. -/
theorem Follows.reactAll (h : v.Follows source e) {events : List Event} (hEvents : Undrawn events) :
    (v.reactAll split events).Follows source e := by
  induction events generalizing v with
  | nil => exact h
  | cons event events ih =>
    have hRest : Undrawn events := fun screen hMem =>
      hEvents screen (List.mem_cons_of_mem event hMem)
    cases event with
    | key k => exact ih (h.press k) hRest
    | frame screen => exact absurd List.mem_cons_self (hEvents screen)

end Events

theorem follows_ofChecker {checker : Checker} {e : SyntaxError} (h : checker.lastError? = some e)
    (file source : String) : (ofChecker file source checker).Follows source e := by
  refine ⟨⟨rfl, h⟩, ?_⟩
  simp [ofChecker, h]

end Viewer

/-- **A history that asks for the error leads to a viewer that follows it.** -/
theorem Asks.follows {split : Splitter} {source : String} {e : SyntaxError} {v : Viewer}
    {events : List Event} (hAsks : Asks events) (h : v.Follows source e) :
    (v.reactAll split events).Follows source e := by
  rcases hAsks with hNone | ⟨before, after, rfl, hAfter⟩
  · exact h.reactAll hNone
  · have hAsked : ((v.reactAll split before).press (.char 'g')).Follows source e :=
      (h.toShows.reactAll before).jump
    have hSplit : v.reactAll split (before ++ .key (.char 'g') :: after) =
        ((v.reactAll split before).press (.char 'g')).reactAll split after := by
      simp [Viewer.reactAll, Viewer.react]
    rw [hSplit]
    exact hAsked.reactAll hAfter

/-! ## The rows in view -/

/-- **The settled view holds the failing line**, and the caret below it if it has three rows. -/
theorem Scroll.settle_follow {s : Scroll} (h : s.follow = true) {e : SyntaxError}
    {count height : Nat} (hPos : 1 ≤ e.line) (hCount : e.line < count) (hHeight : 1 ≤ height) :
    ∃ k < height, (s.settle (some e) count height).offset + k = e.line - 1 ∧
      (3 ≤ height → k + 1 < height) := by
  have hOffset : (s.settle (some e) count height).offset =
      min (e.line - 1 - height / 2) (count - height) := by
    simp [settle, h]
  refine ⟨e.line - 1 - (s.settle (some e) count height).offset, ?_, ?_, ?_⟩ <;> rw [hOffset] <;>
    omega

theorem getElem?_visibleRows {rows : List Line} {offset height k : Nat} (hk : k < height) :
    (visibleRows rows offset height)[k]? = rows[offset + k]? := by
  rw [visibleRows, List.getElem?_take_of_lt hk, List.getElem?_drop]

/-- What a frame hands to the source pane is in view from the settled offset on. -/
theorem Viewer.getElem?_render {v : Viewer} {split : Splitter} {screen : Area} {k : Nat}
    (hk : k < viewHeight (v.render split screen).1.source.area.height) :
    (v.render split screen).1.source.paragraph.lines[k]? =
      (sourceRows v.source v.error?)[(v.render split screen).2.scroll.offset + k]? :=
  getElem?_visibleRows hk

/-! ## The next frame -/

/-- **The next frame shows the failing line.**  Whatever keys were pressed and whatever frames were
drawn, however a toolkit divides its screens: let nothing have been drawn yet, or `g` have been
pressed since.  The next frame hands lines to the source pane, and none of them goes on in a second
row.  If there is room for a row inside the border, there is room for all these lines, and the
failing line is among them, with its number and its text; with room for three, so is the caret right
below it. -/
theorem error_brought_into_view {checker : Checker} {text : List UInt8} {e : SyntaxError}
    (hError : (checker.check text).lastError? = some e) (file : String) (split : Splitter)
    {events : List Event} (hAsks : Asks events) (screen : Area) :
    let source := Utf8.lossy text
    let v := (Viewer.ofChecker file source (checker.check text)).reactAll split events
    let pane := (v.render split screen).1.source
    let inner := pane.area.height - 2
    (1 ≤ e.line ∧ e.line ≤ (lines source).length + 1) ∧
      rowText (errorRow source e) =
        (gutter e.line).toList ++ ((lines source)[e.line - 1]?.getD "").toList ∧
      pane.paragraph.wrap? = none ∧
      (1 ≤ inner → pane.paragraph.lines.length ≤ inner ∧
        ∃ k < inner, pane.paragraph.lines[k]? = some (errorRow source e) ∧
          (3 ≤ inner → k + 1 < inner ∧ pane.paragraph.lines[k + 1]? = some (caretRow e))) := by
  intro source v pane inner
  have hLine : 1 ≤ e.line ∧ e.line ≤ (lines source).length + 1 := Grammar.line_le_of_check hError
  refine ⟨hLine, rowText_errorRow source e, rfl, fun hRoom => ?_⟩
  have hFollows : v.Follows source e :=
    hAsks.follows (Viewer.follows_ofChecker hError file source)
  have hErrorRow := getElem?_errorRow hLine.1 hLine.2
  have hCaretRow := getElem?_caretRow hLine.1 hLine.2
  have hCount : e.line < (sourceRows source (some e)).length :=
    (List.getElem?_eq_some_iff.1 hCaretRow).1
  have hHeight : viewHeight pane.area.height = inner := Nat.max_eq_left hRoom
  have hShown : ∀ k < inner, pane.paragraph.lines[k]? =
      (sourceRows source (some e))[(v.render split screen).2.scroll.offset + k]? := by
    intro k hk
    rw [← hFollows.source_eq, ← hFollows.error?_eq]
    exact Viewer.getElem?_render (hHeight ▸ hk)
  have hOffset : (v.render split screen).2.scroll.offset =
      (v.scroll.settle (some e) (sourceRows source (some e)).length inner).offset := by
    rw [← hHeight, ← hFollows.source_eq, ← hFollows.error?_eq]
    rfl
  obtain ⟨k, hk, hPlace, hCaret⟩ :=
    Scroll.settle_follow hFollows.follow_eq hLine.1 hCount hRoom
  rw [← hOffset] at hPlace
  refine ⟨?_, k, hk, ?_, ?_⟩
  · rw [← hHeight]
    exact List.length_take_le _ _
  · rw [hShown k hk, hPlace, hErrorRow]
  · intro hThree
    refine ⟨hCaret hThree, ?_⟩
    rw [hShown _ (hCaret hThree), ← Nat.add_assoc, hPlace, Nat.sub_add_cancel hLine.1, hCaretRow]

/-- In `x=1;`, a line feed and `y=;` the second line fails.  A frame was drawn, and behind the `g`
pressed since the view was moved to the first row; the next frame shows the line nevertheless. -/
theorem error_brought_into_view_home :
    let text : List UInt8 := [0x78, 0x3d, 0x31, 0x3b, 0x0a, 0x79, 0x3d, 0x3b]
    let e : SyntaxError := ⟨.invalidNumber, 7, 2, 3, ";"⟩
    let screen := plainScreen 40 9
    let events : List Event := [.frame screen, .key (.char 'g'), .key .home]
    let v := (Viewer.ofChecker "a" (Utf8.lossy text) ((Checker.new .standard).check text)).reactAll
      plainSplit events
    let pane := (v.render plainSplit screen).1.source
    ((Checker.new .standard).check text).lastError? = some e ∧ Asks events ∧
      pane.area.height = 6 ∧
      ∃ k, k + 1 < pane.area.height - 2 ∧
        pane.paragraph.lines[k]? = some (errorRow (Utf8.lossy text) e) ∧
        pane.paragraph.lines[k + 1]? = some (caretRow e) := by
  intro text e screen events v pane
  have hError : ((Checker.new .standard).check text).lastError? = some e := by decide +kernel
  have hAsks : Asks events :=
    .inr ⟨[.frame screen], [.key .home], rfl, by simp [Undrawn]⟩
  have hHeight : pane.area.height = 6 := by
    show (plainSplit .vertical (.percentage 75, .percentage 25)
      (plainSplit .vertical (.min 0, .length 1) screen).1).1.height = 6
    decide
  have hRoom : 3 ≤ pane.area.height - 2 := by omega
  obtain ⟨-, -, -, hShown⟩ := error_brought_into_view hError "a" plainSplit hAsks screen
  obtain ⟨-, k, -, hRow, hCaret⟩ := hShown (Nat.le_of_succ_le (Nat.le_of_succ_le hRoom))
  obtain ⟨hLt, hCaretRow⟩ := hCaret hRoom
  exact ⟨hError, hAsks, hHeight, k, hLt, hRow, hCaretRow⟩

end ScriptCheck.View
