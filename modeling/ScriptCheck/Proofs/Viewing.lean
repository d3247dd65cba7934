import Mathlib.Algebra.Group.Nat.Even
import ScriptCheck.Proofs.Following

/-!
# What a viewer goes through

Keys move the offset of the view without looking at the rows, and frames bring it back to where rows
are, each according to its height.  This file says what holds of a viewer whatever keys and frames
it went through.

* `Viewed` — what is known of a viewer after a history: its subject is the same, and the history
  tells whether it is to quit and which pane has the focus.  One event keeps that (`Viewed.react`),
  and so does any number of them (`Viewed.reactAll`).
* `Scroll.settle_settle`, `Scroll.settle_comm` — the laws of settling: once is enough, and two
  heights may settle in either order.
* `viewer_state_after_events` — **the state of a viewer after any run**, and what its next frame
  does.
-/

namespace ScriptCheck.View

/-! ## Keys -/

namespace Viewer

namespace Deed

variable {v v' : Viewer} {k : Key}

theorem quit_iff (h : Deed v k v') : v'.quit = true ↔ v.quit = true ∨ k ∈ quitKeys := by
  cases h with
  | quit hQuit => simp [hQuit]
  | focus | follow => simp [quitKeys]
  | move hQuit => simp [hQuit]

theorem focus_eq (h : Deed v k v') :
    v'.focus = if k = .tab then v.focus.next else v.focus := by
  cases h with
  | quit hQuit =>
    have hTab : k ≠ .tab := by
      rintro rfl
      exact absurd hQuit (by decide)
    rw [if_neg hTab]
  | focus | follow => rfl
  | move _ hTab => rw [if_neg hTab]

/-- A key that makes the viewer follow a line does so only if there is one that fails. -/
theorem isSome_of_follow (h : Deed v k v')
    (hBefore : v.scroll.follow = true → v.error?.isSome = true)
    (hFollow : v'.scroll.follow = true) : v'.error?.isSome = true := by
  cases h with
  | follow hError => simp [hError]
  | quit | focus | move => exact hBefore hFollow

end Deed

/-! ## Histories -/

/-- What is known of a viewer that `checker` was shown in, after the events `events`. -/
structure Viewed (file source : String) (checker : Checker) (events : List Event) (v : Viewer) :
    Prop where
  file_eq : v.file = file
  source_eq : v.source = source
  error?_eq : v.error? = checker.lastError?
  message_eq : v.message = checker.message
  quit_iff : v.quit = true ↔ ∃ k ∈ quitKeys, Event.key k ∈ events
  focus_iff : v.focus = .source ↔ Even (events.count (.key .tab))
  /-- Only a failing line is followed. -/
  isSome_of_follow : v.scroll.follow = true → v.error?.isSome = true

section Histories

variable {file source : String} {checker : Checker} {events : List Event} {v : Viewer}

theorem viewed_ofChecker (file source : String) (checker : Checker) :
    Viewed file source checker [] (ofChecker file source checker) where
  file_eq := rfl
  source_eq := rfl
  error?_eq := rfl
  message_eq := rfl
  quit_iff := by simp [ofChecker]
  focus_iff := by simp [ofChecker]
  isSome_of_follow h := h

theorem exists_quitKey_concat (events : List Event) (k : Key) :
    (∃ k' ∈ quitKeys, Event.key k' ∈ events ++ [.key k]) ↔
      (∃ k' ∈ quitKeys, Event.key k' ∈ events) ∨ k ∈ quitKeys := by
  constructor
  · rintro ⟨k', hQuit, hMem⟩
    rcases List.mem_append.1 hMem with hMem | hMem
    · exact .inl ⟨k', hQuit, hMem⟩
    · obtain rfl : k' = k := by simpa using hMem
      exact .inr hQuit
  · rintro (⟨k', hQuit, hMem⟩ | hQuit)
    · exact ⟨k', hQuit, List.mem_append_left _ hMem⟩
    · exact ⟨k, hQuit, by simp⟩

theorem next_eq_source_iff (pane : Pane) : pane.next = .source ↔ ¬ pane = .source := by
  cases pane <;> decide

theorem Viewed.deed (h : Viewed file source checker events v) {k : Key} {v' : Viewer}
    (hDeed : Deed v k v') : Viewed file source checker (events ++ [.key k]) v' where
  file_eq := by cases hDeed <;> exact h.file_eq
  source_eq := by cases hDeed <;> exact h.source_eq
  error?_eq := by cases hDeed <;> exact h.error?_eq
  message_eq := by cases hDeed <;> exact h.message_eq
  quit_iff := by rw [exists_quitKey_concat, ← h.quit_iff, hDeed.quit_iff]
  focus_iff := by
    rw [hDeed.focus_eq, List.count_append, List.count_singleton]
    by_cases hTab : k = .tab
    · rw [if_pos hTab, next_eq_source_iff, h.focus_iff, hTab, beq_self_eq_true, if_pos rfl,
        Nat.even_add_one]
    · have hKey : (Event.key k == .key .tab) = false := by simpa using hTab
      rw [if_neg hTab, h.focus_iff, hKey, if_neg Bool.false_ne_true, Nat.add_zero]
  isSome_of_follow := hDeed.isSome_of_follow h.isSome_of_follow

/-- A frame changes nothing but where the view is. -/
theorem Viewed.render (h : Viewed file source checker events v) (split : Splitter)
    (screen : Area) :
    Viewed file source checker (events ++ [.frame screen]) (v.render split screen).2 where
  file_eq := h.file_eq
  source_eq := h.source_eq
  error?_eq := h.error?_eq
  message_eq := h.message_eq
  quit_iff := by
    rw [← show v.quit = (v.render split screen).2.quit from rfl, h.quit_iff]
    simp
  focus_iff := by
    rw [← show v.focus = (v.render split screen).2.focus from rfl, h.focus_iff, List.count_append]
    rfl
  isSome_of_follow hFollow := by cases hFollow

/-- **One event keeps what is known.** -/
theorem Viewed.react (h : Viewed file source checker events v) (split : Splitter) (event : Event) :
    Viewed file source checker (events ++ [event]) (v.react split event) := by
  cases event with
  | key k => exact h.deed (v.deed_press k)
  | frame screen => exact h.render split screen

/-- **Any number of events keeps what is known.** -/
theorem Viewed.reactAll (h : Viewed file source checker events v) (split : Splitter)
    (more : List Event) : Viewed file source checker (events ++ more) (v.reactAll split more) := by
  induction more generalizing events v with
  | nil => rwa [List.append_nil]
  | cons event more ih =>
    rw [List.append_cons]
    exact ih (h.react split event)

end Histories

end Viewer

/-! ## Frames -/

namespace Scroll

variable {s : Scroll} {error? : Option SyntaxError} {count : Nat}

/-- Without a line to follow, settling only moves back to where rows are. -/
theorem settle_of_not_follow (h : s.follow = false) (height : Nat) :
    s.settle error? count height = ⟨min s.offset (count - height), false⟩ := by
  simp [settle, h]

theorem offset_settle_le (s : Scroll) (error? : Option SyntaxError) (count height : Nat) :
    (s.settle error? count height).offset ≤ count - height :=
  Nat.min_le_right _ _

/-- Behind a frame no line is followed any more. -/
theorem settle_settle_eq (s : Scroll) (error? : Option SyntaxError) (count height height' : Nat) :
    (s.settle error? count height).settle error? count height' =
      ⟨min (s.settle error? count height).offset (count - height'), false⟩ :=
  settle_of_not_follow rfl height'

/-- A settled view stays where it is. -/
theorem settle_settle (s : Scroll) (error? : Option SyntaxError) (count height : Nat) :
    (s.settle error? count height).settle error? count height = s.settle error? count height := by
  rw [settle_settle_eq, Nat.min_eq_left (s.offset_settle_le error? count height)]
  rfl

/-- Two heights may settle a view in either order, unless a line is followed. -/
theorem settle_comm (h : s.follow = false) (height height' : Nat) :
    (s.settle error? count height).settle error? count height' =
      (s.settle error? count height').settle error? count height := by
  rw [settle_settle_eq, settle_settle_eq, settle_of_not_follow h, settle_of_not_follow h,
    Nat.min_right_comm]

end Scroll

/-- The rows in view are those from the offset on, up to the height or the last row. -/
theorem visibleRows_eq_extract (rows : List Line) (offset height : Nat) :
    visibleRows rows offset height = rows.extract offset (min rows.length (offset + height)) := by
  rw [visibleRows, List.extract_eq_take_drop]
  rcases Nat.le_total rows.length (offset + height) with hLe | hLe
  · rw [Nat.min_eq_left hLe, List.take_of_length_le (by rw [List.length_drop]; omega),
      List.take_of_length_le (by rw [List.length_drop])]
  · rw [Nat.min_eq_right hLe, Nat.add_sub_cancel_left]

namespace Viewer

/-- A frame is drawn from the viewer it leaves behind. -/
theorem render_render (v : Viewer) (split : Splitter) (screen : Area) :
    (v.render split screen).2.render split screen = v.render split screen := by
  simp only [render, sourcePane, Scroll.settle_settle]
  rfl

/-- What is handed to the source pane are the rows from the offset on. -/
theorem lines_render (v : Viewer) (split : Splitter) (screen : Area) :
    let rendered := v.render split screen
    let rows := sourceRows v.source v.error?
    let offset := rendered.2.scroll.offset
    let height := max 1 (rendered.1.source.area.height - 2)
    offset ≤ rows.length - height ∧
      rendered.1.source.paragraph.lines =
        rows.extract offset (min rows.length (offset + height)) := by
  intro rendered rows offset height
  have hHeight : height = viewHeight rendered.1.source.area.height := Nat.max_comm _ _
  rw [hHeight, ← visibleRows_eq_extract]
  exact ⟨Scroll.offset_settle_le _ _ _ _, rfl⟩

end Viewer

/-- **The state of a viewer after any run.**  Whatever keys were pressed and whatever frames were
drawn, however a toolkit divides and paints its screens: the viewer shows the same file, text, error
and message; it is to quit if and only if a key that quits was pressed; the focus is on the source
as long as the number of tabs is even; and it follows a line only if there is an error.  The next
frame, on whatever screen, leaves the view on rows there are and hands the rows from the offset on
to the source pane, and all is handed over and painted again as it is if the screen stays.  If no
line is followed, frames on two screens may be drawn in either order. -/
theorem viewer_state_after_events {Picture : Type} (toolkit : Toolkit Picture)
    (file source : String) (checker : Checker) (events : List Event) :
    let v := (Viewer.ofChecker file source checker).reactAll toolkit.split events
    let rows := sourceRows source checker.lastError?
    (v.file = file ∧ v.source = source ∧ v.error? = checker.lastError? ∧
      v.message = checker.message) ∧
    (v.quit = true ↔ ∃ k ∈ quitKeys, Event.key k ∈ events) ∧
    (v.focus = .source ↔ Even (events.count (.key .tab))) ∧
    (v.scroll.follow = true → v.error?.isSome = true) ∧
    (∀ screen,
      let rendered := v.render toolkit.split screen
      let pane := rendered.1.source
      let offset := rendered.2.scroll.offset
      let height := max 1 (pane.area.height - 2)
      rendered.2.scroll.follow = false ∧ offset ≤ rows.length - height ∧
        pane.paragraph.lines = rows.extract offset (min rows.length (offset + height)) ∧
        rendered.2.render toolkit.split screen = rendered ∧
        rendered.2.frame toolkit screen = v.frame toolkit screen) ∧
    ∀ screen screen', v.scroll.follow = false →
      ((v.render toolkit.split screen).2.render toolkit.split screen').2.scroll.offset =
        ((v.render toolkit.split screen').2.render toolkit.split screen).2.scroll.offset := by
  intro v rows
  have hViewed : v.Viewed file source checker events :=
    (Viewer.viewed_ofChecker file source checker).reactAll toolkit.split events
  have hRows : sourceRows v.source v.error? = rows := by
    rw [hViewed.source_eq, hViewed.error?_eq]
  refine ⟨⟨hViewed.file_eq, hViewed.source_eq, hViewed.error?_eq, hViewed.message_eq⟩,
    hViewed.quit_iff, hViewed.focus_iff, hViewed.isSome_of_follow, ?_, ?_⟩
  · intro screen rendered pane offset height
    obtain ⟨hOffset, hLines⟩ := v.lines_render toolkit.split screen
    rw [hRows] at hOffset hLines
    have hAgain : rendered.2.render toolkit.split screen = rendered :=
      v.render_render toolkit.split screen
    refine ⟨rfl, hOffset, hLines, hAgain, ?_⟩
    rw [Viewer.frame, Viewer.frame, hAgain]
  · intro screen screen' hFollow
    exact congrArg Scroll.offset (Scroll.settle_comm hFollow _ _)

end ScriptCheck.View
