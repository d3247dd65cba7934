import Mathlib.Data.List.Induction
import Mathlib.Logic.Relation
import ScriptCheck.Proofs.Terminals

/-!
# Scanning

Whoever holds a cursor may move it by five kinds of step, in any order and number.  This file says
what is true of the cursor wherever they lead it.

* `ScanStep`, `Cursor.scan` — a step, and the cursor behind it, whether the step finds what it looks
  for or not.  A token may be noted only from a place that is not behind the cursor
  (`ScanStep.Allowed`).
* `Cursor.Sound` — the line counters are those of the bytes passed, and the token lies among these
  bytes.  One step keeps that (`Cursor.Sound.scan`), and so does any number of them
  (`Scans.sound`).
* `scanned_cursor_sound` — **what a scan can rely on**: the place, its line and column, the errors
  built there, and that a step which does not find its terminal changes nothing.
-/

namespace ScriptCheck.Source

variable {text : List UInt8}

/-! ## Steps -/

/-- A step of a scan. -/
inductive ScanStep where
  /-- Over one byte. -/
  | bump
  /-- Over the gap at the place. -/
  | skipGap
  /-- Over a byte that is asked for, and the gap behind it. -/
  | expect (b : UInt8)
  /-- Over a word, if it is there, and the gap behind it. -/
  | skipWord (word : List UInt8)
  /-- Notes the bytes since `start` as the token. -/
  | setToken (start : Nat)

/-- Whether the step may be made: no token starts behind the cursor. -/
def ScanStep.Allowed (c : Cursor text) : ScanStep → Prop
  | setToken start => start ≤ c.position
  | _ => True

/-- The cursor behind a step.  A step that does not find its terminal leaves it where it was. -/
def Cursor.scan (c : Cursor text) : ScanStep → Cursor text
  | .bump => c.bump
  | .skipGap => c.skipGap
  | .expect b =>
    match c.expect b with
    | .ok d => d
    | .error _ => c
  | .skipWord word => (c.skipWord? word).getD c
  | .setToken start => c.setToken start

/-- One step that may be made leads from `c` to `d`. -/
def Scan (c d : Cursor text) : Prop := ∃ step : ScanStep, step.Allowed c ∧ c.scan step = d

/-- Any number of steps. -/
abbrev Scans : Cursor text → Cursor text → Prop := Relation.ReflTransGen Scan

/-! ## Where a line starts -/

/-- The line of `position` starts at `start`: there the text starts or a line feed has just ended a
line, and no line feed has been passed since. -/
def LineStartsAt (text : List UInt8) (position start : Nat) : Prop :=
  start ≤ position ∧ (start = 0 ∨ text[start - 1]? = some lineFeed) ∧
    lineFeed ∉ (text.take position).drop start

theorem lineStartAfter_le (before : List UInt8) : lineStartAfter before ≤ before.length :=
  Nat.sub_le _ _

/-- The line behind the bytes `before` starts behind the last line feed among them. -/
theorem lineStartAfter_spec (before : List UInt8) :
    (lineStartAfter before = 0 ∨ before[lineStartAfter before - 1]? = some lineFeed) ∧
      lineFeed ∉ before.drop (lineStartAfter before) := by
  induction before using List.reverseRecOn with
  | nil => exact ⟨.inl rfl, by simp⟩
  | append_singleton before b ih =>
    have hLe := lineStartAfter_le before
    rw [lineStartAfter_concat]
    by_cases hb : b = lineFeed
    · rw [if_pos hb]
      refine ⟨.inr (by simp [hb]), ?_⟩
      rw [List.drop_eq_nil_of_le (by simp)]
      exact List.not_mem_nil
    · obtain ⟨hStart, hSince⟩ := ih
      rw [if_neg hb]
      constructor
      · refine hStart.imp_right fun hByte => ?_
        have hLt := (List.getElem?_eq_some_iff.1 hByte).1
        rw [List.getElem?_append_left hLt, hByte]
      · rw [List.drop_append_of_le_length hLe, List.mem_append, List.mem_singleton]
        rintro (hMem | hEq)
        · exact hSince hMem
        · exact hb hEq.symm

/-- The bytes up to a place tell where its line starts. -/
theorem lineStartsAt_lineStartAfter {text : List UInt8} {position : Nat}
    (h : position ≤ text.length) :
    LineStartsAt text position (lineStartAfter (text.take position)) := by
  have hLength : (text.take position).length = position := List.length_take_of_le h
  have hLe := lineStartAfter_le (text.take position)
  obtain ⟨hStart, hSince⟩ := lineStartAfter_spec (text.take position)
  refine ⟨by omega, hStart.imp_right fun hByte => ?_, hSince⟩
  have hLt := (List.getElem?_eq_some_iff.1 hByte).1
  rwa [List.getElem?_take_of_lt (by omega)] at hByte

/-! ## What every step keeps -/

namespace Cursor

/-- The line counters are those of the bytes passed, and the token lies among these bytes. -/
structure Sound (c : Cursor text) : Prop where
  exact : c.Exact
  token_le : c.token.stop ≤ c.position

theorem sound_start (text : List UInt8) : (start text).Sound := ⟨exact_start text, Nat.le_refl 0⟩

theorem position_le_advance (n : Nat) (c : Cursor text) : c.position ≤ (c.advance n).position := by
  have := c.position_le
  rw [position_advance]
  omega

theorem position_le_skipGap (c : Cursor text) : c.position ≤ c.skipGap.position :=
  position_le_advance _ c

theorem Sound.lineStart_le {c : Cursor text} (h : c.Sound) : c.lineStart ≤ c.position := by
  rw [h.exact.lineStart_eq]
  exact (lineStartsAt_lineStartAfter c.position_le).1

theorem Sound.advance {c : Cursor text} (h : c.Sound) (n : Nat) : (c.advance n).Sound := by
  refine ⟨h.exact.advance n, ?_⟩
  rw [token_advance]
  exact h.token_le.trans (position_le_advance n c)

theorem Sound.bump {c : Cursor text} (h : c.Sound) : c.bump.Sound := h.advance 1

theorem Sound.skipGap {c : Cursor text} (h : c.Sound) : c.skipGap.Sound := h.advance _

theorem Sound.setToken {c : Cursor text} (h : c.Sound) {start : Nat} (hLe : start ≤ c.position) :
    (c.setToken start).Sound := by
  refine ⟨⟨h.exact.line_eq, h.exact.lineStart_eq⟩, ?_⟩
  show start + (c.position - start) ≤ c.position
  omega

/-- A step that finds its byte is the movement over it, and one that does not is none. -/
theorem scan_expect (c : Cursor text) (b : UInt8) :
    c.scan (.expect b) = if c.isAt b then c.bump.skipGap else c := by
  rw [scan, Cursor.expect]
  by_cases h : c.isAt b = true
  · rw [if_pos h, if_pos h]
  · rw [if_neg h, if_neg h]

theorem scan_skipWord (c : Cursor text) (word : List UInt8) :
    c.scan (.skipWord word) =
      if word.isPrefixOf c.rest then (c.advance word.length).skipGap else c := by
  rw [scan, Cursor.skipWord?]
  split <;> rfl

/-- **One step keeps a cursor sound.** -/
theorem Sound.scan {c : Cursor text} (h : c.Sound) {step : ScanStep} (hAllowed : step.Allowed c) :
    (c.scan step).Sound := by
  cases step with
  | bump => exact h.bump
  | skipGap => exact h.skipGap
  | expect b =>
    rw [scan_expect]
    split
    · exact h.bump.skipGap
    · exact h
  | skipWord word =>
    rw [scan_skipWord]
    split
    · exact (h.advance _).skipGap
    · exact h
  | setToken start => exact h.setToken hAllowed

/-- No step leads back. -/
theorem position_le_scan (c : Cursor text) (step : ScanStep) :
    c.position ≤ (c.scan step).position := by
  cases step with
  | bump => exact position_le_advance 1 c
  | skipGap => exact position_le_skipGap c
  | expect b =>
    rw [scan_expect]
    split
    · exact (position_le_advance 1 c).trans (position_le_skipGap _)
    · exact Nat.le_refl _
  | skipWord word =>
    rw [scan_skipWord]
    split
    · exact (position_le_advance _ c).trans (position_le_skipGap _)
    · exact Nat.le_refl _
  | setToken start => exact Nat.le_refl _

end Cursor

/-- **Any number of steps keeps a cursor sound.** -/
theorem Scans.sound {c d : Cursor text} (h : Scans c d) (hc : c.Sound) : d.Sound := by
  induction h with
  | refl => exact hc
  | tail _ hStep ih =>
    obtain ⟨step, hAllowed, rfl⟩ := hStep
    exact ih.scan hAllowed

/-! ## What a scan can rely on -/

/-- The bytes that an error quotes are the next ten, or as many as there are. -/
theorem Cursor.take_rest (c : Cursor text) (n : Nat) :
    c.rest.take n = (text.take (min (c.position + n) text.length)).drop c.position := by
  have := c.position_le
  rw [c.rest_eq, List.drop_take]
  rcases Nat.le_total (c.position + n) text.length with hLe | hLe
  · rw [Nat.min_eq_left hLe, Nat.add_sub_cancel_left]
  · rw [Nat.min_eq_right hLe, List.take_of_length_le (by rw [List.length_drop]; omega),
      List.take_of_length_le (by rw [List.length_drop])]

theorem Cursor.isAt_iff (c : Cursor text) (b : UInt8) :
    c.isAt b = true ↔ text[c.position]? = some b := by
  rw [isAt, peek?, c.rest_eq, List.head?_drop, beq_iff_eq]

/-- **What a scan can rely on.**  Wherever any number of steps leads from the start of a text, the
place lies in the text, its line and column count the bytes passed, and the token lies among these.
An error built there names this place and quotes the bytes that follow.  No further step leads back,
and a step that does not find its terminal changes nothing. -/
theorem scanned_cursor_sound {c : Cursor text} (h : Scans (.start text) c) :
    (c.position ≤ text.length ∧ c.line = 1 + (text.take c.position).count lineFeed ∧
      LineStartsAt text c.position c.lineStart ∧ c.column = c.position - c.lineStart + 1 ∧
      c.token.stop ≤ c.position) ∧
    (∀ cause, c.error cause = ⟨cause, c.position, c.line, c.column,
      Text.Utf8.lossy ((text.take (min (c.position + 10) text.length)).drop c.position)⟩) ∧
    (∀ step : ScanStep, step.Allowed c → c.position ≤ (c.scan step).position) ∧
    (∀ b, text[c.position]? ≠ some b →
      c.expect b = .error (c.error (.expected (Char.ofNat b.toNat))) ∧
        c.scan (.expect b) = c) ∧
    ∀ word, ¬ word <+: text.drop c.position →
      c.skipWord? word = none ∧ c.scan (.skipWord word) = c := by
  have hSound : c.Sound := h.sound (Cursor.sound_start text)
  refine ⟨⟨c.position_le, ?_, ?_, rfl, hSound.token_le⟩, ?_, ?_, ?_, ?_⟩
  · rw [hSound.exact.line_eq, lineAfter, Nat.add_comm]
  · rw [hSound.exact.lineStart_eq]
    exact lineStartsAt_lineStartAfter c.position_le
  · intro cause
    rw [← c.take_rest]
    rfl
  · intro step _
    exact c.position_le_scan step
  · intro b hb
    have hNot : ¬ c.isAt b = true := (c.isAt_iff b).not.2 hb
    rw [Cursor.scan_expect, Cursor.expect, if_neg hNot, if_neg hNot]
    exact ⟨rfl, rfl⟩
  · intro word hWord
    rw [← c.rest_eq, ← List.isPrefixOf_iff_prefix] at hWord
    rw [Cursor.scan_skipWord, Cursor.skipWord?, if_neg hWord, if_neg hWord]
    exact ⟨rfl, rfl⟩

/-- `a`, a line feed, `//b`, a line feed and ` c`: behind the first byte and its gap lies the second
column of the third line.  No other byte than `c` is found there. -/
theorem scanned_cursor_sound_comment :
    let c := ((Cursor.start [0x61, 0x0a, 0x2f, 0x2f, 0x62, 0x0a, 0x20, 0x63]).scan
      (.expect 0x61)).scan (.setToken 0)
    c.position = 7 ∧ c.line = 3 ∧ c.column = 2 ∧
      LineStartsAt [0x61, 0x0a, 0x2f, 0x2f, 0x62, 0x0a, 0x20, 0x63] 7 6 ∧ c.token.stop ≤ 7 ∧
      c.scan (.expect 0x62) = c := by
  have hScans : Scans (Cursor.start [0x61, 0x0a, 0x2f, 0x2f, 0x62, 0x0a, 0x20, 0x63])
      (((Cursor.start [0x61, 0x0a, 0x2f, 0x2f, 0x62, 0x0a, 0x20, 0x63]).scan
        (.expect 0x61)).scan (.setToken 0)) :=
    .tail (.single ⟨.expect 0x61, trivial, rfl⟩) ⟨.setToken 0, Nat.zero_le _, rfl⟩
  obtain ⟨⟨-, hLine, hStart, hColumn, hToken⟩, -, -, hExpect, -⟩ := scanned_cursor_sound hScans
  exact ⟨rfl, hLine, hColumn, hStart, hToken, (hExpect 0x62 (by decide)).2⟩

end ScriptCheck.Source
