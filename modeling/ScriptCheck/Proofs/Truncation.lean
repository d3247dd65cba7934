import Mathlib.Data.String.Basic
import Mathlib.Order.Bounds.Basic
import ScriptCheck.Text.Bounded

/-!
# Where a long text is cut

`Bounded.ofString` keeps the characters that fit, counted from the front.  Whoever has the bytes of
a text at hand goes the other way: from the last byte that fits back to where a character ends.
This file shows that both keep the same, and that they could not keep more.

* `Boundary` — a number of bytes behind which a character ends; `boundary_iff` says it of
  characters.
* `fitting_isGreatest` — **what fits is the longest start that does**; a text that is cut loses less
  than one character of its room (`room_lt_fitting`).
* `boundaryBefore?` — the search backwards, which fails if it comes to less than zero.
  `exists_boundaryBefore` — **it finds the last boundary**.
* `Bounded.overwrite?` — a buffer is searched for, cleared and filled, byte by byte.
* `overwritten_with_longest_start` — **the buffer then holds the longest start that fits**, and
  nothing of what it held before.
-/

namespace ScriptCheck.Text

/-! ## Boundaries -/

/-- Behind `n` bytes of the text a character ends, or the text starts. -/
def Boundary (text : String) (n : Nat) : Prop := (⟨n⟩ : String.Pos.Raw).IsValid text

instance (text : String) (n : Nat) : Decidable (Boundary text n) :=
  decidable_of_iff ((⟨n⟩ : String.Pos.Raw).isValid text = true) String.Pos.Raw.isValid_eq_true_iff

/-- The boundaries are the sizes of the starts of a text. -/
theorem boundary_iff {text : String} {n : Nat} :
    Boundary text n ↔ ∃ kept, kept <+: text.toList ∧ String.utf8Len kept = n := by
  rw [Boundary, String.Pos.Raw.isValid_iff_exists_append]
  constructor
  · rintro ⟨s, t, rfl, hn⟩
    refine ⟨s.toList, ⟨t.toList, String.toList_append.symm⟩, ?_⟩
    rw [String.utf8Len_toList]
    exact (congrArg String.Pos.Raw.byteIdx hn).symm
  · rintro ⟨kept, ⟨rest, hText⟩, hn⟩
    refine ⟨String.ofList kept, String.ofList rest, ?_, ?_⟩
    · rw [← String.ofList_append, hText, String.ofList_toList]
    · rw [String.rawEndPos, String.utf8ByteSize_ofList, hn]

/-! ## What fits -/

theorem fitting_isPrefix (room : Nat) (cs : List Char) : fitting room cs <+: cs := by
  induction cs generalizing room with
  | nil => exact List.prefix_rfl
  | cons c cs ih =>
    rw [fitting]
    split
    · exact (List.prefix_cons_inj c).2 (ih _)
    · exact List.nil_prefix

theorem utf8Len_fitting_le (room : Nat) (cs : List Char) :
    String.utf8Len (fitting room cs) ≤ room := by
  induction cs generalizing room with
  | nil => exact Nat.zero_le room
  | cons c cs ih =>
    rw [fitting]
    split
    · rename_i hFits
      have := ih (room - c.utf8Size)
      rw [String.utf8Len_cons]
      omega
    · exact Nat.zero_le room

/-- Every start that fits is a start of what is kept. -/
theorem isPrefix_fitting {room : Nat} {kept cs : List Char} (h : kept <+: cs)
    (hRoom : String.utf8Len kept ≤ room) : kept <+: fitting room cs := by
  induction kept generalizing room cs with
  | nil => exact List.nil_prefix
  | cons c kept ih =>
    obtain ⟨rest, rfl⟩ := h
    rw [String.utf8Len_cons] at hRoom
    rw [List.cons_append, fitting, if_pos (by omega), List.prefix_cons_inj]
    exact ih (List.prefix_append kept rest) (by omega)

theorem utf8Len_le_of_isPrefix {cs ds : List Char} (h : cs <+: ds) :
    String.utf8Len cs ≤ String.utf8Len ds := by
  obtain ⟨rest, rfl⟩ := h
  rw [String.utf8Len_append]
  omega

/-- **What fits is the longest start that does.** -/
theorem fitting_isGreatest (room : Nat) (text : String) :
    IsGreatest {n | n ≤ room ∧ Boundary text n} (String.utf8Len (fitting room text.toList)) := by
  refine ⟨⟨utf8Len_fitting_le room _, boundary_iff.2 ⟨_, fitting_isPrefix room _, rfl⟩⟩, ?_⟩
  rintro n ⟨hRoom, hn⟩
  obtain ⟨kept, hKept, rfl⟩ := boundary_iff.1 hn
  exact utf8Len_le_of_isPrefix (isPrefix_fitting hKept hRoom)

/-- A character that does not fit takes more than the room that is left, and at most four bytes. -/
theorem room_lt_fitting {room : Nat} {cs : List Char} (h : room < String.utf8Len cs) :
    room < String.utf8Len (fitting room cs) + 4 := by
  induction cs generalizing room with
  | nil => exact absurd h (Nat.not_lt_zero room)
  | cons c cs ih =>
    have hSize := c.utf8Size_le_four
    rw [String.utf8Len_cons] at h
    rw [fitting]
    split
    · have hRest : room - c.utf8Size < String.utf8Len cs := by omega
      have := ih hRest
      rw [String.utf8Len_cons]
      omega
    · rw [String.utf8Len_nil]
      omega

/-! ## Searching backwards -/

/-- The nearest boundary at `n` bytes or before, looked for backwards.  There is nothing before
zero. -/
def boundaryBefore? (text : String) : Nat → Option Nat
  | 0 => if Boundary text 0 then some 0 else none
  | n + 1 => if Boundary text (n + 1) then some (n + 1) else boundaryBefore? text n

/-- **The search finds the last boundary**, at zero if not before. -/
theorem exists_boundaryBefore (text : String) (n : Nat) :
    ∃ m, boundaryBefore? text n = some m ∧ IsGreatest {k | k ≤ n ∧ Boundary text k} m := by
  induction n with
  | zero =>
    have hZero : Boundary text 0 := String.Pos.Raw.isValid_zero
    exact ⟨0, by rw [boundaryBefore?, if_pos hZero], ⟨Nat.le_refl 0, hZero⟩, fun k hk => hk.1⟩
  | succ n ih =>
    by_cases h : Boundary text (n + 1)
    · exact ⟨n + 1, by rw [boundaryBefore?, if_pos h], ⟨Nat.le_refl _, h⟩, fun k hk => hk.1⟩
    · obtain ⟨m, hm, ⟨hLe, hBoundary⟩, hMost⟩ := ih
      refine ⟨m, by rw [boundaryBefore?, if_neg h, hm], ⟨Nat.le_succ_of_le hLe, hBoundary⟩, ?_⟩
      rintro k ⟨hk, hBoundary'⟩
      have hNe : k ≠ n + 1 := by
        rintro rfl
        exact h hBoundary'
      exact hMost ⟨by omega, hBoundary'⟩

/-! ## Overwriting a buffer -/

/-- Puts `text` in the place of what `old` holds.  The end of what is kept is looked for backwards
from the last byte that fits; then the buffer is cleared, and the bytes up to the end are added.
Nothing comes of it if there is no such end, or if the bytes are no text. -/
def Bounded.overwrite? (old : Bounded) (text : String) : Option Bounded := do
  let stop ← boundaryBefore? text (min text.utf8ByteSize capacity)
  let kept ← String.fromUTF8? (text.toUTF8.extract 0 stop)
  let cleared := { old with text := "" }
  return { cleared with
    text := cleared.text ++ kept
    truncated := decide (stop < text.utf8ByteSize) }

theorem Boundary.le_size {text : String} {n : Nat} (h : Boundary text n) :
    n ≤ text.utf8ByteSize :=
  String.Pos.Raw.IsValid.le_rawEndPos h

theorem fromUTF8?_toUTF8 (text : String) : String.fromUTF8? text.toUTF8 = some text := by
  rw [String.toUTF8_eq_toByteArray, String.fromUTF8?, dif_pos text.isValidUTF8]
  rfl

namespace Bounded

variable (text : String)

/-- What is kept of a text ends at the last boundary that fits. -/
theorem isGreatest_ofString :
    IsGreatest {n | n ≤ capacity ∧ Boundary text n} (ofString text).text.utf8ByteSize := by
  rw [ofString, String.utf8ByteSize_ofList]
  exact fitting_isGreatest capacity text

/-- What is kept of a text are its bytes up to there. -/
theorem toUTF8_ofString : (ofString text).text.toUTF8 =
    text.toUTF8.extract 0 (ofString text).text.utf8ByteSize := by
  obtain ⟨rest, hRest⟩ := fitting_isPrefix capacity text.toList
  have hText : (ofString text).text ++ String.ofList rest = text := by
    rw [ofString, ← String.ofList_append, hRest, String.ofList_toList]
  have hBytes : text.toUTF8 =
      (ofString text).text.toByteArray ++ (String.ofList rest).toByteArray := by
    rw [← String.toByteArray_append, hText, String.toUTF8_eq_toByteArray]
  rw [hBytes, ByteArray.extract_append_eq_left String.size_toByteArray.symm,
    String.toUTF8_eq_toByteArray]

/-- A text is cut exactly if it is longer than what is kept of it. -/
theorem truncated_ofString :
    (ofString text).truncated = decide ((ofString text).text.utf8ByteSize < text.utf8ByteSize) := by
  have hGreatest := isGreatest_ofString text
  refine decide_eq_decide.2 ⟨fun h => Nat.lt_of_le_of_lt hGreatest.1.1 h, fun h => ?_⟩
  by_contra hFits
  have hSize : Boundary text text.utf8ByteSize :=
    boundary_iff.2 ⟨text.toList, List.prefix_rfl, String.utf8Len_toList text⟩
  exact absurd (hGreatest.2 ⟨Nat.le_of_not_lt hFits, hSize⟩) (Nat.not_le_of_lt h)

/-- The search backwards ends where what is kept does. -/
theorem boundaryBefore?_eq : boundaryBefore? text (min text.utf8ByteSize capacity) =
    some (ofString text).text.utf8ByteSize := by
  obtain ⟨stop, hStop, hGreatest⟩ := exists_boundaryBefore text (min text.utf8ByteSize capacity)
  -- no boundary lies behind the end of the text, so the capacity alone limits the search
  have hRange : {n | n ≤ min text.utf8ByteSize capacity ∧ Boundary text n} =
      {n | n ≤ capacity ∧ Boundary text n} := by
    ext n
    refine and_congr_left fun hn => ?_
    have := hn.le_size
    omega
  rw [hRange] at hGreatest
  rw [hStop, hGreatest.unique (isGreatest_ofString text)]

/-- **Overwriting stores the text**, whatever was stored before. -/
theorem overwrite?_eq (old : Bounded) : old.overwrite? text = some (ofString text) := by
  rw [overwrite?, boundaryBefore?_eq, Option.bind_eq_bind, Option.bind_some, ← toUTF8_ofString,
    fromUTF8?_toUTF8, Option.bind_eq_bind, Option.bind_some, ← truncated_ofString]
  show some (⟨"" ++ (ofString text).text, (ofString text).truncated⟩ : Bounded) = _
  rw [String.empty_append]

end Bounded

/-- **A buffer holds the longest start that fits.**  Whatever it held before, once a text is put
into it nothing of that is left.  The search for the end of what is kept does not fall below zero.
It ends at the last boundary between characters that leaves at most 99 bytes, and the bytes up to
there are kept.  The buffer says that they were cut exactly if the text has more than 99 bytes, and
then it holds at least 96. -/
theorem overwritten_with_longest_start (old : Bounded) (text : String) :
    ∃ stored, old.overwrite? text = some stored ∧ stored = Bounded.ofString text ∧
      boundaryBefore? text (min text.utf8ByteSize 99) = some stored.text.utf8ByteSize ∧
      IsGreatest {n | n ≤ 99 ∧ Boundary text n} stored.text.utf8ByteSize ∧
      stored.text.toUTF8 = text.toUTF8.extract 0 stored.text.utf8ByteSize ∧
      (stored.truncated = true ↔ 99 < text.utf8ByteSize) ∧
      (stored.truncated = true → 96 ≤ stored.text.utf8ByteSize) := by
  have hCut : (Bounded.ofString text).truncated = true ↔ 99 < text.utf8ByteSize :=
    decide_eq_true_iff
  refine ⟨Bounded.ofString text, Bounded.overwrite?_eq text old, rfl,
    Bounded.boundaryBefore?_eq text, Bounded.isGreatest_ofString text,
    Bounded.toUTF8_ofString text, hCut, fun h => ?_⟩
  have hLong : Bounded.capacity < String.utf8Len text.toList := by
    rw [String.utf8Len_toList]
    exact hCut.1 h
  have hKept : 99 < String.utf8Len (fitting Bounded.capacity text.toList) + 4 :=
    room_lt_fitting hLong
  rw [Bounded.ofString, String.utf8ByteSize_ofList]
  omega

end ScriptCheck.Text
