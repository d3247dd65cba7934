import Mathlib.Data.List.TakeWhile
import ScriptCheck.Proofs.Gaps
import ScriptCheck.Source.Terminal

/-!
# Reading terminals

Every movement of a cursor in the grammar is of one kind: over a terminal and over the gap behind
it.  This file gives the movement one name, `Cursor.read`, and says what is left of the text and
which line has been reached.

* `rest_read` — reading a terminal leaves what is beyond the gap behind its bytes.
* `Cursor.Exact` — the line and its start are those of the bytes passed; every move keeps that
  (`Exact.read`), so equal bytes passed give equal lines and columns.
* `Terminal.rest_append`, `Terminal.rest_append_lineFeed` — **a read is local**: it does not notice
  that the text behind the place where it ends is exchanged.
-/

namespace ScriptCheck.Source

/-- How a terminal is spelled. -/
inductive Terminal where
  /-- One byte, whichever. -/
  | byte
  /-- The bytes of a word. -/
  | word (bytes : List UInt8)
  /-- A name, as long as it goes on. -/
  | name
  /-- A number, as long as it goes on. -/
  | number

namespace Terminal

/-- How many bytes the terminal takes at the front of a text. -/
def length : Terminal → List UInt8 → Nat
  | byte, _ => 1
  | word bytes, _ => bytes.length
  | name, s => nameLength s
  | number, s => (s.takeWhile isDigit).length

/-- What is left of a text behind the terminal and the gap after it. -/
def rest (t : Terminal) (s : List UInt8) : List UInt8 := beyondGap (s.drop (t.length s))

/-- Whether the terminal stands at the front of a text. -/
def Fits : Terminal → List UInt8 → Prop
  | byte, s => s ≠ []
  | word bytes, s => bytes ≠ [] ∧ bytes <+: s
  | name, s => ∃ b ∈ s.head?, startsName b = true
  | number, s => ∃ b ∈ s.head?, isDigit b = true

end Terminal

/-! ## Names and numbers -/

theorem nameLength_cons {b : UInt8} (hb : startsName b = true) (s : List UInt8) :
    nameLength (b :: s) = (s.takeWhile continuesName).length + 1 := by
  rw [nameLength, if_pos hb]

theorem isDigit_eq_false {b : UInt8} (hb : continuesName b = false) : isDigit b = false := by
  simp only [continuesName, isAlphanumeric, isDigit, Bool.or_eq_false_iff] at hb ⊢
  cases hClass : ByteClass.of b <;> simp_all [ByteClass.rank]

theorem not_continuesName_of_isSpace {b : UInt8} (h : isSpace b = true) :
    continuesName b = false := by
  simp only [isSpace, Bool.or_eq_true, beq_iff_eq] at h
  rcases h with ((rfl | rfl) | rfl) | rfl <;> decide

/-- No name goes on into a gap. -/
theorem Gap.head_not_continuesName {g : List UInt8} (h : Gap g []) :
    ∀ b ∈ g.head?, continuesName b = false := by
  cases h with
  | nil => simp
  | space hb _ => simpa using not_continuesName_of_isSpace (isSpace_iff.2 hb)
  | comment _ _ _ =>
    have hSlash : continuesName slash = false := by decide
    simpa using hSlash

theorem continuesName_of_isDigit {b : UInt8} (h : isDigit b = true) : continuesName b = true := by
  by_contra hName
  simp [isDigit_eq_false (Bool.eq_false_iff.2 hName)] at h

theorem continuesName_of_startsName {b : UInt8} (h : startsName b = true) :
    continuesName b = true := by
  simp only [startsName, continuesName, Bool.or_eq_true] at h ⊢
  refine h.imp_left fun hLetter => ?_
  have hRank : ByteClass.digit.rank < (ByteClass.of b).rank := of_decide_eq_true hLetter
  exact decide_eq_true (Nat.lt_trans (by decide) hRank)

/-- Names are ASCII. -/
theorem toNat_lt_of_continuesName {b : UInt8} (h : continuesName b = true) : b.toNat < 128 := by
  by_contra hb
  have hClass : ByteClass.of b = .invalid := by
    have hLe : ∀ n : UInt8, b ≤ n ↔ b.toNat ≤ n.toNat := fun _ => UInt8.le_iff_toNat_le
    have hEq : ∀ n : UInt8, b = n ↔ b.toNat = n.toNat := fun _ => UInt8.toNat_inj.symm
    unfold ByteClass.of
    simp only [hLe, hEq, UInt8.reduceToNat]
    rw [if_neg (by omega), if_neg (by omega), if_neg (by omega), if_neg (by omega)]
  simp only [continuesName, isAlphanumeric, hClass, Bool.or_eq_true, beq_iff_eq] at h
  rcases h with h | rfl
  · exact absurd h (by decide)
  · exact hb (by decide)

theorem isDigit_of_startsName {b : UInt8} (h : startsName b = true) : isDigit b = false := by
  rw [Bool.eq_false_iff]
  intro hDigit
  simp only [startsName, isLetter, isDigit, Bool.or_eq_true, decide_eq_true_eq,
    beq_iff_eq] at h hDigit
  rcases h with h | rfl
  · rw [hDigit] at h
    exact absurd h (Nat.lt_irrefl _)
  · exact absurd hDigit (by decide)

theorem Terminal.Fits.length_pos {t : Terminal} {s : List UInt8} (h : t.Fits s) :
    0 < t.length s := by
  cases t with
  | byte => exact Nat.one_pos
  | word bytes => exact List.length_pos_iff.2 h.1
  | name =>
    obtain ⟨b, hs, hb⟩ := h
    obtain ⟨s, rfl⟩ := List.head?_eq_some_iff.1 hs
    rw [length, nameLength_cons hb]
    omega
  | number =>
    obtain ⟨b, hs, hb⟩ := h
    obtain ⟨s, rfl⟩ := List.head?_eq_some_iff.1 hs
    rw [length, List.takeWhile_cons, if_pos hb]
    exact Nat.succ_pos _

theorem Terminal.Fits.length_le {t : Terminal} {s : List UInt8} (h : t.Fits s) :
    t.length s ≤ s.length := by
  cases t with
  | byte => exact List.length_pos_iff.2 h
  | word bytes => exact h.2.length_le
  | name =>
    obtain ⟨b, hs, hb⟩ := h
    obtain ⟨s, rfl⟩ := List.head?_eq_some_iff.1 hs
    rw [length, nameLength_cons hb, List.length_cons]
    exact Nat.succ_le_succ (List.takeWhile_prefix _).length_le
  | number => exact (List.takeWhile_prefix _).length_le

/-! ## The movement -/

namespace Cursor

variable {text : List UInt8}

/-- Moves over the terminal `t` and the gap behind it.  Names and numbers are noted. -/
def read (c : Cursor text) : Terminal → Cursor text
  | .byte => c.bump.skipGap
  | .word bytes => (c.advance bytes.length).skipGap
  | .name => c.takeToken (nameLength c.rest)
  | .number => c.takeToken (c.rest.takeWhile isDigit).length

@[simp] theorem rest_skipGap (c : Cursor text) : c.skipGap.rest = beyondGap c.rest := by
  rw [skipGap, rest_advance, beyondGap]

@[simp] theorem rest_setToken (c : Cursor text) (start : Nat) :
    (c.setToken start).rest = c.rest := rfl

@[simp] theorem token_setToken (c : Cursor text) (start : Nat) :
    (c.setToken start).token = ⟨start, c.position - start⟩ := rfl

theorem rest_takeToken (c : Cursor text) (n : Nat) :
    (c.takeToken n).rest = beyondGap (c.rest.drop n) := by
  rw [takeToken, rest_skipGap, rest_setToken, rest_advance]

theorem rest_read (c : Cursor text) (t : Terminal) : (c.read t).rest = t.rest c.rest := by
  cases t with
  | byte => rw [read, rest_skipGap, rest_bump, ← List.drop_one]; rfl
  | word bytes => rw [read, rest_skipGap, rest_advance]; rfl
  | name => rw [read, rest_takeToken]; rfl
  | number => rw [read, rest_takeToken]; rfl

/-- The rest of the text determines the position. -/
theorem position_add_length_rest (c : Cursor text) : c.position + c.rest.length = text.length := by
  have := c.position_le
  rw [length_rest]
  omega

/-- The bytes that are taken are noted. -/
theorem token_takeToken {c : Cursor text} {n : Nat} (h : n ≤ c.rest.length) :
    (c.takeToken n).token = ⟨c.position, n⟩ := by
  have hLength := c.position_add_length_rest
  rw [takeToken, skipGap, token_advance, token_setToken, position_advance,
    Nat.min_eq_left (by omega), Nat.add_sub_cancel_left]

theorem bytes_takeToken {c : Cursor text} {n : Nat} (h : n ≤ c.rest.length) :
    (c.takeToken n).token.bytes text = c.rest.take n := by
  rw [token_takeToken h, Span.bytes, c.rest_eq]

/-- A read that finds its terminal gets on. -/
theorem position_lt_read {c : Cursor text} {t : Terminal} (h : t.Fits c.rest) :
    c.position < (c.read t).position := by
  have hPos := h.length_pos
  have hLe := h.length_le
  have hRead : (c.read t).rest.length ≤ c.rest.length - t.length c.rest := by
    rw [rest_read, Terminal.rest, beyondGap, List.length_drop, List.length_drop]
    omega
  have h₁ := c.position_add_length_rest
  have h₂ := (c.read t).position_add_length_rest
  omega

end Cursor

/-! ## Lines -/

/-- The number of the line behind the bytes `before`. -/
def lineAfter (before : List UInt8) : Nat := before.count lineFeed + 1

/-- The number of bytes of `before` up to its last line feed. -/
def lineStartAfter (before : List UInt8) : Nat :=
  before.length - (before.reverse.takeWhile (· != lineFeed)).length

theorem lineAfter_concat (before : List UInt8) (b : UInt8) :
    lineAfter (before ++ [b]) =
      if b = lineFeed then lineAfter before + 1 else lineAfter before := by
  by_cases hb : b = lineFeed
  · simp [lineAfter, hb]
  · simp [lineAfter, hb]

theorem lineStartAfter_concat (before : List UInt8) (b : UInt8) :
    lineStartAfter (before ++ [b]) =
      if b = lineFeed then before.length + 1 else lineStartAfter before := by
  have hLe : (before.reverse.takeWhile (· != lineFeed)).length ≤ before.length := by
    simpa using (List.takeWhile_prefix (· != lineFeed) (l := before.reverse)).length_le
  by_cases hb : b = lineFeed
  · simp [lineStartAfter, hb]
  · simp [lineStartAfter, hb]

namespace Cursor

variable {text : List UInt8}

/-- The line counters are those of the bytes passed. -/
structure Exact (c : Cursor text) : Prop where
  line_eq : c.line = lineAfter (text.take c.position)
  lineStart_eq : c.lineStart = lineStartAfter (text.take c.position)

theorem exact_start (text : List UInt8) : (start text).Exact := ⟨rfl, rfl⟩

theorem Exact.bump {c : Cursor text} (h : c.Exact) : c.bump.Exact := by
  cases hRest : c.rest with
  | nil => rwa [bump_of_nil hRest]
  | cons b bs =>
    have hLt := position_lt_of_rest hRest
    have hTake : text.take (c.position + 1) = text.take c.position ++ [b] := by
      have hb : text[c.position]? = some b := by
        rw [← List.head?_drop, ← c.rest_eq, hRest]
        rfl
      rw [List.take_add_one, hb]
      rfl
    have hPosition : c.bump.position = c.position + 1 := by
      rw [position_bump]
      omega
    constructor
    · rw [hPosition, hTake, lineAfter_concat, ← h.line_eq]
      unfold Cursor.bump
      split
      · simp_all
      · rename_i hRest'
        obtain ⟨rfl, rfl⟩ := List.cons.inj (hRest.symm.trans hRest')
        rfl
    · rw [hPosition, hTake, lineStartAfter_concat, ← h.lineStart_eq]
      unfold Cursor.bump
      split
      · simp_all
      · rename_i hRest'
        obtain ⟨rfl, rfl⟩ := List.cons.inj (hRest.symm.trans hRest')
        rw [List.length_take, Nat.min_eq_left (Nat.le_of_lt hLt)]

theorem Exact.advance {c : Cursor text} (h : c.Exact) (n : Nat) : (c.advance n).Exact := by
  induction n generalizing c with
  | zero => exact h
  | succ n ih => exact ih h.bump

theorem Exact.skipGap {c : Cursor text} (h : c.Exact) : c.skipGap.Exact := h.advance _

theorem Exact.read {c : Cursor text} (h : c.Exact) (t : Terminal) : (c.read t).Exact := by
  have hToken : ∀ n, (c.takeToken n).Exact := by
    intro n
    have hMove : (c.advance n).Exact := h.advance n
    exact Exact.skipGap (c := (c.advance n).setToken c.position) ⟨hMove.1, hMove.2⟩
  cases t with
  | byte => exact h.bump.skipGap
  | word bytes => exact (h.advance _).skipGap
  | name => exact hToken _
  | number => exact hToken _

/-- The bytes passed determine the line and the column. -/
theorem Exact.same_line {s s' : List UInt8} {c : Cursor s} {d : Cursor s'} (hc : c.Exact)
    (hd : d.Exact) (hPosition : d.position = c.position)
    (hTake : s'.take c.position = s.take c.position) : d.line = c.line ∧ d.column = c.column := by
  constructor
  · rw [hd.line_eq, hc.line_eq, hPosition, hTake]
  · rw [Cursor.column, Cursor.column, hd.lineStart_eq, hc.lineStart_eq, hPosition, hTake]

end Cursor

/-! ## Exchanging what follows -/

/-- Bytes that settle whether a gap starts at their front: at least one, and two if the first is a
slash. -/
def Settles (w : List UInt8) : Prop := w ≠ [] ∧ (w.head? = some slash → 2 ≤ w.length)

theorem settles_of_ne {w : List UInt8} (hNil : w ≠ []) (hSlash : w ≠ [slash]) : Settles w := by
  refine ⟨hNil, fun hHead => ?_⟩
  obtain ⟨w, rfl⟩ := List.head?_eq_some_iff.1 hHead
  cases w with
  | nil => exact absurd rfl hSlash
  | cons b w => simp

theorem Settles.startsComment_append {w u : List UInt8} (h : Settles w)
    (hu : startsComment (w ++ u) = false) (v : List UInt8) : startsComment (w ++ v) = false := by
  match w with
  | [] => exact absurd rfl h.1
  | [b] =>
    -- a byte that settles it alone is no slash
    rw [Bool.eq_false_iff]
    intro hv
    obtain ⟨x, hx⟩ := startsComment_iff.1 hv
    have hb : b = slash := (List.cons.inj hx).1
    exact absurd (h.2 (by simp [hb])) (by simp)
  | b :: c :: w =>
    rw [← hu]
    exact startsComment_cons_cons b c _ _

/-- A line feed behind the known bytes starts no comment among them. -/
theorem startsComment_append_lineFeed {w u : List UInt8} (hw : w ≠ [])
    (hu : startsComment (w ++ u) = false) (y : List UInt8) :
    startsComment (w ++ lineFeed :: y) = false := by
  match w with
  | [] => exact absurd rfl hw
  | [b] => simp [startsComment, List.isPrefixOf, slash, lineFeed]
  | b :: c :: w =>
    rw [← hu]
    exact startsComment_cons_cons b c _ _

/-- A run ends at a byte outside it. -/
theorem takeWhile_append_stop {p : UInt8 → Bool} {w u : List UInt8}
    (hu : ∀ b ∈ u.head?, p b = false) : (w ++ u).takeWhile p = w.takeWhile p := by
  have hu' : u.takeWhile p = [] := by
    cases u with
    | nil => rfl
    | cons b u => simp [hu b rfl]
  rw [List.takeWhile_append, hu', List.append_nil]
  split
  · rename_i hAll
    exact ((List.takeWhile_prefix p).eq_of_length hAll).symm
  · rfl

/-- A run that ends before a known byte ends there whatever follows. -/
theorem takeWhile_append_of_lt {p : UInt8 → Bool} {w u : List UInt8}
    (h : ((w ++ u).takeWhile p).length < w.length) (v : List UInt8) :
    (w ++ v).takeWhile p = (w ++ u).takeWhile p := by
  rw [List.takeWhile_append] at h ⊢
  rw [List.takeWhile_append]
  split
  · rename_i hAll
    rw [if_pos hAll, List.length_append] at h
    omega
  · rfl

/-- A run that does not reach beyond the known bytes is not longer before a byte outside the run. -/
theorem takeWhile_append_of_le {p : UInt8 → Bool} {w u : List UInt8}
    (h : ((w ++ u).takeWhile p).length ≤ w.length) {v : List UInt8}
    (hv : ∀ b ∈ v.head?, p b = false) : (w ++ v).takeWhile p = (w ++ u).takeWhile p := by
  rw [takeWhile_append_stop hv, List.takeWhile_append]
  split
  · rename_i hAll
    rw [List.takeWhile_append, if_pos hAll, List.length_append] at h
    rw [List.eq_nil_of_length_eq_zero (l := u.takeWhile p) (by omega), List.append_nil]
    exact (List.takeWhile_prefix p).eq_of_length hAll
  · rfl

namespace Terminal

/-- A terminal that ends inside the known bytes is still there when the rest is exchanged for a text
that does not continue it. -/
theorem Fits.append {t : Terminal} {w u v : List UInt8} (h : t.Fits (w ++ u))
    (hLe : t.length (w ++ u) ≤ w.length)
    (hv : t.length (w ++ u) < w.length ∨ ∀ b ∈ v.head?, continuesName b = false) :
    t.Fits (w ++ v) ∧ t.length (w ++ v) = t.length (w ++ u) := by
  have hw : w ≠ [] := by
    rintro rfl
    exact absurd (Nat.lt_of_lt_of_le h.length_pos hLe) (Nat.lt_irrefl 0)
  obtain ⟨b, w, rfl⟩ := List.exists_cons_of_ne_nil hw
  cases t with
  | byte => exact ⟨by simp [Fits], rfl⟩
  | word bytes =>
    have hPrefix : bytes <+: b :: w :=
      List.prefix_of_prefix_length_le h.2 (List.prefix_append _ _) hLe
    exact ⟨⟨h.1, hPrefix.trans (List.prefix_append _ _)⟩, rfl⟩
  | name =>
    obtain ⟨c, hc, hb⟩ := h
    obtain rfl : b = c := by simpa using hc
    refine ⟨⟨b, rfl, hb⟩, ?_⟩
    simp only [length, List.cons_append, nameLength_cons hb, List.length_cons] at hLe hv ⊢
    rcases hv with hv | hv
    · have hLt : ((w ++ u).takeWhile continuesName).length < w.length := by omega
      rw [takeWhile_append_of_lt hLt]
    · have hLe' : ((w ++ u).takeWhile continuesName).length ≤ w.length := by omega
      rw [takeWhile_append_of_le hLe' hv]
  | number =>
    obtain ⟨c, hc, hb⟩ := h
    obtain rfl : b = c := by simpa using hc
    refine ⟨⟨b, rfl, hb⟩, ?_⟩
    simp only [length] at hLe hv ⊢
    rcases hv with hv | hv
    · rw [takeWhile_append_of_lt hv]
    · rw [takeWhile_append_of_le hLe fun d hd => isDigit_eq_false (hv d hd)]

theorem length_add_of_rest_eq {t : Terminal} {w w' u : List UInt8} (h : t.Fits (w ++ u))
    (hRest : t.rest (w ++ u) = w' ++ u) : t.length (w ++ u) + w'.length ≤ w.length := by
  have hLe := h.length_le
  have hLength := congrArg List.length hRest
  simp only [rest, beyondGap, List.length_drop, List.length_append] at hLength hLe
  have hGap := gapLength_le_length ((w ++ u).drop (t.length (w ++ u)))
  simp only [List.length_drop, List.length_append] at hGap
  omega

/-- **A read is local.**  If a read ends inside the known bytes `w`, leaving `w'` of them, and `w'`
is enough to see that no gap starts there, then the read ends there whatever follows. -/
theorem rest_append {t : Terminal} {w w' u v : List UInt8} (h : t.Fits (w ++ u))
    (hRest : t.rest (w ++ u) = w' ++ u) (hw' : w' ≠ []) (hEnd : startsComment (w' ++ v) = false) :
    t.Fits (w ++ v) ∧ t.length (w ++ v) = t.length (w ++ u) ∧ t.rest (w ++ v) = w' ++ v := by
  have hLe := length_add_of_rest_eq h hRest
  have hPos : 0 < w'.length := List.length_pos_iff.2 hw'
  obtain ⟨hFits, hLength⟩ := h.append (v := v) (by omega) (.inl (by omega))
  refine ⟨hFits, hLength, ?_⟩
  rw [rest, List.drop_append_of_le_length (by omega)] at hRest
  rw [rest, hLength, List.drop_append_of_le_length (by omega)]
  exact beyondGap_append hRest hw' hEnd

/-- A read that ends with the known bytes passes over a line feed put there. -/
theorem rest_append_lineFeed {t : Terminal} {w u : List UInt8} (h : t.Fits (w ++ u))
    (hRest : t.rest (w ++ u) = u) (y : List UInt8) :
    t.Fits (w ++ lineFeed :: y) ∧ t.length (w ++ lineFeed :: y) = t.length (w ++ u) ∧
      t.rest (w ++ lineFeed :: y) = beyondGap y := by
  have hRest' : t.rest (w ++ u) = [] ++ u := hRest
  have hLe : t.length (w ++ u) ≤ w.length := length_add_of_rest_eq h hRest'
  obtain ⟨hFits, hLength⟩ := h.append (v := lineFeed :: y) hLe (.inr (by simp; decide))
  refine ⟨hFits, hLength, ?_⟩
  rw [rest, List.drop_append_of_le_length hLe] at hRest
  rw [rest, hLength, List.drop_append_of_le_length hLe]
  exact beyondGap_append_lineFeed hRest y

end Terminal

end ScriptCheck.Source
