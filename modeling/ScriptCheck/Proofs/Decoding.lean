import Mathlib.Data.List.Induction
import Mathlib.Data.String.Basic
import ScriptCheck.Source.Gap
import ScriptCheck.Text.Utf8

/-!
# What a text looks like

A text is checked as bytes and shown as characters, with a replacement for every piece that is ill
formed.  This file compares the two.

* `Steps`, `Reading.step_cases` — what reading one byte can do, with all that matters about it: a
  byte below 128 is a character of its own and ends whatever is under way, and no other byte ever
  gives a line feed.
* `pieces_append`, `pieces_concat`, `pieces_of_ascii` — **texts may be decoded in parts**, as long
  as no character is under way where the parts meet.
* `toList_lossy_append`, `toList_lossy_lineFeed`, `length_lossy_le` — the same of the characters
  shown.
* `count_lossy` — **lines stay lines**: there are as many line feeds among the characters as among
  the bytes.
* `utf8ByteSize_lossy_le` — **the replacements do not take much room**: at most three bytes for
  every byte.
-/

namespace ScriptCheck.Text.Utf8

open Source

/-! ## Reading one byte -/

namespace Reading

/-- The pieces of a reader if its text ended here, newest first. -/
def closed (r : Reading) : List (Option Char) :=
  match r.pending with
  | none => r.done
  | some _ => none :: r.done

@[simp] theorem closed_none (done : List (Option Char)) : closed ⟨done, none⟩ = done := rfl

@[simp] theorem closed_some (done : List (Option Char)) (p : Pending) :
    closed ⟨done, some p⟩ = none :: done := rfl

theorem closed_of_pending {r : Reading} {p : Pending} (h : r.pending = some p) :
    r.closed = none :: r.done := by
  unfold closed
  rw [h]

theorem finish_eq (r : Reading) : r.finish = r.closed.reverse := by
  unfold finish closed
  cases r.pending <;> rfl

end Reading

/-- A character under way goes on with a byte from 128, and is no ASCII character in the end. -/
structure Pending.Proper (p : Pending) : Prop where
  le_low : 0x80 ≤ p.low.toNat
  le_bits : (if p.owed = 0 then 128 else 2) ≤ p.bits * 64 + (p.low.toNat - 0x80)

/-- What reading the byte `b` makes of the reader `r`. -/
inductive Steps (r : Reading) (b : UInt8) : Reading → Prop
  /-- The byte is a character, and what was under way is ill formed. -/
  | whole (hb : b.toNat < 128) : Steps r b ⟨some (Char.ofNat b.toNat) :: r.closed, none⟩
  /-- The byte starts no character. -/
  | stray (hb : 128 ≤ b.toNat) : Steps r b ⟨none :: r.closed, none⟩
  /-- The byte starts a character. -/
  | opens {p : Pending} (hb : 128 ≤ b.toNat) (hp : p.Proper) : Steps r b ⟨r.closed, some p⟩
  /-- The byte continues the character under way. -/
  | continues {p p' : Pending} (hb : 128 ≤ b.toNat) (h : r.pending = some p) (hp : p'.Proper) :
      Steps r b ⟨r.done, some p'⟩
  /-- The byte ends the character under way. -/
  | completes {p : Pending} {c : Char} (hb : 128 ≤ b.toNat) (h : r.pending = some p)
      (hc : c ≠ '\n') : Steps r b ⟨some c :: r.done, none⟩

theorem toNat_ofNat (n : Nat) : (Char.ofNat n).toNat = if n.isValidChar then n else 0 := by
  unfold Char.ofNat
  by_cases h : n.isValidChar
  · rw [dif_pos h, if_pos h]
    rfl
  · rw [dif_neg h, if_neg h]
    rfl

theorem ofNat_ne_lineFeed {n : Nat} (h : 128 ≤ n) : Char.ofNat n ≠ '\n' := by
  intro hEq
  have hCode : (Char.ofNat n).toNat = 10 := by
    rw [hEq]
    rfl
  rw [toNat_ofNat] at hCode
  split at hCode <;> omega

/-- A byte starts a character exactly as its range says. -/
theorem Lead.of_cases (b : UInt8) :
    b.toNat < 128 ∧ Lead.of b = .whole (Char.ofNat b.toNat) ∨
      128 ≤ b.toNat ∧ (Lead.of b = .stray ∨ ∃ p : Pending, p.Proper ∧ Lead.of b = .opens p) := by
  have hLe : ∀ n : UInt8, b ≤ n ↔ b.toNat ≤ n.toNat := fun _ => UInt8.le_iff_toNat_le
  have hLt : ∀ n : UInt8, b < n ↔ b.toNat < n.toNat := fun _ => UInt8.lt_iff_toNat_lt
  have hEq : ∀ n : UInt8, b = n ↔ b.toNat = n.toNat := fun _ => UInt8.toNat_inj.symm
  generalize hLead : Lead.of b = lead
  simp only [Lead.of, hLe, hLt, hEq, UInt8.reduceToNat] at hLead
  repeat' split at hLead
  all_goals subst hLead
  case isTrue => exact .inl ⟨by omega, rfl⟩
  all_goals refine .inr ⟨by omega, ?_⟩
  all_goals first
    | exact .inl rfl
    | refine .inr ⟨_, ⟨by simp, ?_⟩, rfl⟩
  all_goals
    simp only [if_true, Nat.succ_ne_zero, if_false, UInt8.reduceToNat]
    omega

theorem Reading.start_cases (r : Reading) (b : UInt8) : Steps r b (start r.closed b) := by
  unfold start
  rcases Lead.of_cases b with ⟨hb, h⟩ | ⟨hb, h | ⟨p, hp, h⟩⟩
  · rw [h]
    exact .whole hb
  · rw [h]
    exact .stray hb
  · rw [h]
    exact .opens hb hp

/-- **What reading a byte can do.** -/
theorem Reading.step_cases {r : Reading} (hProper : ∀ p ∈ r.pending, p.Proper) (b : UInt8) :
    Steps r b (r.step b) := by
  cases hPending : r.pending with
  | none =>
    have hStep : r.step b = start r.closed b := by simp [step, closed, hPending]
    rw [hStep]
    exact r.start_cases b
  | some p =>
    have hp : p.Proper := hProper p hPending
    by_cases hRange : p.low ≤ b ∧ b ≤ p.high
    · have hLow : p.low.toNat ≤ b.toNat := UInt8.le_iff_toNat_le.1 hRange.1
      have hBits := hp.le_bits
      have hb : 128 ≤ b.toNat := Nat.le_trans hp.le_low hLow
      cases hOwed : p.owed with
      | zero =>
        have hStep : r.step b =
            ⟨some (Char.ofNat (p.bits * 64 + (b.toNat - 0x80))) :: r.done, none⟩ := by
          simp [step, hPending, hRange, hOwed]
        rw [hOwed, if_pos rfl] at hBits
        rw [hStep]
        exact .completes hb hPending (ofNat_ne_lineFeed (by omega))
      | succ n =>
        have hStep : r.step b =
            ⟨r.done, some ⟨p.bits * 64 + (b.toNat - 0x80), n, 0x80, 0xbf⟩⟩ := by
          simp [step, hPending, hRange, hOwed]
        rw [hOwed, if_neg (Nat.succ_ne_zero n)] at hBits
        rw [hStep]
        refine .continues hb hPending ⟨by simp, ?_⟩
        simp only [UInt8.reduceToNat]
        split <;> omega
    · have hStep : r.step b = start r.closed b := by simp [step, closed, hPending, hRange]
      rw [hStep]
      exact r.start_cases b

/-! ## Reading a text -/

/-- The reader behind the bytes `s`. -/
def reading (s : List UInt8) : Reading := s.foldl Reading.step ⟨[], none⟩

theorem pieces_eq (s : List UInt8) : pieces s = (reading s).closed.reverse :=
  (reading s).finish_eq

theorem reading_concat (s : List UInt8) (b : UInt8) :
    reading (s ++ [b]) = (reading s).step b := by
  simp [reading]

theorem proper_reading (s : List UInt8) : ∀ p ∈ (reading s).pending, p.Proper := by
  induction s using List.reverseRecOn with
  | nil => simp [reading]
  | append_singleton s b ih =>
    have hSteps : Steps (reading s) b ((reading s).step b) := Reading.step_cases ih b
    rw [reading_concat]
    generalize (reading s).step b = r at hSteps ⊢
    cases hSteps with
    | whole | stray | completes => simp
    | opens _ hp | continues _ _ hp => simpa using hp

theorem steps_reading (s : List UInt8) (b : UInt8) :
    Steps (reading s) b (reading (s ++ [b])) := by
  rw [reading_concat]
  exact Reading.step_cases (proper_reading s) b

/-- A byte below 128 is read alike behind any text. -/
theorem reading_concat_ascii (s : List UInt8) {b : UInt8} (hb : b.toNat < 128) :
    reading (s ++ [b]) = ⟨some (Char.ofNat b.toNat) :: (reading s).closed, none⟩ := by
  have hSteps := steps_reading s b
  generalize reading (s ++ [b]) = r at hSteps ⊢
  cases hSteps with
  | whole => rfl
  | stray hb' | opens hb' | continues hb' | completes hb' => omega

/-! ### In parts -/

/-- What was read before stays below what is read. -/
theorem Reading.step_done (done : List (Option Char)) (pending : Option Pending) (b : UInt8) :
    step ⟨done, pending⟩ b =
      ⟨(step ⟨[], pending⟩ b).done ++ done, (step ⟨[], pending⟩ b).pending⟩ := by
  have hStart : ∀ first : List (Option Char), start (first ++ done) b =
      ⟨(start first b).done ++ done, (start first b).pending⟩ := by
    intro first
    unfold start
    cases Lead.of b <;> rfl
  cases pending with
  | none => exact hStart []
  | some p =>
    unfold step
    by_cases hRange : p.low ≤ b ∧ b ≤ p.high
    · cases hOwed : p.owed <;> simp [hRange, hOwed]
    · simpa [hRange] using hStart [none]

theorem foldl_step_done (s : List UInt8) (done : List (Option Char)) (pending : Option Pending) :
    s.foldl Reading.step ⟨done, pending⟩ =
      ⟨(s.foldl Reading.step ⟨[], pending⟩).done ++ done,
        (s.foldl Reading.step ⟨[], pending⟩).pending⟩ := by
  induction s generalizing done pending with
  | nil => rfl
  | cons b s ih =>
    have hRest := ih (Reading.step ⟨[], pending⟩ b).done (Reading.step ⟨[], pending⟩ b).pending
    rw [List.foldl_cons, List.foldl_cons, Reading.step_done, ih, hRest]
    simp

/-- **A text may be decoded in parts** that meet where no character is under way. -/
theorem pieces_append {s : List UInt8} (h : (reading s).pending = none) (t : List UInt8) :
    pieces (s ++ t) = pieces s ++ pieces t := by
  have hReading : reading (s ++ t) =
      ⟨(reading t).done ++ (reading s).done, (reading t).pending⟩ := by
    have hStart : reading s = ⟨(reading s).done, none⟩ := by rw [← h]
    rw [reading, List.foldl_append, ← reading, hStart, foldl_step_done]
    rfl
  have hDone : (reading s).closed = (reading s).done := by
    unfold Reading.closed
    rw [h]
  rw [pieces_eq, pieces_eq, pieces_eq, hReading, hDone]
  unfold Reading.closed
  cases (reading t).pending <;> simp

theorem pending_concat_ascii (s : List UInt8) {b : UInt8} (hb : b.toNat < 128) :
    (reading (s ++ [b])).pending = none := by
  rw [reading_concat_ascii s hb]

theorem pieces_concat (s : List UInt8) {b : UInt8} (hb : b.toNat < 128) :
    pieces (s ++ [b]) = pieces s ++ [some (Char.ofNat b.toNat)] := by
  rw [pieces_eq, pieces_eq, reading_concat_ascii s hb]
  simp

/-- Bytes below 128 are one character each, and leave none under way. -/
theorem pieces_of_ascii {s : List UInt8} (h : ∀ b ∈ s, b.toNat < 128) :
    (reading s).pending = none ∧ pieces s = s.map fun b => some (Char.ofNat b.toNat) := by
  induction s using List.reverseRecOn with
  | nil => exact ⟨rfl, rfl⟩
  | append_singleton s b ih =>
    have hb : b.toNat < 128 := h b (by simp)
    obtain ⟨-, hPieces⟩ := ih fun a ha => h a (by simp [ha])
    refine ⟨pending_concat_ascii s hb, ?_⟩
    rw [pieces_concat s hb, hPieces]
    simp

/-! ### Lines and sizes -/

/-- There are as many line feeds among the characters as among the bytes. -/
theorem count_pieces (s : List UInt8) : (pieces s).count (some '\n') = s.count lineFeed := by
  rw [pieces_eq, List.count_reverse]
  induction s using List.reverseRecOn with
  | nil => rfl
  | append_singleton s b ih =>
    rw [List.count_append, ← ih]
    have hOther : 128 ≤ b.toNat → [b].count lineFeed = 0 := by
      intro hb
      have hNe : b ≠ lineFeed := by
        rintro rfl
        exact absurd hb (by decide)
      simp [hNe]
    have hSteps := steps_reading s b
    generalize reading (s ++ [b]) = r at hSteps ⊢
    cases hSteps with
    | whole hb =>
      have hFeed : Char.ofNat b.toNat = '\n' ↔ b = lineFeed := by
        constructor
        · intro hEq
          have hCode := toNat_ofNat b.toNat
          rw [hEq, if_pos (.inl (by omega))] at hCode
          exact UInt8.toNat_inj.1 hCode.symm
        · rintro rfl
          rfl
      by_cases h : b = lineFeed
      · rw [hFeed.2 h, h]
        simp
      · simp [hFeed.not.2 h, h]
    | stray hb | opens hb => simp [hOther hb]
    | continues hb hPending => simp [hOther hb, Reading.closed_of_pending hPending]
    | completes hb hPending hc => simp [hOther hb, Reading.closed_of_pending hPending, hc]

/-- There are at most as many characters as bytes, and some if there are bytes. -/
theorem length_pieces (s : List UInt8) :
    (pieces s).length ≤ s.length ∧ (s ≠ [] → pieces s ≠ []) := by
  rw [pieces_eq]
  induction s using List.reverseRecOn with
  | nil => exact ⟨Nat.le_refl 0, fun h => absurd rfl h⟩
  | append_singleton s b ih =>
    have hSteps := steps_reading s b
    generalize reading (s ++ [b]) = r at hSteps ⊢
    cases hSteps with
    | whole | stray | opens => simpa using ih.1
    | continues hb hPending | completes hb hPending hc =>
      simpa [Reading.closed_of_pending hPending] using Nat.le_succ_of_le ih.1

theorem toList_lossy (s : List UInt8) :
    (lossy s).toList = (pieces s).map (·.getD replacement) :=
  String.toList_ofList

theorem length_lossy (s : List UInt8) : (lossy s).length = (pieces s).length := by
  rw [← String.length_toList, toList_lossy, List.length_map]

theorem length_lossy_le (s : List UInt8) : (lossy s).length ≤ s.length := by
  rw [length_lossy]
  exact (length_pieces s).1

theorem length_lossy_of_ascii {s : List UInt8} (h : ∀ b ∈ s, b.toNat < 128) :
    (lossy s).length = s.length := by
  rw [length_lossy, (pieces_of_ascii h).2, List.length_map]

theorem toList_lossy_ne_nil {s : List UInt8} (h : s ≠ []) : (lossy s).toList ≠ [] := by
  rw [toList_lossy]
  simpa using (length_pieces s).2 h

theorem toList_lossy_append {s : List UInt8} (h : (reading s).pending = none) (t : List UInt8) :
    (lossy (s ++ t)).toList = (lossy s).toList ++ (lossy t).toList := by
  rw [toList_lossy, toList_lossy, toList_lossy, pieces_append h, List.map_append]

/-- A line feed parts the characters as it parts the bytes. -/
theorem toList_lossy_lineFeed (s t : List UInt8) :
    (lossy (s ++ lineFeed :: t)).toList = (lossy s).toList ++ '\n' :: (lossy t).toList := by
  have hFeed : lineFeed.toNat < 128 := by decide
  have hLine : (lossy (s ++ [lineFeed])).toList = (lossy s).toList ++ ['\n'] := by
    rw [toList_lossy, toList_lossy, pieces_concat s hFeed, List.map_append]
    rfl
  rw [List.append_cons, toList_lossy_append (pending_concat_ascii s hFeed), hLine,
    List.append_assoc, List.singleton_append]

/-- **Lines stay lines.** -/
theorem count_lossy (s : List UInt8) : (lossy s).toList.count '\n' = s.count lineFeed := by
  rw [← count_pieces, toList_lossy]
  induction pieces s with
  | nil => rfl
  | cons p ps ih =>
    rw [List.map_cons, List.count_cons, List.count_cons, ih]
    cases p with
    | none => rfl
    | some c => simp

theorem lineFeed_notMem_lossy {s : List UInt8} (h : lineFeed ∉ s) : '\n' ∉ (lossy s).toList := by
  rwa [← List.count_eq_zero, count_lossy, List.count_eq_zero]

/-- What does not start with a line feed does not look so either. -/
theorem head?_lossy_ne {s : List UInt8} (h : s.head? ≠ some lineFeed) :
    (lossy s).toList.head? ≠ some '\n' := by
  intro hHead
  by_cases hMem : lineFeed ∈ s
  · obtain ⟨q, r, rfl, hq⟩ := List.eq_append_cons_of_mem hMem
    have hNe : q ≠ [] := by
      rintro rfl
      exact h rfl
    rw [toList_lossy_lineFeed, List.head?_append_of_ne_nil _ (toList_lossy_ne_nil hNe)] at hHead
    exact lineFeed_notMem_lossy hq (List.mem_of_head? hHead)
  · exact lineFeed_notMem_lossy hMem (List.mem_of_head? hHead)

theorem utf8Size_of_ascii {c : Char} (h : c.toNat < 128) : c.utf8Size = 1 := by
  have hLe : c.val ≤ 0x7f := UInt32.le_iff_toNat_le.2 (Nat.le_of_lt_succ h)
  simp [Char.utf8Size, hLe]

/-- **Replacements take at most three bytes for every byte.** -/
theorem utf8ByteSize_lossy_le (s : List UInt8) : (lossy s).utf8ByteSize ≤ 3 * s.length := by
  have hReplacement : replacement.utf8Size = 3 := by decide
  rw [lossy, String.utf8ByteSize_ofList, pieces_eq, List.map_reverse, String.utf8Len_reverse]
  induction s using List.reverseRecOn with
  | nil => exact Nat.le_refl 0
  | append_singleton s b ih =>
    rw [List.length_append, List.length_singleton]
    have hSteps := steps_reading s b
    generalize reading (s ++ [b]) = r at hSteps ⊢
    cases hSteps with
    | whole hb =>
      have hCode : (Char.ofNat b.toNat).toNat < 128 := by
        rw [toNat_ofNat]
        split <;> omega
      simp [utf8Size_of_ascii hCode]
      omega
    | stray | opens =>
      simp [hReplacement]
      omega
    | continues hb hPending =>
      simp [Reading.closed_of_pending hPending, hReplacement] at ih ⊢
      omega
    | @completes p c hb hPending hc =>
      have hc := c.utf8Size_le_four
      simp [Reading.closed_of_pending hPending, hReplacement] at ih ⊢
      omega

/-! ## Bytes of a text -/

theorem encode_eq (text : String) : encode text = text.toList.flatMap String.utf8EncodeChar := by
  have hEncode : text.toUTF8 = text.toList.utf8Encode := by
    rw [String.toUTF8_eq_toByteArray, ← String.toByteArray_ofList, String.ofList_toList]
  rw [encode, hEncode, List.utf8Encode, List.data_toByteArray]

/-- A byte below 128 is all there is of its character. -/
theorem utf8EncodeChar_ofNat {b : UInt8} (h : b.toNat < 128) :
    String.utf8EncodeChar (Char.ofNat b.toNat) = [b] := by
  have hCode : (Char.ofNat b.toNat).toNat = b.toNat := by
    rw [toNat_ofNat, if_pos (.inl (by omega))]
  have hByte : (Char.ofNat b.toNat).val.toUInt8 = b := by
    have hMod : b.toNat % 2 ^ 8 = b.toNat := Nat.mod_eq_of_lt (by omega)
    rw [← UInt8.toNat_inj, UInt32.toNat_toUInt8]
    exact (congrArg (· % 2 ^ 8) hCode).trans hMod
  rw [String.utf8EncodeChar_eq_singleton (utf8Size_of_ascii (by rwa [hCode])), hByte]

/-- Bytes below 128 are a text, and they are the bytes of this text. -/
theorem decode?_of_ascii {s : List UInt8} (h : ∀ b ∈ s, b.toNat < 128) :
    ∃ t, decode? s = some t ∧ encode t = s := by
  refine ⟨String.ofList (s.map fun b => Char.ofNat b.toNat), ?_, ?_⟩
  · have hSome : s.mapM (fun b => some (Char.ofNat b.toNat)) =
        some (s.map fun b => Char.ofNat b.toNat) := List.mapM_pure
    rw [decode?, (pieces_of_ascii h).2, List.mapM_map]
    exact congrArg (Option.map String.ofList) hSome
  · rw [encode_eq, String.toList_ofList, List.flatMap_map]
    exact (List.flatMap_congr fun b hb => utf8EncodeChar_ofNat (h b hb)).trans
      (List.flatMap_singleton' s)

end ScriptCheck.Text.Utf8
