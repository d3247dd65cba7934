import Mathlib.Data.List.Basic
import Mathlib.Tactic.Tauto
import ScriptCheck.Proofs.Exchange

/-!
# Significant bytes

The bytes of a text that a check does not pass over.  Which they are is said here without a cursor:
a byte is significant if it is no space and does not lie in a comment.

* `InComment`, `Significant`, `significant` — the definition, byte by byte.
* `significant_eq` — the same in one pass over the text.
* `significant_beyondGap`, `Reading.significant_eq` — gaps hold no significant byte, terminals no
  other.
* `Significant.split` — a significant byte parts those before it from those behind it.
* `Reaches.bytesRead`, `Accepts.bytesRead` — **a run reads the significant bytes, each of them once
  and in order**, and what each rule of the automaton keeps of the bytes read so far, the whole run
  keeps.
-/

namespace ScriptCheck.Source

/-! ## Byte by byte -/

/-- The byte at index `i` lies in a comment: two slashes stand there or before, and no line feed
since. -/
def InComment (s : List UInt8) (i : Nat) : Prop :=
  ∃ j ≤ i, [slash, slash] <+: s.drop j ∧ lineFeed ∉ (s.take (i + 1)).drop j

/-- The byte at index `i` is no space and lies in no comment. -/
def Significant (s : List UInt8) (i : Nat) : Prop :=
  (∃ b ∈ s[i]?, ¬ Space b) ∧ ¬ InComment s i

instance (s : List UInt8) (i : Nat) : Decidable (InComment s i) :=
  inferInstanceAs (Decidable (∃ j ≤ i, [slash, slash] <+: s.drop j ∧ _))

instance (s : List UInt8) (i : Nat) : Decidable (Significant s i) :=
  inferInstanceAs (Decidable ((∃ b ∈ s[i]?, ¬ Space b) ∧ _))

/-- The significant bytes of a text, in order. -/
def significant (s : List UInt8) : List UInt8 :=
  (List.range s.length).filterMap fun i => if Significant s i then s[i]? else none

/-- What is cut off before a byte outside comments does not change which bytes lie in comments. -/
theorem inComment_take {s : List UInt8} {q i : Nat} (hi : i < q) (hq : ¬ InComment s q) :
    InComment (s.take q) i ↔ InComment s i := by
  have hTake : (s.take q).take (i + 1) = s.take (i + 1) := by
    rw [List.take_take, Nat.min_eq_left hi]
  constructor
  · rintro ⟨j, hj, hStart, hLine⟩
    rw [hTake] at hLine
    rw [List.drop_take] at hStart
    exact ⟨j, hj, hStart.trans (List.take_prefix _ _), hLine⟩
  · rintro ⟨j, hj, hStart, hLine⟩
    rw [← hTake] at hLine
    refine ⟨j, hj, ?_, hLine⟩
    rw [List.drop_take, List.prefix_take_iff]
    refine ⟨hStart, ?_⟩
    -- if only the first of the two slashes is kept, then the second is the byte at `q`
    by_contra hShort
    refine hq ⟨j, by omega, hStart, ?_⟩
    have hTwo : [slash, slash] = (s.drop j).take (q + 1 - j) := by
      rw [show q + 1 - j = [slash, slash].length by simp at hShort ⊢; omega]
      exact List.prefix_iff_eq_take.1 hStart
    rw [List.drop_take, ← hTwo]
    decide

theorem significant_take_iff {s : List UInt8} {q i : Nat} (hi : i < q) (hq : ¬ InComment s q) :
    Significant (s.take q) i ↔ Significant s i := by
  rw [Significant, Significant, inComment_take hi hq, List.getElem?_take_of_lt hi]

/-- The significant bytes of a text are those before a significant byte, this byte, and others that
lie behind it. -/
theorem Significant.split {s : List UInt8} {q : Nat} {b : UInt8} (h : Significant s q)
    (hb : s[q]? = some b) :
    ∃ x, significant s = significant (s.take q) ++ b :: x ∧
      ∀ c ∈ x, ∃ i > q, Significant s i ∧ s[i]? = some c := by
  have hLt : q < s.length := (List.getElem?_eq_some_iff.1 hb).1
  obtain ⟨k, hk⟩ : ∃ k, s.length = q + 1 + k := ⟨s.length - (q + 1), by omega⟩
  have hBefore : significant (s.take q) =
      (List.range q).filterMap fun i => if Significant s i then s[i]? else none := by
    rw [significant, List.length_take_of_le hLt.le]
    refine List.filterMap_congr fun i hi => ?_
    rw [List.mem_range] at hi
    simp only [significant_take_iff hi h.2, List.getElem?_take_of_lt hi]
  refine ⟨((List.range k).map (q + 1 + ·)).filterMap fun i =>
    if Significant s i then s[i]? else none, ?_, ?_⟩
  · rw [significant, hk, List.range_add, List.range_succ, List.filterMap_append,
      List.filterMap_append, ← hBefore, List.filterMap_cons, if_pos h, hb, List.append_assoc]
    rfl
  · intro c hc
    obtain ⟨i, hi, hGet⟩ := List.mem_filterMap.1 hc
    obtain ⟨n, -, rfl⟩ := List.mem_map.1 hi
    by_cases hSignificant : Significant s (q + 1 + n)
    · rw [if_pos hSignificant] at hGet
      exact ⟨q + 1 + n, by omega, hSignificant, hGet⟩
    · rw [if_neg hSignificant] at hGet
      cases hGet

/-! ## In one pass -/

/-- The significant bytes of a text of which the front stands inside a comment if `inComment`. -/
def significantFrom (inComment : Bool) : List UInt8 → List UInt8
  | [] => []
  | b :: s =>
    let inside := (inComment || startsComment (b :: s)) && b != lineFeed
    if inside || isSpace b then significantFrom inside s else b :: significantFrom inside s

/-- The byte at index `i` lies in a comment, possibly in one that the front of `s` stands in. -/
def InCommentFrom (inComment : Bool) (s : List UInt8) (i : Nat) : Prop :=
  InComment s i ∨ inComment = true ∧ lineFeed ∉ s.take (i + 1)

theorem inCommentFrom_zero {inComment : Bool} {b : UInt8} {s : List UInt8} :
    InCommentFrom inComment (b :: s) 0 ↔
      ((inComment || startsComment (b :: s)) && b != lineFeed) = true := by
  simp only [InCommentFrom, InComment, startsComment, Nat.le_zero, exists_eq_left, List.drop_zero,
    ← List.isPrefixOf_iff_prefix, List.take_succ_cons, List.take_zero, List.mem_singleton,
    Bool.and_eq_true, Bool.or_eq_true, bne_iff_ne, ne_comm (a := b), ne_eq]
  tauto

theorem inCommentFrom_succ {inComment : Bool} {b : UInt8} {s : List UInt8} {i : Nat} :
    InCommentFrom inComment (b :: s) (i + 1) ↔
      InCommentFrom ((inComment || startsComment (b :: s)) && b != lineFeed) s i := by
  have hFront : InComment (b :: s) (i + 1) ↔
      InComment s i ∨ startsComment (b :: s) = true ∧ lineFeed ∉ (b :: s).take (i + 2) := by
    rw [startsComment, List.isPrefixOf_iff_prefix]
    constructor
    · rintro ⟨j, hj, hStart, hLine⟩
      cases j with
      | zero => exact .inr ⟨hStart, hLine⟩
      | succ j => exact .inl ⟨j, by omega, hStart, hLine⟩
    · rintro (⟨j, hj, hStart, hLine⟩ | ⟨hStart, hLine⟩)
      · exact ⟨j + 1, by omega, hStart, hLine⟩
      · exact ⟨0, by omega, hStart, hLine⟩
  rw [InCommentFrom, InCommentFrom, hFront]
  simp only [List.take_succ_cons, List.mem_cons, Bool.and_eq_true, Bool.or_eq_true, bne_iff_ne,
    ne_comm (a := b), ne_eq]
  tauto

/-- The pass collects the bytes that pass the test, index by index. -/
theorem filterMap_significantFrom {s : List UInt8} {inComment : Bool} {p : Nat → Prop}
    [DecidablePred p]
    (hp : ∀ i, p i ↔ (∃ b ∈ s[i]?, ¬ Space b) ∧ ¬ InCommentFrom inComment s i) :
    ((List.range s.length).filterMap fun i => if p i then s[i]? else none) =
      significantFrom inComment s := by
  induction s generalizing inComment p with
  | nil => rfl
  | cons b s ih =>
    have hTail := ih (p := fun i => p (i + 1)) fun i => by
      rw [hp, inCommentFrom_succ, List.getElem?_cons_succ]
    rw [List.length_cons, List.range_succ_eq_map, List.filterMap_cons, List.filterMap_map,
      significantFrom]
    have hHead : p 0 ↔
        ¬ (((inComment || startsComment (b :: s)) && b != lineFeed) || isSpace b) = true := by
      rw [hp, inCommentFrom_zero, Bool.or_eq_true, not_or, and_comm, isSpace_iff]
      simp
    by_cases h0 : p 0
    · rw [if_pos h0, List.getElem?_cons_zero, if_neg (hHead.1 h0), ← hTail]
      rfl
    · rw [if_neg h0, if_pos (not_not.1 fun h => h0 (hHead.2 h)), ← hTail]
      rfl

/-- One pass finds the significant bytes. -/
theorem significant_eq (s : List UInt8) : significant s = significantFrom false s := by
  refine filterMap_significantFrom fun i => ?_
  rw [Significant, InCommentFrom]
  simp

/-! ## Gaps and terminals -/

theorem significantFrom_drop_gap (inComment : Bool) (s : List UInt8) :
    significantFrom inComment s =
      significantFrom false (s.drop (gapLengthFrom 0 inComment s)) := by
  induction s generalizing inComment with
  | nil => rfl
  | cons b s ih =>
    rw [gapLengthFrom_cons]
    by_cases hIn : inComment = true
    · rw [if_pos hIn, List.drop_succ_cons, ← ih, significantFrom, hIn, Bool.true_or, Bool.true_and]
      by_cases hb : b = lineFeed
      · simp [hb, isSpace_lineFeed]
      · simp [hb]
    rw [if_neg hIn, Bool.eq_false_iff.2 hIn]
    by_cases hb : isSpace b = true
    · have hStart : startsComment (b :: s) = false := by
        rw [Bool.eq_false_iff]
        intro hStart
        obtain ⟨u, hu⟩ := startsComment_iff.1 hStart
        obtain rfl : b = slash := (List.cons.inj hu).1
        exact absurd hb (by decide)
      rw [if_pos hb, List.drop_succ_cons, gapLength, ← ih, significantFrom, hStart]
      simp [hb]
    rw [if_neg hb]
    by_cases hStart : startsComment (b :: s) = true
    · have hLine : (b != lineFeed) = true := by
        obtain ⟨u, hu⟩ := startsComment_iff.1 hStart
        obtain rfl : b = slash := (List.cons.inj hu).1
        decide
      rw [if_pos hStart, List.drop_succ_cons, ← ih, significantFrom, hStart, hLine]
      simp
    · rw [if_neg hStart, List.drop_zero]

/-- A gap holds no significant byte. -/
theorem significant_beyondGap (s : List UInt8) : significant (beyondGap s) = significant s := by
  rw [significant_eq, significant_eq, significantFrom_drop_gap false s]
  rfl

/-- What starts with no gap starts with a significant byte. -/
theorem significant_cons {b : UInt8} {s : List UInt8} (h : gapLength (b :: s) = 0) :
    significant (b :: s) = b :: significant s := by
  have hb : ¬ isSpace b = true := by
    intro hb
    rw [gapLength_space (isSpace_iff.1 hb)] at h
    omega
  have hStart : ¬ startsComment (b :: s) = true := by
    intro hStart
    rw [gapLength, gapLengthFrom_cons, if_neg Bool.false_ne_true, if_neg hb, if_pos hStart] at h
    omega
  rw [significant_eq, significant_eq, significantFrom, Bool.eq_false_iff.2 hStart]
  simp [hb]

/-- No gap starts at a byte that may stand in a name. -/
theorem gapLength_of_continuesName {b : UInt8} (hb : continuesName b = true) (s : List UInt8) :
    gapLength (b :: s) = 0 := by
  have hSpace : ¬ isSpace b = true := by
    intro hSpace
    simp [not_continuesName_of_isSpace hSpace] at hb
  have hStart : ¬ startsComment (b :: s) = true := by
    intro hStart
    obtain ⟨u, hu⟩ := startsComment_iff.1 hStart
    obtain rfl : b = slash := (List.cons.inj hu).1
    exact absurd hb (by decide)
  rw [gapLength, gapLengthFrom_cons, if_neg Bool.false_ne_true, if_neg hSpace, if_neg hStart]

theorem significant_word {w : List UInt8} (hw : ∀ b ∈ w, continuesName b = true)
    (u : List UInt8) : significant (w ++ u) = w ++ significant u := by
  induction w with
  | nil => rfl
  | cons b w ih =>
    have hb : continuesName b = true := hw b List.mem_cons_self
    rw [List.cons_append, significant_cons (gapLength_of_continuesName hb _),
      ih fun c hc => hw c (List.mem_cons_of_mem b hc), List.cons_append]

/-- A word ends with no byte that cannot stand in a name. -/
theorem getLast?_ne_of_word {w : List UInt8} (hw : ∀ c ∈ w, continuesName c = true) {b : UInt8}
    (hb : continuesName b = false) : w.getLast? ≠ some b := by
  intro hLast
  have hName := hw b (List.mem_of_getLast? hLast)
  rw [hb] at hName
  cases hName

/-- A line feed behind a text changes nothing. -/
theorem significant_append_lineFeed (s : List UInt8) :
    significant (s ++ [lineFeed]) = significant s := by
  suffices h : ∀ inComment,
      significantFrom inComment (s ++ [lineFeed]) = significantFrom inComment s by
    rw [significant_eq, significant_eq, h]
  induction s with
  | nil => intro inComment; simp [significantFrom, isSpace_lineFeed]
  | cons b s ih =>
    intro inComment
    have hStart : startsComment (b :: (s ++ [lineFeed])) = startsComment (b :: s) := by
      cases s with
      | nil => simp [startsComment, List.isPrefixOf, slash, lineFeed]
      | cons c s => exact startsComment_cons_cons b c _ _
    rw [List.cons_append, significantFrom, significantFrom, hStart, ih]

/-- The bytes of a terminal at the front of a text. -/
def Terminal.bytes (t : Terminal) (s : List UInt8) : List UInt8 := s.take (t.length s)

theorem Terminal.Fits.bytes_ne_nil {t : Terminal} {s : List UInt8} (h : t.Fits s) :
    t.bytes s ≠ [] := by
  have hPos := h.length_pos
  have hLe := h.length_le
  rw [Ne, ← List.length_eq_zero_iff, bytes, List.length_take]
  omega

theorem Terminal.continuesName_of_name {s : List UInt8} (h : name.Fits s) :
    ∀ b ∈ name.bytes s, continuesName b = true := by
  obtain ⟨b, hs, hb⟩ := h
  obtain ⟨s, rfl⟩ := List.head?_eq_some_iff.1 hs
  intro c hc
  rw [bytes, length, nameLength_cons hb, List.take_succ_cons,
    ← List.prefix_iff_eq_take.1 (List.takeWhile_prefix continuesName)] at hc
  rcases List.mem_cons.1 hc with rfl | hc
  · exact continuesName_of_startsName hb
  · exact List.mem_takeWhile_imp hc

theorem Terminal.continuesName_of_number (s : List UInt8) :
    ∀ b ∈ number.bytes s, continuesName b = true := by
  intro b hb
  rw [bytes, length, ← List.prefix_iff_eq_take.1 (List.takeWhile_prefix isDigit)] at hb
  exact continuesName_of_isDigit (List.mem_takeWhile_imp hb)

end ScriptCheck.Source

namespace ScriptCheck.Grammar

open Source

variable {text : List UInt8} {limit : NestingLimit} {s : List UInt8} {st st' : State} {t : Terminal}

theorem bytes_of_goesOn {ch : Char} (h : goesOn ch s.head? = true) :
    Terminal.byte.bytes s = [ch.toUInt8] := by
  obtain ⟨u, rfl⟩ := List.head?_eq_some_iff.1 (beq_iff_eq.1 h)
  rfl

/-- What is read is one byte, or bytes that may stand in a name. -/
theorem Reading.byte_or_word (h : Reading s st t st') :
    t = .byte ∨ ∀ b ∈ t.bytes s, continuesName b = true := by
  cases h with
  | declare h =>
    refine .inr ?_
    rw [Terminal.bytes, Terminal.length, ← List.prefix_iff_eq_take.1 h]
    decide +kernel
  | assign h | name h =>
    exact .inr (Terminal.continuesName_of_name (starts_name s (any_startsName h)))
  | target h => exact .inr (Terminal.continuesName_of_name (starts_name s h))
  | number h => exact .inr (Terminal.continuesName_of_number s)
  | _ => exact .inl rfl

/-- Reading takes the terminal off the significant bytes. -/
theorem Reading.significant_eq (h : Reading s st t st') (hGap : gapLength s = 0) :
    significant s = t.bytes s ++ significant (t.rest s) := by
  rw [Terminal.rest, significant_beyondGap]
  rcases h.byte_or_word with rfl | hWord
  · obtain ⟨b, s, rfl⟩ := List.exists_cons_of_ne_nil (show s ≠ [] from h.fits)
    rw [significant_cons hGap]
    rfl
  · rw [← significant_word hWord, Terminal.bytes, List.take_append_drop]

/-! ## Along a run -/

/-- A run never stops before a gap. -/
theorem Reaches.gapLength_rest {c : Cursor text} (h : Reaches limit (Config.start text) (st, c)) :
    gapLength c.rest = 0 := by
  rcases h.arrival with hStart | ⟨st₁, c₁, t, st₂, -, -, hArrive, -⟩
  · rw [← show (Config.start text).2 = c from hStart, Config.rest_start]
    exact gapLength_drop_gapLength text
  · rw [← show c₁.read t = c from hArrive, Cursor.rest_read]
    exact gapLength_drop_gapLength _

/-- **A run reads the significant bytes.**  Those it has read and those that are left make up the
text; and if the rules of the automaton keep a relation between the state and the bytes read, then
the run keeps it. -/
theorem Reaches.bytesRead {P : State → List UInt8 → Prop} (hStart : P .between [])
    (hChange : ∀ {s st st' w}, Change limit s st st' → P st w → P st' w)
    (hReading : ∀ {s st t st' w}, Reading s st t st' → P st w → P st' (w ++ t.bytes s))
    {c : Cursor text} (h : Reaches limit (Config.start text) (st, c)) :
    ∃ w, significant text = w ++ significant c.rest ∧ P st w := by
  generalize hEnd : (st, c) = b at h
  induction h generalizing st c with
  | refl =>
    obtain ⟨rfl, rfl⟩ := Prod.mk.inj hEnd
    refine ⟨[], ?_, hStart⟩
    rw [List.nil_append, ← significant_beyondGap text, ← Config.rest_start]
    rfl
  | @tail b b' hRun hStep ih =>
    subst hEnd
    obtain ⟨w, hText, hP⟩ := @ih b.1 b.2 rfl
    cases hStep with
    | goto hMove => exact ⟨w, hText, hChange (State.change_of_move hMove) hP⟩
    | @read st₁ _ c₁ t hMove =>
      have hRule := State.reading_of_move hMove
      refine ⟨w ++ t.bytes c₁.rest, ?_, hReading hRule hP⟩
      rw [hText, hRule.significant_eq (Reaches.gapLength_rest hRun), Cursor.rest_read,
        List.append_assoc]

/-- What the rules keep of the bytes read holds of all significant bytes of a program. -/
theorem Accepts.bytesRead {P : State → List UInt8 → Prop} (hStart : P .between [])
    (hChange : ∀ {s st st' w}, Change limit s st st' → P st w → P st' w)
    (hReading : ∀ {s st t st' w}, Reading s st t st' → P st w → P st' (w ++ t.bytes s))
    {c : Cursor text} (h : Accepts limit (Config.start text) c) :
    P .between (significant text) := by
  obtain ⟨st, hRun, hMove⟩ := h
  obtain ⟨rfl, hRest⟩ := State.between_of_move hMove
  obtain ⟨w, hText, hP⟩ := Reaches.bytesRead hStart hChange hReading hRun
  have hEnd : significant c.rest = [] := by
    rw [hRest]
    rfl
  rwa [hText, hEnd, List.append_nil]

/-- What is left of the significant bytes is their end. -/
theorem Reaches.exists_read {c : Cursor text} (h : Reaches limit (Config.start text) (st, c)) :
    ∃ w, significant text = w ++ significant c.rest := by
  obtain ⟨w, hText, -⟩ := Reaches.bytesRead (P := fun _ _ => True) trivial (fun _ _ => trivial)
    (fun _ _ => trivial) h
  exact ⟨w, hText⟩

end ScriptCheck.Grammar
