import ScriptCheck.Proofs.Comments
import ScriptCheck.Proofs.Derivation
import ScriptCheck.Proofs.Pointing

/-!
# Skipping a gap

`Cursor.skipGap` measures a gap and moves over it in one go.  A scanner that looks at one byte at a
time does it in loops: over spaces, then over a comment if one starts there, and again from its end.
This file writes the loops down, which nothing bounds, and says where they end.

* `BumpsWhile`, `SkipRounds` — the loops, carried out to their end.  A derivation is a finite list
  of rounds, so that a loop that never ends has none.
* `skipRounds_iff` — **the loops end, and where `Cursor.skipGap` does.**
* `GapBetween` — the bytes between two places are spaces and comments.  `gapBetween_skipGap_iff` —
  **there is one place only** to which such bytes lead and from which no more of them do.
* `InsideComment`, `Gap.split` — a gap may be cut everywhere but inside its comments, and the rest
  of it is a gap.
* `skipGap_passes_longest_gap` — all of that, for a cursor in any place.
-/

namespace ScriptCheck.Source

variable {text : List UInt8}

/-! ## The loops -/

/-- Bytes are passed from the first place on, as long as the byte there passes the test; the second
place is where that ends. -/
inductive BumpsWhile (going : UInt8 → Bool) : Cursor text → Cursor text → Prop
  | stop {c : Cursor text} (h : c.peek?.any going = false) : BumpsWhile going c c
  | bump {c d : Cursor text} (h : c.peek?.any going = true) (hMore : BumpsWhile going c.bump d) :
      BumpsWhile going c d

/-- Rounds over spaces and then a comment.  A round that finds no comment is the last one. -/
inductive SkipRounds : Cursor text → Cursor text → Prop
  | last {c d : Cursor text} (hSpaces : BumpsWhile isSpace c d)
      (hEnd : startsComment d.rest = false) : SkipRounds c d
  | comment {c d e f : Cursor text} (hSpaces : BumpsWhile isSpace c d)
      (hStart : startsComment d.rest = true) (hComment : BumpsWhile (· != lineFeed) d e)
      (hMore : SkipRounds e f) : SkipRounds c f

theorem BumpsWhile.unique {going : UInt8 → Bool} {c d d' : Cursor text}
    (h : BumpsWhile going c d) (h' : BumpsWhile going c d') : d' = d := by
  induction h with
  | stop hStop =>
    cases h' with
    | stop => rfl
    | bump hGoing => exact absurd (hStop.symm.trans hGoing) (by decide)
  | bump hGoing _ ih =>
    cases h' with
    | stop hStop => exact absurd (hStop.symm.trans hGoing) (by decide)
    | bump _ hMore => exact ih hMore

theorem SkipRounds.unique {c d d' : Cursor text} (h : SkipRounds c d) (h' : SkipRounds c d') :
    d' = d := by
  induction h with
  | last hSpaces hEnd =>
    cases h' with
    | last hSpaces' => exact hSpaces.unique hSpaces'
    | comment hSpaces' hStart =>
      rw [hSpaces.unique hSpaces', hEnd] at hStart
      cases hStart
  | comment hSpaces hStart hComment _ ih =>
    cases h' with
    | last hSpaces' hEnd =>
      rw [hSpaces.unique hSpaces', hStart] at hEnd
      cases hEnd
    | comment hSpaces' _ hComment' hMore =>
      obtain rfl := hSpaces.unique hSpaces'
      obtain rfl := hComment.unique hComment'
      exact ih hMore

theorem BumpsWhile.stopped {going : UInt8 → Bool} {c d : Cursor text}
    (h : BumpsWhile going c d) : d.peek?.any going = false := by
  induction h with
  | stop h => exact h
  | bump _ _ ih => exact ih

/-- A loop over bytes ends behind the longest run of them. -/
theorem bumpsWhile_takeWhile (going : UInt8 → Bool) (c : Cursor text) :
    BumpsWhile going c (c.advance (c.rest.takeWhile going).length) := by
  induction hs : c.rest generalizing c with
  | nil => exact .stop (by rw [Cursor.peek?, hs]; rfl)
  | cons b s ih =>
    have hPeek : c.peek?.any going = going b := by rw [Cursor.peek?, hs]; rfl
    have hBump : c.bump.rest = s := by rw [Cursor.rest_bump, hs, List.tail_cons]
    by_cases hb : going b = true
    · rw [List.takeWhile_cons, if_pos hb]
      exact .bump (hPeek.trans hb) (ih c.bump hBump)
    · rw [List.takeWhile_cons, if_neg hb]
      exact .stop (hPeek.trans (Bool.eq_false_iff.2 hb))

/-! ## The loops and the gap -/

theorem gap_takeWhile_isSpace (s : List UInt8) :
    Gap s (s.drop (s.takeWhile isSpace).length) := by
  induction s with
  | nil => exact .nil []
  | cons b s ih =>
    by_cases hb : isSpace b = true
    · rw [List.takeWhile_cons, if_pos hb]
      exact .space (isSpace_iff.1 hb) ih
    · rw [List.takeWhile_cons, if_neg hb]
      exact .nil _

/-- A comment runs up to the first line feed. -/
theorem gap_takeWhile_comment {s : List UInt8} (h : startsComment s = true) :
    Gap s (s.drop (s.takeWhile (· != lineFeed)).length) := by
  obtain ⟨u, rfl⟩ := startsComment_iff.1 h
  have hSlash : (slash != lineFeed) = true := by decide
  have hBody : lineFeed ∉ u.takeWhile (· != lineFeed) := fun hMem => by
    simpa using List.mem_takeWhile_imp hMem
  have hEnd : ∀ b ∈ (u.dropWhile (· != lineFeed)).head?, b = lineFeed := fun b hb => by
    simpa using Grammar.dropWhile_run _ u b hb
  have hComment := Gap.comment hBody hEnd (.nil _)
  rw [List.takeWhile_append_dropWhile] at hComment
  simpa [hSlash, Grammar.drop_length_takeWhile] using hComment

/-- Measured from its start, a gap is as long as its first part and what follows that. -/
theorem Gap.gapLength_eq {s : List UInt8} {n : Nat} (h : Gap s (s.drop n)) (hn : n ≤ s.length) :
    gapLength s = n + gapLength (s.drop n) := by
  have hLength := congrArg List.length h.beyondGap_eq
  have hLe := gapLength_le_length s
  have hLe' := gapLength_le_length (s.drop n)
  rw [List.length_drop] at hLe'
  rw [beyondGap, beyondGap, List.length_drop, List.length_drop, List.length_drop] at hLength
  omega

theorem gapLength_eq_zero {s : List UInt8} (hSpace : s.head?.any isSpace = false)
    (hComment : startsComment s = false) : gapLength s = 0 := by
  cases s with
  | nil => rfl
  | cons b s =>
    refine gapLength_cons_eq_zero_iff.2 ⟨isSpace_eq_false_iff.1 hSpace, fun hPrefix => ?_⟩
    rw [startsComment, List.isPrefixOf_iff_prefix.2 hPrefix] at hComment
    cases hComment

theorem Cursor.advance_add (m n : Nat) (c : Cursor text) :
    c.advance (m + n) = (c.advance m).advance n := by
  induction m generalizing c with
  | zero => rw [Nat.zero_add, advance]
  | succ m ih => rw [Nat.succ_add, advance, ih, advance]

/-- Whoever has passed a part of a gap passes the rest of it like the whole. -/
theorem Cursor.skipGap_advance {c : Cursor text} {n : Nat} (h : Gap c.rest (c.rest.drop n))
    (hn : n ≤ c.rest.length) : (c.advance n).skipGap = c.skipGap := by
  rw [skipGap, skipGap, rest_advance, ← advance_add, h.gapLength_eq hn]

theorem skipRounds_skipGap (c : Cursor text) : SkipRounds c c.skipGap := by
  -- each round takes the two slashes of a comment, so less of the text is left to the next one
  induction hn : c.rest.length using Nat.strong_induction_on generalizing c with
  | _ n ih =>
    have hSpaces := bumpsWhile_takeWhile isSpace c
    have hSkip := c.skipGap_advance (gap_takeWhile_isSpace c.rest)
      (List.takeWhile_prefix isSpace).length_le
    generalize hd : c.advance (c.rest.takeWhile isSpace).length = d at hSpaces hSkip
    rw [← hSkip]
    by_cases hStart : startsComment d.rest = true
    · have hComment := bumpsWhile_takeWhile (· != lineFeed) d
      have hRound := d.skipGap_advance (gap_takeWhile_comment hStart)
        (List.takeWhile_prefix (· != lineFeed)).length_le
      rw [← hRound]
      refine .comment hSpaces hStart hComment (ih _ ?_ _ rfl)
      obtain ⟨u, hu⟩ := startsComment_iff.1 hStart
      have hLe : d.rest.length ≤ c.rest.length := by
        rw [← hd, Cursor.rest_advance, List.length_drop]
        omega
      have hSlash : (slash != lineFeed) = true := by decide
      rw [Cursor.rest_advance, List.length_drop, hu, List.takeWhile_cons, if_pos hSlash]
      rw [hu] at hLe
      simp only [List.length_cons] at hLe ⊢
      omega
    · have hEnd : startsComment d.rest = false := Bool.eq_false_iff.2 hStart
      rw [Cursor.skipGap_of_zero (gapLength_eq_zero hSpaces.stopped hEnd)]
      exact .last hSpaces hEnd

/-- **The loops end**, in one way only, and where the measured gap does. -/
theorem skipRounds_iff {c d : Cursor text} : SkipRounds c d ↔ d = c.skipGap := by
  constructor
  · exact (skipRounds_skipGap c).unique
  · rintro rfl
    exact skipRounds_skipGap c

/-! ## Places -/

/-- The bytes of `text` between two places are spaces and comments.  Each comment runs up to a line
feed of the text, or to its end. -/
def GapBetween (text : List UInt8) (p q : Nat) : Prop :=
  p ≤ q ∧ q ≤ text.length ∧ Gap (text.drop p) (text.drop q)

/-- **There is one place only** where a gap ends and no other starts. -/
theorem gapBetween_skipGap_iff (c : Cursor text) (q : Nat) :
    GapBetween text c.position q ∧ OutsideGap text q ↔ q = c.skipGap.position := by
  constructor
  · rintro ⟨⟨hLe, hEnd, hGap⟩, hOutside⟩
    have hPosition : (c.advance (q - c.position)).position = q := by
      rw [Cursor.position_advance]
      omega
    have hRest : text.drop q = c.rest.drop (q - c.position) := by
      rw [c.rest_eq, List.drop_drop, Nat.add_sub_cancel' hLe]
    rw [← c.rest_eq, hRest] at hGap
    have hSkip := c.skipGap_advance hGap (by rw [c.length_rest]; omega)
    rw [← hPosition] at hOutside
    rw [← hSkip, outsideGap_iff.1 hOutside, hPosition]
  · rintro rfl
    refine ⟨⟨c.position_le_skipGap, c.skipGap.position_le, ?_⟩,
      outsideGap_iff.2 c.skipGap_skipGap⟩
    rw [← c.rest_eq, ← c.skipGap.rest_eq, Cursor.rest_skipGap]
    exact (exists_gap c.rest).1

/-- The place before the byte at index `i` lies strictly inside a comment: two slashes start before
it, and no line feed stands from them up to that byte. -/
def InsideComment (s : List UInt8) (i : Nat) : Prop :=
  i < s.length ∧ ∃ a < i, [slash, slash] <+: s.drop a ∧ lineFeed ∉ (s.take (i + 1)).drop a

theorem InsideComment.cons {s : List UInt8} {i : Nat} (h : InsideComment s i) (b : UInt8) :
    InsideComment (b :: s) (i + 1) := by
  obtain ⟨hi, a, ha, hStart, hFeed⟩ := h
  exact ⟨Nat.succ_lt_succ hi, a + 1, Nat.succ_lt_succ ha, hStart, hFeed⟩

theorem InsideComment.append {s : List UInt8} {i : Nat} (h : InsideComment s i) (w : List UInt8) :
    InsideComment (w ++ s) (w.length + i) := by
  induction w with
  | nil => rwa [List.nil_append, List.length_nil, Nat.zero_add]
  | cons b w ih =>
    rw [List.length_cons, Nat.add_right_comm]
    exact ih.cons b

/-- **A gap may be cut everywhere but inside its comments.** -/
theorem Gap.split {s t : List UInt8} (h : Gap s t) {i : Nat} (hi : i + t.length ≤ s.length)
    (hOutside : ¬ InsideComment s i) : Gap s (s.drop i) := by
  induction h generalizing i with
  | nil t =>
    obtain rfl : i = 0 := by omega
    exact .nil t
  | @space b s t hb h ih =>
    cases i with
    | zero => exact .nil _
    | succ i =>
      rw [List.length_cons] at hi
      exact .space hb (ih (by omega) fun hIn => hOutside (hIn.cons b))
  | @comment body s t hBody hEnd h ih =>
    have hOpen : lineFeed ∉ slash :: slash :: body := by
      simpa [show lineFeed ≠ slash by decide] using hBody
    have hText : slash :: slash :: (body ++ s) = (slash :: slash :: body) ++ s := rfl
    rw [hText] at hi hOutside ⊢
    rw [List.length_append] at hi
    rcases Nat.lt_or_ge i (slash :: slash :: body).length with hLt | hGe
    · -- only the first byte of a comment is not inside it
      rcases Nat.eq_zero_or_pos i with rfl | hPos
      · exact .nil _
      · refine absurd ⟨?_, 0, hPos, ⟨body ++ s, rfl⟩, ?_⟩ hOutside
        · rw [List.length_append]
          omega
        · rw [List.drop_zero, List.take_append_of_le_length hLt]
          exact fun hMem => hOpen (List.mem_of_mem_take hMem)
    · obtain ⟨k, rfl⟩ := Nat.exists_eq_add_of_le hGe
      rw [List.drop_length_add_append]
      exact .comment hBody hEnd (ih (by omega) fun hIn => hOutside (hIn.append _))

/-- Skipping from inside a gap leads where skipping from its start does, unless it starts inside a
comment. -/
theorem Cursor.skipGap_position_eq {c d : Cursor text} (hLe : c.position ≤ d.position)
    (hEnd : d.position ≤ c.skipGap.position)
    (hOutside : ¬ InsideComment (text.drop c.position) (d.position - c.position)) :
    d.skipGap.position = c.skipGap.position := by
  have hGap : Gap c.rest (c.rest.drop (d.position - c.position)) := by
    rw [← c.rest_eq] at hOutside
    refine (exists_gap c.rest).1.split ?_ hOutside
    have h₁ := c.position_add_length_rest
    have h₂ := c.skipGap.position_add_length_rest
    rw [Cursor.rest_skipGap] at h₂
    omega
  have hRest : c.rest.drop (d.position - c.position) = d.rest := by
    rw [c.rest_eq, d.rest_eq, List.drop_drop, Nat.add_sub_cancel' hLe]
  have hBeyond : c.skipGap.rest = d.skipGap.rest := by
    rw [Cursor.rest_skipGap, Cursor.rest_skipGap, hGap.beyondGap_eq, hRest]
  have h₁ := c.skipGap.position_add_length_rest
  have h₂ := d.skipGap.position_add_length_rest
  rw [hBeyond] at h₁
  omega

/-- **Skipping passes the longest gap.**  From every cursor the loops over spaces and comments come
to an end, in one way only: at the one place up to which the text is spaces and comments, and where
it ends or goes on with neither.  Skipping again stays there, and the token is kept.  And from any
place of the gap that is not inside a comment, skipping ends there too. -/
theorem skipGap_passes_longest_gap (c : Cursor text) :
    (∀ d, SkipRounds c d ↔ d = c.skipGap) ∧
    (∀ q, GapBetween text c.position q ∧ OutsideGap text q ↔ q = c.skipGap.position) ∧
    c.skipGap.skipGap = c.skipGap ∧ c.skipGap.token = c.token ∧
    ∀ d : Cursor text, c.position ≤ d.position → d.position ≤ c.skipGap.position →
      ¬ InsideComment (text.drop c.position) (d.position - c.position) →
      d.skipGap.position = c.skipGap.position :=
  ⟨fun _ => skipRounds_iff, gapBetween_skipGap_iff c, c.skipGap_skipGap, c.token_advance _,
    fun _ => Cursor.skipGap_position_eq⟩

end ScriptCheck.Source
