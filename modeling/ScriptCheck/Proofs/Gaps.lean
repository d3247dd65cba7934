import ScriptCheck.Source.Gap

/-!
# Gaps: what the measure measures

`gapLength` counts bytes.  This file says what it counts, in a relation that knows nothing of
counting, and how the count reacts when the text behind a place is exchanged.

* `Space` — the bytes that are spaces, which are those that the measure passes over (`isSpace_iff`).
* `Gap s t` — a sequence of spaces and comments leads from the text `s` to its tail `t`;
  `LongestGap s t` — and no gap starts at `t`.
* `longestGap_iff` — **the measure is right**: the longest gap leads from `s` exactly to what is
  left of `s` behind `gapLength s` bytes.
* `gapLengthFrom_append_of_lt`, `gapLengthFrom_append_lineFeed` — **the measure is local**: whether
  a gap ends before a byte depends on that byte and, if it is a slash, on the next one.
-/

namespace ScriptCheck.Source

/-! ## Spaces -/

/-- A space, a tab, a carriage return or a line feed. -/
def Space (b : UInt8) : Prop :=
  b = ' '.toUInt8 ∨ b = '\t'.toUInt8 ∨ b = '\r'.toUInt8 ∨ b = '\n'.toUInt8

instance (b : UInt8) : Decidable (Space b) := inferInstanceAs (Decidable (_ ∨ _))

theorem isSpace_iff {b : UInt8} : isSpace b = true ↔ Space b := by
  simp only [isSpace, Bool.or_eq_true, beq_iff_eq, or_assoc]
  rfl

theorem isSpace_eq_false_iff {b : UInt8} : isSpace b = false ↔ ¬ Space b := by
  rw [← isSpace_iff, Bool.not_eq_true]

theorem isSpace_lineFeed : isSpace lineFeed = true := by decide

theorem space_lineFeed : Space lineFeed := isSpace_iff.1 isSpace_lineFeed

/-! ## The relation -/

/-- `Gap s t`: spaces and comments lead from `s` to `t`.  A comment runs up to the next line feed,
or to the end of the text. -/
inductive Gap : List UInt8 → List UInt8 → Prop
  | nil (t : List UInt8) : Gap t t
  | space {b : UInt8} {s t : List UInt8} (hb : Space b) (h : Gap s t) : Gap (b :: s) t
  | comment {body s t : List UInt8} (hBody : lineFeed ∉ body) (hEnd : ∀ b ∈ s.head?, b = lineFeed)
      (h : Gap s t) : Gap (slash :: slash :: (body ++ s)) t

/-- The gap from `s` to `t` cannot be continued. -/
structure LongestGap (s t : List UInt8) : Prop where
  gap : Gap s t
  longest : ∀ u, Gap t u → u = t

/-- What follows the longest gap at the front of `s`. -/
def beyondGap (s : List UInt8) : List UInt8 := s.drop (gapLength s)

/-! ## The measure and the relation -/

theorem gapLength_space {b : UInt8} (hb : Space b) (s : List UInt8) :
    gapLength (b :: s) = gapLength s + 1 := by
  rw [gapLength, gapLengthFrom_cons]
  simp [isSpace_iff.2 hb]

theorem startsComment_iff {s : List UInt8} :
    startsComment s = true ↔ ∃ u, s = slash :: slash :: u := by
  rw [startsComment, List.isPrefixOf_iff_prefix]
  exact ⟨fun ⟨u, hu⟩ => ⟨u, hu.symm⟩, fun ⟨u, hu⟩ => ⟨u, hu.symm⟩⟩

/-- Two bytes settle whether a comment starts. -/
theorem startsComment_cons_cons (b c : UInt8) (s s' : List UInt8) :
    startsComment (b :: c :: s) = startsComment (b :: c :: s') := rfl

/-- The rest of a comment counts up to its line feed, and on from there. -/
theorem gapLengthFrom_comment {body : List UInt8} (hBody : lineFeed ∉ body) {s : List UInt8}
    (hEnd : ∀ b ∈ s.head?, b = lineFeed) :
    gapLengthFrom 0 true (body ++ s) = body.length + gapLength s := by
  induction body with
  | nil =>
    cases s with
    | nil => rfl
    | cons b s =>
      have hb : b = lineFeed := hEnd b rfl
      rw [List.nil_append, gapLengthFrom_cons, hb, gapLength_space space_lineFeed]
      simp [gapLength]
  | cons b body ih =>
    have hb : b ≠ lineFeed := fun hEq => hBody (hEq ▸ List.mem_cons_self ..)
    rw [List.cons_append, gapLengthFrom_cons, if_pos rfl, bne_iff_ne.2 hb,
      ih fun h => hBody (List.mem_cons_of_mem _ h), List.length_cons]
    omega

theorem gapLength_comment {body : List UInt8} (hBody : lineFeed ∉ body) {s : List UInt8}
    (hEnd : ∀ b ∈ s.head?, b = lineFeed) :
    gapLength (slash :: slash :: (body ++ s)) = body.length + 2 + gapLength s := by
  have hBody' : lineFeed ∉ slash :: body := by
    rw [List.mem_cons]
    rintro (h | h)
    · exact absurd h (by decide)
    · exact hBody h
  have hStart : startsComment (slash :: slash :: (body ++ s)) = true := by
    simp [startsComment]
  rw [gapLength, gapLengthFrom_cons, if_neg (by simp), if_neg (by decide), if_pos hStart,
    ← List.cons_append, gapLengthFrom_comment hBody' hEnd, List.length_cons]
  omega

/-- The two ends of a gap lie before the same text. -/
theorem Gap.beyondGap_eq {s t : List UInt8} (h : Gap s t) : beyondGap s = beyondGap t := by
  induction h with
  | nil t => rfl
  | @space b s t hb _ ih =>
    rw [← ih, beyondGap, gapLength_space hb, List.drop_succ_cons, beyondGap]
  | @comment body s t hBody hEnd _ ih =>
    rw [← ih, beyondGap, gapLength_comment hBody hEnd,
      show body.length + 2 + gapLength s = (body.length + gapLength s) + 1 + 1 by omega,
      List.drop_succ_cons, List.drop_succ_cons, List.drop_append]
    simp [beyondGap]

/-- Behind the longest gap no comment starts. -/
theorem startsComment_beyondGap (s : List UInt8) : startsComment (beyondGap s) = false := by
  have hZero : gapLength (beyondGap s) = 0 := gapLength_drop_gapLength s
  rw [Bool.eq_false_iff]
  intro hStart
  obtain ⟨u, hu⟩ := startsComment_iff.1 hStart
  rw [hu, gapLength, gapLengthFrom_cons, if_neg (by simp), if_neg (by decide),
    if_pos (hu ▸ hStart)] at hZero
  omega

/-- A text that starts neither with a space nor with a comment starts with no gap. -/
theorem beyondGap_eq_self {s : List UInt8} (hSpace : ∀ b ∈ s.head?, ¬ Space b)
    (hComment : startsComment s = false) : beyondGap s = s := by
  cases s with
  | nil => rfl
  | cons b s =>
    have hb : ¬ isSpace b = true := mt isSpace_iff.1 (hSpace b rfl)
    have hZero : gapLength (b :: s) = 0 := by
      rw [gapLength, gapLengthFrom_cons, if_neg (by simp), if_neg hb, if_neg (by simp [hComment])]
    rw [beyondGap, hZero, List.drop_zero]

/-- There is a gap as long as the measure says; a text that stands inside a comment starts with the
rest of that comment. -/
theorem exists_gap (s : List UInt8) :
    Gap s (beyondGap s) ∧ ∃ body u : List UInt8, s = body ++ u ∧ lineFeed ∉ body ∧
      (∀ b ∈ u.head?, b = lineFeed) ∧ Gap u (s.drop (gapLengthFrom 0 true s)) := by
  induction s with
  | nil => exact ⟨.nil [], [], [], rfl, by simp, by simp, .nil []⟩
  | cons b s ih =>
    obtain ⟨hGap, body, u, hs, hBody, hEnd, hComment⟩ := ih
    constructor
    · by_cases hb : isSpace b = true
      · rw [beyondGap, gapLength_space (isSpace_iff.1 hb)]
        exact .space (isSpace_iff.1 hb) hGap
      · by_cases hStart : startsComment (b :: s) = true
        · -- the second slash starts the body that the induction found
          obtain ⟨v, hv⟩ := startsComment_iff.1 hStart
          obtain ⟨rfl, rfl⟩ := List.cons.inj hv
          cases body with
          | nil =>
            rw [List.nil_append] at hs
            exact absurd (hEnd slash (by rw [← hs]; rfl)) (by decide)
          | cons c body =>
            rw [List.cons_append] at hs
            obtain ⟨rfl, rfl⟩ := List.cons.inj hs
            have hLength : gapLength (slash :: slash :: (body ++ u)) =
                gapLengthFrom 0 true (slash :: (body ++ u)) + 1 := by
              rw [gapLength, gapLengthFrom_cons, if_neg (by simp), if_neg hb, if_pos hStart]
            rw [beyondGap, hLength, List.drop_succ_cons]
            exact .comment (fun h => hBody (List.mem_cons_of_mem _ h)) hEnd hComment
        · have hLength : gapLength (b :: s) = 0 := by
            rw [gapLength, gapLengthFrom_cons, if_neg (by simp), if_neg hb, if_neg hStart]
          rw [beyondGap, hLength]
          exact .nil _
    · by_cases hb : b = lineFeed
      · refine ⟨[], b :: s, rfl, by simp, by simpa using hb, ?_⟩
        rw [gapLengthFrom_cons, if_pos rfl, hb, bne_self_eq_false]
        exact .space space_lineFeed hGap
      · refine ⟨b :: body, u, by rw [hs]; rfl, ?_, hEnd, ?_⟩
        · rw [List.mem_cons]
          rintro (h | h)
          · exact hb h.symm
          · exact hBody h
        · rw [gapLengthFrom_cons, if_pos rfl, bne_iff_ne.2 hb]
          exact hComment

theorem Gap.eq_of_gapLength_eq_zero {t u : List UInt8} (h : Gap t u) (hZero : gapLength t = 0) :
    u = t := by
  cases h with
  | nil => rfl
  | space hb _ => rw [gapLength_space hb] at hZero; omega
  | comment hBody hEnd _ => rw [gapLength_comment hBody hEnd] at hZero; omega

/-- **The measure is right.**  The longest gap at the front of `s` leads to what is left of `s`
behind as many bytes as were measured, and nowhere else. -/
theorem longestGap_iff {s t : List UInt8} : LongestGap s t ↔ t = beyondGap s := by
  constructor
  · rintro ⟨hGap, hLongest⟩
    rw [hGap.beyondGap_eq, hLongest _ (exists_gap t).1]
  · rintro rfl
    exact ⟨(exists_gap s).1, fun u hu => hu.eq_of_gapLength_eq_zero (gapLength_drop_gapLength s)⟩

/-! ## Exchanging what follows -/

/-- **A gap that ends before a known byte ends there whatever follows.**  The bytes `w` are known
and more than the gap; what follows them may be exchanged, as long as it does not complete a pair
of slashes where the gap ended. -/
theorem gapLengthFrom_append_of_lt {inComment : Bool} {w u v : List UInt8}
    (hLt : gapLengthFrom 0 inComment (w ++ u) < w.length)
    (hEnd : startsComment ((w ++ v).drop (gapLengthFrom 0 inComment (w ++ u))) = false) :
    gapLengthFrom 0 inComment (w ++ v) = gapLengthFrom 0 inComment (w ++ u) := by
  induction w generalizing inComment with
  | nil => exact absurd hLt (Nat.not_lt_zero _)
  | cons b w ih =>
    rw [List.cons_append, gapLengthFrom_cons] at hLt hEnd
    rw [List.cons_append, gapLengthFrom_cons, List.cons_append, gapLengthFrom_cons]
    by_cases hIn : inComment = true
    · simp only [if_pos hIn, List.length_cons, List.cons_append, List.drop_succ_cons] at hLt hEnd ⊢
      rw [ih (by omega) hEnd]
    by_cases hb : isSpace b = true
    · simp only [if_neg hIn, if_pos hb, List.length_cons, List.cons_append,
        List.drop_succ_cons] at hLt hEnd ⊢
      exact congrArg (· + 1) (ih (by unfold gapLength at hLt; omega) hEnd)
    by_cases hStart : startsComment (b :: (w ++ u)) = true
    · simp only [if_neg hIn, if_neg hb, if_pos hStart, List.length_cons, List.cons_append,
        List.drop_succ_cons] at hLt hEnd ⊢
      -- both slashes are known, since the gap passes them
      cases w with
      | nil => exact absurd hLt (by simp)
      | cons c w =>
        have hStart' : startsComment (b :: (c :: w ++ v)) = true := by
          rw [← hStart]
          exact startsComment_cons_cons b c _ _
        rw [if_pos hStart', ih (by omega) hEnd]
    · simp only [if_neg hIn, if_neg hb, if_neg hStart, List.drop_zero, List.cons_append] at hEnd ⊢
      simp [hEnd]

/-- A gap that ends with the known bytes goes on over a line feed put there, and over the gap
behind it. -/
theorem gapLengthFrom_append_lineFeed {inComment : Bool} {w u : List UInt8}
    (hEnd : gapLengthFrom 0 inComment (w ++ u) = w.length) (y : List UInt8) :
    gapLengthFrom 0 inComment (w ++ lineFeed :: y) = w.length + 1 + gapLength y := by
  induction w generalizing inComment with
  | nil =>
    rw [List.nil_append, gapLengthFrom_cons, isSpace_lineFeed, bne_self_eq_false]
    cases inComment <;> simp [gapLength] <;> omega
  | cons b w ih =>
    rw [List.cons_append, gapLengthFrom_cons, List.length_cons] at hEnd
    rw [List.cons_append, gapLengthFrom_cons, List.length_cons]
    by_cases hIn : inComment = true
    · rw [if_pos hIn] at hEnd ⊢
      rw [ih (by omega)]
      omega
    by_cases hb : isSpace b = true
    · rw [if_neg hIn, if_pos hb] at hEnd ⊢
      have hRest : gapLengthFrom 0 false (w ++ lineFeed :: y) = w.length + 1 + gapLength y :=
        ih (by unfold gapLength at hEnd; omega)
      rw [gapLength, hRest]
      omega
    by_cases hStart : startsComment (b :: (w ++ u)) = true
    · rw [if_neg hIn, if_neg hb, if_pos hStart] at hEnd
      rw [if_neg hIn, if_neg hb]
      cases w with
      | nil =>
        -- the second slash would be in the gap, but behind the known bytes
        obtain ⟨x, hx⟩ := startsComment_iff.1 hStart
        simp only [List.nil_append, List.cons.injEq] at hx hEnd
        rw [hx.2, gapLengthFrom_cons] at hEnd
        simp at hEnd
      | cons c w =>
        have hStart' : startsComment (b :: (c :: w ++ lineFeed :: y)) = true := by
          rw [← hStart]
          exact startsComment_cons_cons b c _ _
        rw [if_pos hStart', ih (by omega)]
        omega
    · rw [if_neg hIn, if_neg hb, if_neg hStart] at hEnd
      omega

/-- How many bytes lie before a tail that is known from some place on. -/
theorem length_add_of_drop_append_eq {w w' u : List UInt8} {n : Nat} (hn : n ≤ (w ++ u).length)
    (h : (w ++ u).drop n = w' ++ u) : n + w'.length = w.length ∧ w.drop n = w' := by
  have hLength := congrArg List.length h
  simp only [List.length_drop, List.length_append] at hLength hn
  have hn' : n + w'.length = w.length := by omega
  rw [List.drop_append_of_le_length (by omega)] at h
  exact ⟨hn', List.append_cancel_right h⟩

theorem beyondGap_append {w w' u v : List UInt8} (h : beyondGap (w ++ u) = w' ++ u) (hw' : w' ≠ [])
    (hEnd : startsComment (w' ++ v) = false) : beyondGap (w ++ v) = w' ++ v := by
  obtain ⟨hLength, hDrop⟩ := length_add_of_drop_append_eq (gapLength_le_length _) h
  have hPos : 0 < w'.length := List.length_pos_iff.2 hw'
  have hSplit : (w ++ v).drop (gapLength (w ++ u)) = w' ++ v := by
    rw [List.drop_append_of_le_length (by omega), hDrop]
  have hGap : gapLength (w ++ v) = gapLength (w ++ u) := by
    refine gapLengthFrom_append_of_lt ?_ ?_
    · exact show gapLength (w ++ u) < w.length by omega
    · exact hSplit ▸ hEnd
  rw [beyondGap, hGap, hSplit]

theorem beyondGap_append_lineFeed {w u : List UInt8} (h : beyondGap (w ++ u) = u)
    (y : List UInt8) : beyondGap (w ++ lineFeed :: y) = beyondGap y := by
  have hDrop : (w ++ u).drop (gapLength (w ++ u)) = [] ++ u := h
  have hLength := (length_add_of_drop_append_eq (gapLength_le_length (w ++ u)) hDrop).1
  have hGap : gapLength (w ++ lineFeed :: y) = w.length + 1 + gapLength y :=
    gapLengthFrom_append_lineFeed hLength y
  rw [beyondGap, hGap, List.drop_append, List.drop_eq_nil_of_le (by omega), List.nil_append,
    show w.length + 1 + gapLength y - w.length = gapLength y + 1 by omega, List.drop_succ_cons,
    beyondGap]

end ScriptCheck.Source
