import ScriptCheck.Proofs.Significance

/-!
# Texts without their comments

A check passes over comments wherever a gap may stand.  So it should not matter whether they are
there at all.  This file takes them out and follows a check through both texts: they are read in
the same way, terminal by terminal, and lines stay lines.

* `uncommentFrom` — a text without its comments, in one pass over its bytes.
* `Tracks`, `Beside` — cursors in a text and in what is left of it, byte by byte and behind a gap;
  a terminal leads from places beside each other to such places (`Beside.read`).
* `Reaches.uncomment` — **a run does not notice that the comments are gone.**
* `check_uncommentFrom` — nor does a check; if it fails, it fails in places beside each other.
-/

namespace ScriptCheck.Source

/-! ## Texts without comments -/

/-- Whether the first byte of a text lies in a comment, where the front of the text stands inside a
comment if `inComment`. -/
def hidden (inComment : Bool) : List UInt8 → Bool
  | [] => false
  | b :: s => (inComment || startsComment (b :: s)) && b != lineFeed

/-- What is left of a text without its comments, where the front of the text stands inside a comment
if `inComment`. -/
def uncommentFrom (inComment : Bool) : List UInt8 → List UInt8
  | [] => []
  | b :: s =>
    if hidden inComment (b :: s) then uncommentFrom true s else b :: uncommentFrom false s

theorem uncommentFrom_of_hidden {inComment : Bool} {b : UInt8} {s : List UInt8}
    (h : hidden inComment (b :: s) = true) :
    uncommentFrom inComment (b :: s) = uncommentFrom true s := by
  rw [uncommentFrom, if_pos h]

theorem uncommentFrom_of_shown {inComment : Bool} {b : UInt8} {s : List UInt8}
    (h : hidden inComment (b :: s) = false) :
    uncommentFrom inComment (b :: s) = b :: uncommentFrom false s := by
  rw [uncommentFrom, h, if_neg Bool.false_ne_true]

theorem hidden_lineFeed (inComment : Bool) (s : List UInt8) :
    hidden inComment (lineFeed :: s) = false := by
  simp [hidden]

theorem hidden_of_ne_lineFeed {b : UInt8} (hb : b ≠ lineFeed) (s : List UInt8) :
    hidden true (b :: s) = true := by
  simp [hidden, hb]

/-- Outside comments, a byte is hidden only where a comment starts. -/
theorem hidden_false (s : List UInt8) : hidden false s = startsComment s := by
  cases s with
  | nil => rfl
  | cons b s =>
    rw [hidden, Bool.false_or]
    cases hStart : startsComment (b :: s) with
    | false => rfl
    | true =>
      obtain ⟨u, hu⟩ := startsComment_iff.1 hStart
      rw [(List.cons.inj hu).1]
      rfl

theorem uncommentFrom_cons {b : UInt8} {s : List UInt8} (h : startsComment (b :: s) = false) :
    uncommentFrom false (b :: s) = b :: uncommentFrom false s :=
  uncommentFrom_of_shown ((hidden_false _).trans h)

theorem uncommentFrom_comment {b : UInt8} {s : List UInt8} (h : startsComment (b :: s) = true) :
    uncommentFrom false (b :: s) = uncommentFrom true s :=
  uncommentFrom_of_hidden ((hidden_false _).trans h)

theorem startsComment_of_gapLength {s : List UInt8} (h : gapLength s = 0) :
    startsComment s = false := by
  have hSelf : beyondGap s = s := by rw [beyondGap, h, List.drop_zero]
  rw [← hSelf]
  exact startsComment_beyondGap s

theorem startsComment_of_ne_slash {b : UInt8} (hb : b ≠ slash) (s : List UInt8) :
    startsComment (b :: s) = false := by
  rw [Bool.eq_false_iff]
  intro hStart
  obtain ⟨u, hu⟩ := startsComment_iff.1 hStart
  exact hb (List.cons.inj hu).1

/-- What is left behind a comment starts with the line feed that ends it. -/
theorem head?_uncommentFrom_true (s : List UInt8) :
    ∀ b ∈ (uncommentFrom true s).head?, b = lineFeed := by
  induction s with
  | nil => simp [uncommentFrom]
  | cons b s ih =>
    by_cases hb : b = lineFeed
    · rw [hb, uncommentFrom_of_shown (hidden_lineFeed true s)]
      simp
    · rwa [uncommentFrom_of_hidden (hidden_of_ne_lineFeed hb s)]

theorem head?_uncommentFrom {s : List UInt8} (h : startsComment s = false) :
    (uncommentFrom false s).head? = s.head? := by
  cases s with
  | nil => rfl
  | cons b s =>
    rw [uncommentFrom_cons h]
    rfl

/-- A text without its comments has none. -/
theorem startsComment_uncommentFrom (s : List UInt8) :
    startsComment (uncommentFrom false s) = false := by
  rw [Bool.eq_false_iff]
  intro hStart
  obtain ⟨u, hu⟩ := startsComment_iff.1 hStart
  cases s with
  | nil => cases hu
  | cons b s =>
    cases hs : startsComment (b :: s) with
    | true =>
      rw [uncommentFrom_comment hs] at hu
      exact absurd (head?_uncommentFrom_true s slash (by rw [hu]; rfl)) (by decide)
    | false =>
      -- the second slash that is left would have been the second one before
      rw [uncommentFrom_cons hs] at hu
      obtain ⟨rfl, hTail⟩ := List.cons.inj hu
      cases hs' : startsComment s with
      | true =>
        obtain ⟨v, rfl⟩ := startsComment_iff.1 hs'
        exact absurd hs (by simp [startsComment])
      | false =>
        have hHead := head?_uncommentFrom hs'
        rw [hTail] at hHead
        obtain ⟨v, rfl⟩ := List.head?_eq_some_iff.1 hHead.symm
        exact absurd hs (by simp [startsComment])

/-- A run of bytes that holds no slash and no line feed is the same without the comments. -/
theorem takeWhile_uncommentFrom {p : UInt8 → Bool} (hSlash : p slash = false)
    (hLine : p lineFeed = false) (s : List UInt8) :
    (uncommentFrom false s).takeWhile p = s.takeWhile p := by
  induction s with
  | nil => rfl
  | cons b s ih =>
    cases hStart : startsComment (b :: s) with
    | false =>
      rw [uncommentFrom_cons hStart, List.takeWhile_cons, List.takeWhile_cons, ih]
    | true =>
      rw [uncommentFrom_comment hStart]
      obtain ⟨u, hu⟩ := startsComment_iff.1 hStart
      rw [hu, List.takeWhile_cons, hSlash, if_neg Bool.false_ne_true]
      cases hLeft : uncommentFrom true s with
      | nil => rfl
      | cons c v =>
        have hc : c = lineFeed := head?_uncommentFrom_true s c (by rw [hLeft]; rfl)
        rw [List.takeWhile_cons, hc, hLine, if_neg Bool.false_ne_true]

theorem uncommentFrom_append {w : List UInt8} (hw : slash ∉ w) (s : List UInt8) :
    uncommentFrom false (w ++ s) = w ++ uncommentFrom false s := by
  induction w with
  | nil => rfl
  | cons b w ih =>
    rw [List.mem_cons, not_or] at hw
    have hStart : startsComment (b :: (w ++ s)) = false :=
      startsComment_of_ne_slash (Ne.symm hw.1) _
    rw [List.cons_append, uncommentFrom_cons hStart, ih hw.2, List.cons_append]

theorem uncommentFrom_true_append {w : List UInt8} (hw : lineFeed ∉ w) (s : List UInt8) :
    uncommentFrom true (w ++ s) = uncommentFrom true s := by
  induction w with
  | nil => rfl
  | cons b w ih =>
    rw [List.mem_cons, not_or] at hw
    rw [List.cons_append, uncommentFrom_of_hidden (hidden_of_ne_lineFeed (Ne.symm hw.1) _), ih hw.2]

/-- Where no comment starts, a terminal is as long as it is without the comments. -/
theorem Terminal.length_uncommentFrom (t : Terminal) {s : List UInt8}
    (h : startsComment s = false) : t.length (uncommentFrom false s) = t.length s := by
  cases t with
  | byte | word bytes => rfl
  | name =>
    cases s with
    | nil => rfl
    | cons b s =>
      rw [uncommentFrom_cons h]
      simp only [length, nameLength, takeWhile_uncommentFrom (p := continuesName) (by decide)
        (by decide)]
  | number => simp only [length, takeWhile_uncommentFrom (p := isDigit) (by decide) (by decide)]

/-! ## Single moves of a cursor -/

section

variable {text : List UInt8} {c : Cursor text}

theorem Cursor.bump_of_cons {b : UInt8} {bs : List UInt8} (h : c.rest = b :: bs) :
    c.bump.position = c.position + 1 ∧
      c.bump.line = (if b = lineFeed then c.line + 1 else c.line) ∧
      c.bump.lineStart = if b = lineFeed then c.position + 1 else c.lineStart := by
  unfold Cursor.bump
  split
  · simp_all
  · rename_i h'
    obtain ⟨rfl, rfl⟩ := List.cons.inj (h.symm.trans h')
    exact ⟨rfl, rfl, rfl⟩

/-- A space is passed with the gap that it starts. -/
theorem Cursor.skipGap_of_space {b : UInt8} {bs : List UInt8} (h : c.rest = b :: bs)
    (hb : Space b) : c.skipGap = c.bump.skipGap := by
  rw [skipGap, skipGap, rest_bump, h, gapLength_space hb, List.tail_cons, advance]

theorem Cursor.skipGap_of_zero (h : gapLength c.rest = 0) : c.skipGap = c := by
  rw [skipGap, h, advance]

end

end ScriptCheck.Source

namespace ScriptCheck.Grammar

open Source

variable {limit : NestingLimit} {text text' : List UInt8} {c : Cursor text} {d : Cursor text'}
  {inComment : Bool}

/-! ## Cursors beside each other -/

/-- Of what lies behind `c`, which is inside a comment if `inComment`, the comments are missing
behind `d`.  The lines are the same, and outside comments the columns are. -/
structure Tracks (inComment : Bool) (c : Cursor text) (d : Cursor text') : Prop where
  rest_eq : d.rest = uncommentFrom inComment c.rest
  line_eq : d.line = c.line
  place_eq : inComment = false → d.position + c.lineStart = c.position + d.lineStart

/-- Cursors that track each other and are not inside a comment, unless the text ends there. -/
structure Beside (c : Cursor text) (d : Cursor text') : Prop where
  rest_eq : d.rest = uncommentFrom false c.rest
  line_eq : d.line = c.line
  place_eq : c.rest ≠ [] → d.position + c.lineStart = c.position + d.lineStart

theorem Tracks.beside (h : Tracks false c d) : Beside c d :=
  ⟨h.rest_eq, h.line_eq, fun _ => h.place_eq rfl⟩

theorem Beside.tracks (h : Beside c d) (hMore : c.rest ≠ []) : Tracks false c d :=
  ⟨h.rest_eq, h.line_eq, fun _ => h.place_eq hMore⟩

theorem Beside.column_eq (h : Beside c d) (hMore : c.rest ≠ []) : d.column = c.column := by
  have hPlace := h.place_eq hMore
  rw [Cursor.column, Cursor.column]
  omega

theorem tracks_start (text : List UInt8) :
    Tracks false (Cursor.start text) (Cursor.start (uncommentFrom false text)) :=
  ⟨rfl, rfl, fun _ => rfl⟩

theorem Tracks.rest_of_shown {b : UInt8} {s : List UInt8} (h : Tracks inComment c d)
    (hc : c.rest = b :: s) (hShown : hidden inComment (b :: s) = false) :
    d.rest = b :: uncommentFrom false s := by
  rw [h.rest_eq, hc, uncommentFrom_of_shown hShown]

/-- A byte of a comment is passed on one side only. -/
theorem Tracks.hide {b : UInt8} {s : List UInt8} (h : Tracks inComment c d) (hc : c.rest = b :: s)
    (hHidden : hidden inComment (b :: s) = true) : Tracks true c.bump d := by
  have hb : b ≠ lineFeed := by
    rintro rfl
    rw [hidden_lineFeed] at hHidden
    cases hHidden
  refine ⟨?_, ?_, fun h => by cases h⟩
  · rw [h.rest_eq, hc, uncommentFrom_of_hidden hHidden, Cursor.rest_bump, hc, List.tail_cons]
  · rw [(Cursor.bump_of_cons hc).2.1, if_neg hb, h.line_eq]

/-- Any other byte is passed on both sides, and no comment covers what follows. -/
theorem Tracks.bump {b : UInt8} {s : List UInt8} (h : Tracks inComment c d) (hc : c.rest = b :: s)
    (hShown : hidden inComment (b :: s) = false) : Tracks false c.bump d.bump := by
  have hd := h.rest_of_shown hc hShown
  obtain ⟨hPosition, hLine, hLineStart⟩ := Cursor.bump_of_cons hc
  obtain ⟨hPosition', hLine', hLineStart'⟩ := Cursor.bump_of_cons hd
  refine ⟨?_, ?_, fun _ => ?_⟩
  · rw [Cursor.rest_bump, Cursor.rest_bump, hc, hd, List.tail_cons, List.tail_cons]
  · rw [hLine, hLine', h.line_eq]
  · rw [hPosition, hPosition', hLineStart, hLineStart']
    by_cases hb : b = lineFeed
    · rw [if_pos hb, if_pos hb, Nat.add_comm]
    · -- a byte that is shown and ends no line lies outside comments, so the places agreed before
      have hOutside : inComment = false := by
        cases inComment with
        | false => rfl
        | true =>
          rw [hidden_of_ne_lineFeed hb] at hShown
          cases hShown
      have hPlace := h.place_eq hOutside
      rw [if_neg hb, if_neg hb]
      omega

/-- Bytes without a slash are passed on both sides. -/
theorem Tracks.advance {w u : List UInt8} (h : Tracks false c d) (hc : c.rest = w ++ u)
    (hw : slash ∉ w) : Tracks false (c.advance w.length) (d.advance w.length) := by
  induction w generalizing c d with
  | nil => exact h
  | cons b w ih =>
    rw [List.mem_cons, not_or] at hw
    have hShown : hidden false (b :: (w ++ u)) = false := by
      rw [hidden_false]
      exact startsComment_of_ne_slash (Ne.symm hw.1) _
    refine ih (h.bump hc hShown) ?_ hw.2
    rw [Cursor.rest_bump, hc]
    rfl

/-- **Gaps end in places beside each other.** -/
theorem Tracks.skip (h : Tracks inComment c d) :
    Beside (c.advance (gapLengthFrom 0 inComment c.rest)) d.skipGap := by
  induction hs : c.rest generalizing inComment c d with
  | nil =>
    have hd : d.rest = [] := by rw [h.rest_eq, hs, uncommentFrom]
    rw [Cursor.skipGap_of_zero (by rw [hd]; rfl)]
    refine ⟨?_, h.line_eq, fun hMore => absurd hs hMore⟩
    rw [hd]
    exact (congrArg (uncommentFrom false) hs).symm
  | cons b s ih =>
    have hBump : c.bump.rest = s := by rw [Cursor.rest_bump, hs, List.tail_cons]
    rw [gapLengthFrom_cons]
    cases inComment with
    | true =>
      rw [if_pos rfl, Cursor.advance]
      by_cases hb : b = lineFeed
      · have hShown : hidden true (b :: s) = false := hb ▸ hidden_lineFeed true s
        have hd := h.rest_of_shown hs hShown
        rw [Cursor.skipGap_of_space hd (hb ▸ space_lineFeed), hb, bne_self_eq_false]
        exact ih (h.bump hs hShown) hBump
      · rw [bne_iff_ne.2 hb]
        exact ih (h.hide hs (hidden_of_ne_lineFeed hb s)) hBump
    | false =>
      rw [if_neg Bool.false_ne_true]
      by_cases hb : isSpace b = true
      · have hShown : hidden false (b :: s) = false := by
          rw [hidden_false]
          refine startsComment_of_ne_slash ?_ s
          rintro rfl
          exact absurd hb (by decide)
        rw [if_pos hb, Cursor.advance,
          Cursor.skipGap_of_space (h.rest_of_shown hs hShown) (isSpace_iff.1 hb)]
        exact ih (h.bump hs hShown) hBump
      rw [if_neg hb]
      cases hStart : startsComment (b :: s) with
      | true =>
        rw [if_pos rfl, Cursor.advance]
        exact ih (h.hide hs (by rwa [hidden_false])) hBump
      | false =>
        -- neither side has a gap here
        have hd := h.rest_of_shown hs (by rwa [hidden_false])
        have hStart' : startsComment (b :: uncommentFrom false s) = false := by
          rw [← hd, h.rest_eq]
          exact startsComment_uncommentFrom _
        have hZero : gapLength d.rest = 0 := by
          rw [hd, gapLength, gapLengthFrom_cons, if_neg Bool.false_ne_true, if_neg hb, hStart',
            if_neg Bool.false_ne_true]
        rw [if_neg Bool.false_ne_true, Cursor.skipGap_of_zero hZero]
        exact h.beside

theorem Tracks.read {t : Terminal} (hLength : t.length d.rest = t.length c.rest)
    (h : Tracks false (c.advance (t.length c.rest)) (d.advance (t.length c.rest))) :
    Beside (c.read t) (d.read t) := by
  -- the note that names and numbers leave on the cursor is no part of the relation
  have hToken : ∀ n, Tracks false (c.advance n) (d.advance n) →
      Beside (c.takeToken n) (d.takeToken n) := fun n hn =>
    Tracks.skip (c := (c.advance n).setToken c.position) (d := (d.advance n).setToken d.position)
      ⟨hn.rest_eq, hn.line_eq, hn.place_eq⟩
  cases t with
  | byte | word bytes => exact h.skip
  | name =>
    have hLength : nameLength d.rest = nameLength c.rest := hLength
    rw [Cursor.read, Cursor.read, hLength]
    exact hToken _ h
  | number =>
    have hLength : (d.rest.takeWhile isDigit).length = (c.rest.takeWhile isDigit).length := hLength
    rw [Cursor.read, Cursor.read, hLength]
    exact hToken _ h

/-! ## Runs beside each other -/

theorem varWord_isPrefixOf_uncommentFrom (s : List UInt8) :
    varWord.isPrefixOf (uncommentFrom false s) = varWord.isPrefixOf s := by
  have hWord : ∀ s : List UInt8, varWord <+: s ↔ varWord <+: s.takeWhile continuesName := by
    intro s
    constructor
    · rintro ⟨u, rfl⟩
      rw [List.takeWhile_append_of_pos (by decide +kernel)]
      exact List.prefix_append _ _
    · intro h
      exact h.trans (List.takeWhile_prefix continuesName)
  rw [Bool.eq_iff_iff, List.isPrefixOf_iff_prefix, List.isPrefixOf_iff_prefix, hWord, hWord s,
    takeWhile_uncommentFrom (by decide) (by decide)]

theorem Beside.move_eq (h : Beside c d) (hGap : gapLength c.rest = 0) (st : State) :
    st.move limit d.rest = st.move limit c.rest := by
  rw [h.rest_eq]
  exact State.move_congr (head?_uncommentFrom (startsComment_of_gapLength hGap))
    fun _ => varWord_isPrefixOf_uncommentFrom c.rest

/-- **A terminal leads from places beside each other to such places.** -/
theorem Beside.read {st st' : State} {t : Terminal} (h : Beside c d) (hGap : gapLength c.rest = 0)
    (hRule : Reading c.rest st t st') : Beside (c.read t) (d.read t) := by
  have hFits := hRule.fits
  have hMore : c.rest ≠ [] := by
    intro hNil
    exact hFits.bytes_ne_nil (by rw [Terminal.bytes, hNil, List.take_nil])
  have hTracks := h.tracks hMore
  have hStart := startsComment_of_gapLength hGap
  refine Tracks.read (by rw [h.rest_eq, t.length_uncommentFrom hStart]) ?_
  rcases hRule.byte_or_word with rfl | hWord
  · obtain ⟨b, s, hs⟩ := List.exists_cons_of_ne_nil hMore
    exact hTracks.bump hs (by rwa [hidden_false, ← hs])
  · have hLength : (t.bytes c.rest).length = t.length c.rest := by
      rw [Terminal.bytes, List.length_take_of_le hFits.length_le]
    have hSplit : c.rest = t.bytes c.rest ++ c.rest.drop (t.length c.rest) :=
      (List.take_append_drop _ _).symm
    rw [← hLength]
    refine hTracks.advance hSplit fun hSlash => ?_
    exact absurd (hWord slash hSlash) (by decide)

/-- **A run does not notice that the comments are gone.** -/
theorem Reaches.uncomment {st : State} {c : Cursor text}
    (h : Reaches limit (Config.start text) (st, c)) :
    ∃ d, Reaches limit (Config.start (uncommentFrom false text)) (st, d) ∧ Beside c d := by
  generalize hEnd : (st, c) = b at h
  induction h generalizing st c with
  | refl =>
    obtain ⟨rfl, rfl⟩ := Prod.mk.inj hEnd
    exact ⟨_, .refl, (tracks_start text).skip⟩
  | @tail b b' hRun hStep ih =>
    subst hEnd
    obtain ⟨d, hRun', hBeside⟩ := @ih b.1 b.2 rfl
    have hGap : gapLength b.2.rest = 0 := Reaches.gapLength_rest hRun
    cases hStep with
    | @goto st₁ _ c₁ hMove =>
      refine ⟨d, hRun'.tail (.goto ?_), hBeside⟩
      rw [hBeside.move_eq hGap, hMove]
    | @read st₁ _ c₁ t hMove =>
      refine ⟨d.read t, hRun'.tail (.read ?_), hBeside.read hGap (State.reading_of_move hMove)⟩
      rw [hBeside.move_eq hGap, hMove]

/-- Without its comments, a text is a program if it was one, and fails in the place beside if it
failed. -/
theorem check_uncommentFrom (limit : NestingLimit) (text : List UInt8) :
    ((check limit text).error? = none ∧
      (check limit (uncommentFrom false text)).error? = none) ∨
    ∃ cause, ∃ c : Cursor text, ∃ d : Cursor (uncommentFrom false text),
      (check limit text).error? = some (c.error cause) ∧
      (check limit (uncommentFrom false text)).error? = some (d.error cause) ∧ Beside c d := by
  rcases check_cases limit text with
    ⟨c, ⟨st, hRun, hMove⟩, hCheck⟩ | ⟨cause, c, ⟨st, hRun, hMove⟩, hCheck⟩
  · obtain ⟨d, hRun', hBeside⟩ := hRun.uncomment
    have hAccepts : Accepts limit (Config.start (uncommentFrom false text)) d :=
      ⟨st, hRun', (hBeside.move_eq hRun.gapLength_rest st).trans hMove⟩
    exact .inl ⟨by rw [hCheck], by rw [check_of_accepts hAccepts]⟩
  · obtain ⟨d, hRun', hBeside⟩ := hRun.uncomment
    have hFails : Fails limit (Config.start (uncommentFrom false text)) cause d :=
      ⟨st, hRun', (hBeside.move_eq hRun.gapLength_rest st).trans hMove⟩
    exact .inr ⟨cause, c, d, by rw [hCheck], by rw [check_of_fails hFails], hBeside⟩

end ScriptCheck.Grammar
