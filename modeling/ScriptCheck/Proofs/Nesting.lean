import ScriptCheck.Checker
import ScriptCheck.Proofs.Language
import ScriptCheck.Proofs.Significance

/-!
# Nesting limits

How the limit bears on what a check finds.

* `raised_limit_removes_limit_errors` — **raising the limit only removes limit errors.**  A run
  under the lower limit is a run under the higher one as well, up to the place where it meets its
  limit.
* `accepted_iff_levelsNeeded_le` — **the limit that a program needs** can be read off its
  significant bytes (`levelsNeeded`), and where a limit is met, as many brackets are open as it has
  levels.

For the second, `Nested` says what the bytes read so far tell of the state: its open brackets are
those that the bytes leave open, and no expression has been entered above the limit.  Call brackets
that are closed at once take no level, so a bracket counts only when the byte behind it is read.
-/

namespace ScriptCheck.Grammar

open Source

variable {text : List UInt8} {limit higher : NestingLimit}

/-! ## Raising the limit -/

/-- A move is the same under a higher limit, unless it meets the lower one. -/
theorem State.move_raise (hLe : limit.levels ≤ higher.levels) (s : List UInt8) (st : State) :
    st.move higher s = st.move limit s ∨
      st.move limit s = .fail (.nestingTooDeep limit.levels) := by
  cases st with
  | between | target | equals => exact .inl rfl
  | within stage opened declares =>
    cases stage with
    | operand | callee | behind | argument => exact .inl rfl
    | expression =>
      by_cases hRoom : opened.length < limit.levels
      · left
        rw [State.move, State.move, Stage.move, Stage.move, if_pos hRoom, if_pos (by omega)]
      · right
        rw [State.move, Stage.move, if_neg hRoom]

theorem Reaches.raise (hLe : limit.levels ≤ higher.levels) {a b : Config text}
    (h : Reaches limit a b) : Reaches higher a b := by
  induction h with
  | refl => exact .refl
  | tail _ hStep ih =>
    refine ih.tail ?_
    cases hStep with
    | @goto st _ c hMove =>
      rcases st.move_raise hLe c.rest with hSame | hFail
      · exact .goto (hSame.trans hMove)
      · rw [hMove] at hFail
        cases hFail
    | @read st _ c _ hMove =>
      rcases st.move_raise hLe c.rest with hSame | hFail
      · exact .read (hSame.trans hMove)
      · rw [hMove] at hFail
        cases hFail

theorem Accepts.raise (hLe : limit.levels ≤ higher.levels) {start : Config text} {c : Cursor text}
    (h : Accepts limit start c) : Accepts higher start c := by
  obtain ⟨st, hRun, hMove⟩ := h
  refine ⟨st, Reaches.raise hLe hRun, ?_⟩
  rcases st.move_raise hLe c.rest with hSame | hFail
  · exact hSame.trans hMove
  · rw [hMove] at hFail
    cases hFail

/-- A failure stays under a higher limit, unless it is the limit that was met. -/
theorem Fails.raise (hLe : limit.levels ≤ higher.levels) {start : Config text} {cause : Cause}
    {c : Cursor text} (h : Fails limit start cause c) :
    Fails higher start cause c ∨
      cause = .nestingTooDeep limit.levels ∧ ∃ st, Reaches higher start (st, c) := by
  obtain ⟨st, hRun, hMove⟩ := h
  rcases st.move_raise hLe c.rest with hSame | hFail
  · exact .inl ⟨st, Reaches.raise hLe hRun, hSame.trans hMove⟩
  · rw [hMove] at hFail
    cases hFail
    exact .inr ⟨rfl, st, Reaches.raise hLe hRun⟩

/-- A run fails nowhere before a place that it reaches. -/
theorem Fails.position_le {start b : Config text} {cause : Cause} {c : Cursor text}
    (h : Fails limit start cause c) (hRun : Reaches limit start b) :
    b.2.position ≤ c.position := by
  obtain ⟨st, hEnd, hMove⟩ := h
  have hEnded : Ended limit (st, c) := ended_of_next? (by simp [hMove, Move.next?])
  exact Reaches.position_le (hRun.to_end hEnd hEnded)

/-- **Raising the limit only removes limit errors.**  A check under a lower limit finds what the
check under a higher one finds, or it meets its limit, and then not behind the error that the other
check may find. -/
theorem raised_limit_removes_limit_errors (checker raised : Checker)
    (hLe : checker.limit.levels ≤ raised.limit.levels) (s : List UInt8) :
    ((checker.check s).lastError? = (raised.check s).lastError? ∧
        (checker.check s).line = (raised.check s).line) ∨
      ∃ e, (checker.check s).lastError? = some e ∧
        e.cause = .nestingTooDeep checker.limit.levels ∧
        ∀ e', (raised.check s).lastError? = some e' → e.offset ≤ e'.offset := by
  have hSame : check checker.limit s = check raised.limit s →
      (checker.check s).lastError? = (raised.check s).lastError? ∧
        (checker.check s).line = (raised.check s).line :=
    fun h => ⟨congrArg Verdict.error? h, congrArg Verdict.line h⟩
  rcases check_cases checker.limit s with ⟨c, hAccepts, hCheck⟩ | ⟨cause, c, hFails, hCheck⟩
  · exact .inl (hSame (hCheck.trans (check_of_accepts (hAccepts.raise hLe)).symm))
  rcases hFails.raise hLe with hRaised | ⟨rfl, st, hRun⟩
  · exact .inl (hSame (hCheck.trans (check_of_fails hRaised).symm))
  · refine .inr ⟨c.error _, congrArg Verdict.error? hCheck, rfl, fun e' he' => ?_⟩
    obtain ⟨cause', c', hFails', rfl⟩ := check_error?_eq_some_iff.1 he'
    exact hFails'.position_le hRun

/-- `x=((1);` needs three levels: with two the limit is met at the digit, with three the second
closing bracket is missed behind it. -/
theorem raised_limit_removes_limit_errors_group :
    ∃ e, ((Checker.new (.clamp 2)).check [0x78, 0x3d, 0x28, 0x28, 0x31, 0x29, 0x3b]).lastError? =
        some e ∧ e.cause = .nestingTooDeep 2 ∧
      ∀ e', ((Checker.new (.clamp 3)).check
          [0x78, 0x3d, 0x28, 0x28, 0x31, 0x29, 0x3b]).lastError? = some e' →
        e.offset ≤ e'.offset := by
  rcases raised_limit_removes_limit_errors (Checker.new (.clamp 2)) (Checker.new (.clamp 3))
    (by decide) [0x78, 0x3d, 0x28, 0x28, 0x31, 0x29, 0x3b] with hSame | hLimit
  · exact absurd hSame.1 (by decide +kernel)
  · exact hLimit

/-! ## Brackets among the significant bytes -/

/-- How many more brackets are opened than closed. -/
def excess (w : List UInt8) : Int := w.count '('.toUInt8 - w.count ')'.toUInt8

/-- The excess up to and including each opening bracket that the next byte does not close. -/
def openings (w : List UInt8) : List Int :=
  (List.range w.length).filterMap fun i =>
    if w[i]? = some '('.toUInt8 ∧ w[i + 1]? ≠ some ')'.toUInt8 then some (excess (w.take (i + 1)))
    else none

/-- The number of levels that a text needs if it is a program: one, and one for each bracket around
its innermost expression. -/
def levelsNeeded (s : List UInt8) : Int :=
  if significant s = [] then 0 else 1 + (openings (significant s)).max?.getD 0

theorem excess_append (w x : List UInt8) : excess (w ++ x) = excess w + excess x := by
  simp only [excess, List.count_append, Int.natCast_add]
  omega

theorem excess_open (w : List UInt8) : excess (w ++ ['('.toUInt8]) = excess w + 1 :=
  excess_append w _

theorem excess_word {w : List UInt8} (hw : ∀ b ∈ w, continuesName b = true) : excess w = 0 := by
  have hOpen : '('.toUInt8 ∉ w := fun h => absurd (hw _ h) (by decide)
  have hClose : ')'.toUInt8 ∉ w := fun h => absurd (hw _ h) (by decide)
  rw [excess, List.count_eq_zero.2 hOpen, List.count_eq_zero.2 hClose]
  rfl

theorem mem_openings {w : List UInt8} {n : Int} :
    n ∈ openings w ↔
      ∃ u v, w = u ++ '('.toUInt8 :: v ∧ v.head? ≠ some ')'.toUInt8 ∧ n = excess u + 1 := by
  simp only [openings, List.mem_filterMap, List.mem_range]
  constructor
  · rintro ⟨i, hi, h⟩
    split at h
    · rename_i hBracket
      obtain ⟨hOpen, hNext⟩ := hBracket
      have hw : w = w.take i ++ '('.toUInt8 :: w.drop (i + 1) := by
        obtain ⟨hi', hGet⟩ := List.getElem?_eq_some_iff.1 hOpen
        rw [← hGet, ← List.drop_eq_getElem_cons, List.take_append_drop]
      refine ⟨w.take i, w.drop (i + 1), hw, by rwa [List.head?_drop], ?_⟩
      rw [← excess_open, ← Option.some.inj h, List.take_add_one, hOpen]
      rfl
    · cases h
  · rintro ⟨u, v, rfl, hNext, rfl⟩
    refine ⟨u.length, by simp, ?_⟩
    rw [if_pos, ← excess_open, List.take_append, List.take_of_length_le (by omega)]
    · simp
    · constructor
      · simp
      · rw [List.getElem?_append_right (by omega)]
        simpa [List.head?_eq_getElem?] using hNext

/-- Where no bracket is closed before it is opened, the levels needed are a bound for all
openings. -/
theorem levelsNeeded_le_iff {s : List UInt8} (h : ∀ n ∈ openings (significant s), 0 ≤ n) (k : Nat) :
    levelsNeeded s ≤ k ↔
      significant s = [] ∨ 0 < k ∧ ∀ n ∈ openings (significant s), n < k := by
  rw [levelsNeeded]
  by_cases hEmpty : significant s = []
  · simp [hEmpty]
  rw [if_neg hEmpty, or_iff_right hEmpty]
  cases hMax : (openings (significant s)).max? with
  | none =>
    rw [List.max?_eq_none_iff] at hMax
    rw [Option.getD_none, hMax]
    constructor
    · intro hLe
      exact ⟨by omega, by simp⟩
    · rintro ⟨hPos, -⟩
      omega
  | some m =>
    obtain ⟨hMem, hMost⟩ := List.max?_eq_some_iff.1 hMax
    have hm := h m hMem
    rw [Option.getD_some]
    constructor
    · intro hLe
      refine ⟨by omega, fun n hn => ?_⟩
      have := hMost n hn
      omega
    · rintro ⟨-, hAll⟩
      have := hAll m hMem
      omega

/-! ## What the bytes read tell of the state -/

/-- The brackets that are open in a state. -/
def State.opened : State → List Bracket
  | within _ opened _ => opened
  | _ => []

/-- The last byte is an opening bracket. -/
def JustOpened (w : List UInt8) : Prop := w.getLast? = some '('.toUInt8

/-- The byte behind an opening bracket is there and does not close it; up to the bracket the excess
is `n`. -/
def InnerOpening (w : List UInt8) (n : Int) : Prop :=
  ∃ u v, w = u ++ '('.toUInt8 :: v ∧ v ≠ [] ∧ v.head? ≠ some ')'.toUInt8 ∧ n = excess u + 1

/-- Whether a state is inside the limit when the bytes `w` have been read.  All levels may be taken
before an expression that is not entered yet, but only at the very start of a bracket. -/
def State.InsideLimit (limit : NestingLimit) (w : List UInt8) : State → Prop
  | between => ¬ JustOpened w ∧ (w = [] ∨ 0 < limit.levels)
  | target _ | equals _ => ¬ JustOpened w
  | within .expression opened _ => opened.length ≤ limit.levels ∧
      (JustOpened w ∨ opened = [] ∨ opened.length < limit.levels)
  | within .argument opened _ => opened ≠ [] ∧ opened.length ≤ limit.levels ∧
      (JustOpened w ∨ opened.length < limit.levels)
  | within .operand opened _ => opened.length < limit.levels
  | within .callee opened _ | within .behind opened _ =>
      opened.length < limit.levels ∧ ¬ JustOpened w

/-- What the bytes `w` tell of the state in which they leave a run. -/
structure Nested (limit : NestingLimit) (st : State) (w : List UInt8) : Prop where
  /-- The brackets that are open are those that `w` leaves open. -/
  excess_eq : excess w = st.opened.length
  inside : st.InsideLimit limit w
  /-- Every expression that was entered had its level. -/
  inner : ∀ n, InnerOpening w n → 0 ≤ n ∧ n < limit.levels

theorem justOpened_append {w x : List UInt8} (hx : x ≠ []) :
    JustOpened (w ++ x) ↔ JustOpened x := by
  rw [JustOpened, JustOpened, List.getLast?_append_of_ne_nil w hx]

/-- An inner opening was one before the last terminal, or that terminal makes it one. -/
theorem InnerOpening.of_append {w x : List UInt8} {n : Int} (h : InnerOpening (w ++ x) n)
    (hx : '('.toUInt8 ∉ x ∨ x = ['('.toUInt8]) :
    InnerOpening w n ∨ JustOpened w ∧ n = excess w ∧ x.head? ≠ some ')'.toUInt8 := by
  obtain ⟨u, v, hw, hv, hNext, rfl⟩ := h
  have hNotIn : ∀ a, x ≠ a ++ '('.toUInt8 :: v := by
    rintro a rfl
    rcases hx with hx | hx
    · exact hx (by simp)
    · have hLength := congrArg List.length hx
      have := List.length_pos_iff.2 hv
      simp only [List.length_append, List.length_cons, List.length_nil] at hLength
      omega
  rcases List.append_eq_append_iff.1 hw with ⟨a, -, hIn⟩ | ⟨a, rfl, ha⟩
  · exact absurd hIn (hNotIn a)
  cases a with
  | nil => exact absurd ha.symm (hNotIn [])
  | cons b a =>
    obtain ⟨rfl, rfl⟩ := List.cons.inj ha
    cases a with
    | nil => exact .inr ⟨by simp [JustOpened], (excess_open u).symm, hNext⟩
    | cons b a => exact .inl ⟨u, b :: a, rfl, by simp, hNext, rfl⟩

/-! ### The terminals of the rules -/

section

variable {s : List UInt8} {st st' : State} {t : Terminal} {w : List UInt8}

theorem bytes_of_isOperator (h : isOperator s.head? = true) :
    excess (Terminal.byte.bytes s) = 0 := by
  simp only [isOperator, Bool.or_eq_true] at h
  rcases h with (h | h) | (h | h)
  all_goals
    rw [bytes_of_goesOn h]
    rfl

/-- A bracket is read alone. -/
theorem Reading.bracket_alone (h : Reading s st t st') :
    '('.toUInt8 ∉ t.bytes s ∨ t.bytes s = ['('.toUInt8] := by
  rcases h.byte_or_word with rfl | hWord
  · obtain ⟨b, s, rfl⟩ := List.exists_cons_of_ne_nil (show s ≠ [] from h.fits)
    by_cases hb : b = '('.toUInt8
    · exact .inr (by rw [hb]; rfl)
    · refine .inl fun hMem => hb ?_
      exact (List.mem_singleton.1 (show '('.toUInt8 ∈ [b] from hMem)).symm
  · exact .inl fun hMem => absurd (hWord _ hMem) (by decide)

theorem Reading.head?_bytes (h : Reading s st t st') : (t.bytes s).head? = s.head? := by
  rw [Terminal.bytes, List.head?_take, if_neg (Nat.ne_of_gt h.fits.length_pos)]

/-- A rule opens and closes the brackets that it reads. -/
theorem Reading.excess_eq (h : Reading s st t st') (hInside : st.InsideLimit limit w) :
    (st'.opened.length : Int) = st.opened.length + excess (t.bytes s) := by
  have hWord : t ≠ .byte → excess (t.bytes s) = 0 :=
    fun ht => excess_word (h.byte_or_word.resolve_left ht)
  cases h with
  | declare | assign | target | name | number =>
    rw [hWord (by simp)]
    rfl
  | equals h | comma h | nextTarget h | finish h =>
    rw [bytes_of_goesOn h]
    rfl
  | operator h =>
    rw [bytes_of_isOperator h]
    rfl
  | openGroup h | openCall h =>
    rw [bytes_of_goesOn h]
    rfl
  | @closeCall opened _ h =>
    rw [bytes_of_goesOn h]
    have hPos := List.length_pos_iff.2 hInside.1
    show (opened.tail.length : Int) = opened.length + -1
    rw [List.length_tail]
    omega
  | @closeGroup opened _ h =>
    rw [bytes_of_goesOn h]
    show (opened.length : Int) = (opened.length + 1 : Nat) + -1
    omega

/-! ### What the rules keep -/

theorem Change.insideLimit (h : Change limit s st st') (hInside : st.InsideLimit limit w) :
    st'.InsideLimit limit w := by
  cases h with
  | begin => exact ⟨Nat.zero_le _, .inr (.inl rfl)⟩
  | enter h => exact h
  | plain => exact hInside
  | nextArgument => exact ⟨hInside.2.1, hInside.2.2.imp_right .inr⟩
  | endArgument => exact ⟨List.cons_ne_nil _ _, hInside.1.le, .inr hInside.1⟩

theorem Reading.insideLimit (h : Reading s st t st') (hInside : st.InsideLimit limit w) :
    st'.InsideLimit limit (w ++ t.bytes s) := by
  have hJust : JustOpened (w ++ t.bytes s) ↔ JustOpened (t.bytes s) :=
    justOpened_append h.fits.bytes_ne_nil
  have hWord : t ≠ .byte → ¬ JustOpened (w ++ t.bytes s) :=
    fun ht => hJust.not.2 (getLast?_ne_of_word (h.byte_or_word.resolve_left ht) (by decide))
  have hMark : ∀ ch, t = .byte → goesOn ch s.head? = true →
      (JustOpened (w ++ t.bytes s) ↔ ch.toUInt8 = '('.toUInt8) := by
    rintro ch rfl hNext
    rw [hJust, bytes_of_goesOn hNext, JustOpened, List.getLast?_singleton, Option.some_inj]
  cases h with
  | declare | assign | target => exact hWord (by simp)
  | equals => exact ⟨Nat.zero_le _, .inr (.inl rfl)⟩
  | openGroup h => exact ⟨hInside, .inl ((hMark _ rfl h).2 rfl)⟩
  | name => exact ⟨hInside, hWord (by simp)⟩
  | number => exact ⟨hInside, hWord (by simp)⟩
  | openCall h => exact ⟨List.cons_ne_nil _ _, hInside.1, .inl ((hMark _ rfl h).2 rfl)⟩
  | @closeCall opened _ h =>
    refine ⟨?_, (hMark _ rfl h).not.2 (by decide)⟩
    have hPos := List.length_pos_iff.2 hInside.1
    have hLe := hInside.2.1
    rw [List.length_tail]
    omega
  | operator => exact hInside.1
  | closeGroup h => exact ⟨Nat.lt_of_succ_lt hInside.1, (hMark _ rfl h).not.2 (by decide)⟩
  | comma => exact ⟨List.cons_ne_nil _ _, hInside.1.le, .inr hInside.1⟩
  | nextTarget h => exact (hMark _ rfl h).not.2 (by decide)
  | finish h =>
    exact ⟨(hMark _ rfl h).not.2 (by decide), .inr (Nat.zero_lt_of_lt hInside.1)⟩

/-- Right behind a bracket that it does not close, a terminal is read only if there is room for the
expression that it starts. -/
theorem Reading.length_opened_lt (h : Reading s st t st') (hInside : st.InsideLimit limit w)
    (hJust : JustOpened w) (hNext : s.head? ≠ some ')'.toUInt8) :
    st.opened.length < limit.levels := by
  cases h with
  | declare | assign => exact absurd hJust hInside.1
  | target | equals => exact absurd hJust hInside
  | openGroup | name | number => exact hInside
  | closeCall h => exact absurd (beq_iff_eq.1 h) hNext
  | openCall | operator | closeGroup | comma | nextTarget | finish =>
    exact absurd hJust hInside.2

theorem nested_start : Nested limit .between [] where
  excess_eq := rfl
  inside := ⟨by simp [JustOpened], .inl rfl⟩
  inner := by
    rintro n ⟨u, v, h, -⟩
    simp at h

theorem Nested.change (h : Nested limit st w) (hChange : Change limit s st st') :
    Nested limit st' w where
  excess_eq := by
    rw [h.excess_eq]
    cases hChange <;> rfl
  inside := hChange.insideLimit h.inside
  inner := h.inner

theorem Nested.reading (h : Nested limit st w) (hReading : Reading s st t st') :
    Nested limit st' (w ++ t.bytes s) where
  excess_eq := by rw [excess_append, hReading.excess_eq h.inside, h.excess_eq]
  inside := hReading.insideLimit h.inside
  inner := by
    intro n hn
    rcases hn.of_append hReading.bracket_alone with hn | ⟨hJust, rfl, hNext⟩
    · exact h.inner n hn
    · rw [hReading.head?_bytes] at hNext
      have hRoom := hReading.length_opened_lt h.inside hJust hNext
      rw [h.excess_eq]
      omega

/-- The bytes that a run has read tell its state. -/
theorem Reaches.nested {c : Cursor text} (h : Reaches limit (Config.start text) (st, c)) :
    ∃ w, significant text = w ++ significant c.rest ∧ Nested limit st w :=
  h.bytesRead nested_start (fun hChange hNested => hNested.change hChange)
    fun hReading hNested => hNested.reading hReading

end

/-! ## The limit that a program needs -/

theorem mem_openings_of_not_justOpened {w : List UInt8} (hw : ¬ JustOpened w) {n : Int}
    (h : n ∈ openings w) : InnerOpening w n := by
  obtain ⟨u, v, rfl, hNext, rfl⟩ := mem_openings.1 h
  refine ⟨u, v, rfl, ?_, hNext, rfl⟩
  rintro rfl
  exact hw (by simp [JustOpened])

theorem Accepts.nested {s : List UInt8} {c : Cursor s} (h : Accepts limit (Config.start s) c) :
    Nested limit .between (significant s) :=
  h.bytesRead nested_start (fun hChange hNested => hNested.change hChange)
    fun hReading hNested => hNested.reading hReading

theorem Nested.openings {w : List UInt8} (h : Nested limit .between w) :
    ∀ n ∈ Grammar.openings w, 0 ≤ n ∧ n < limit.levels :=
  fun n hn => h.inner n (mem_openings_of_not_justOpened h.inside.1 hn)

theorem Accepts.levelsNeeded_le {s : List UInt8} {c : Cursor s}
    (h : Accepts limit (Config.start s) c) : levelsNeeded s ≤ limit.levels := by
  have hOpenings := h.nested.openings
  rw [levelsNeeded_le_iff fun n hn => (hOpenings n hn).1]
  exact h.nested.inside.2.imp_right fun hPos => ⟨hPos, fun n hn => (hOpenings n hn).2⟩

/-- What is accepted before an expression starts like one. -/
theorem Accepts.opens {opened : List Bracket} {declares : Bool} {c d : Cursor text}
    (h : Accepts limit (.within .expression opened declares, c) d) : Opens c.rest := by
  obtain ⟨st, hRun, hMove⟩ := h
  obtain ⟨rfl, -⟩ := State.between_of_move hMove
  obtain hEq | ⟨b, hStep, hRun⟩ := hRun.cases_head
  · cases hEq
  cases hStep with
  | read hMove => cases State.reading_of_move hMove
  | goto hMove =>
    cases State.change_of_move hMove
    obtain hEq | ⟨b, hStep, -⟩ := hRun.cases_head
    · cases hEq
    cases hStep with
    | goto hMove => cases State.change_of_move hMove
    | read hMove =>
      cases State.reading_of_move hMove with
      | openGroup h => exact .inl h
      | name h => exact .inr (.inl h)
      | number h => exact .inr (.inr h)

/-- An expression starts with a significant byte, which closes no bracket. -/
theorem Opens.significant_eq {s : List UInt8} (h : Opens s) (hGap : gapLength s = 0) :
    ∃ b x, significant s = b :: x ∧ b ≠ ')'.toUInt8 := by
  have hNot : goesOn ')' s.head? = false :=
    h.not_goesOn (by decide) (by decide) (by decide)
  cases s with
  | nil => simp [Opens, goesOn] at h
  | cons b s =>
    refine ⟨b, significant s, significant_cons hGap, ?_⟩
    rintro rfl
    simp [goesOn] at hNot

/-- A text that is accepted under a higher limit is accepted under every limit that has the levels
it needs. -/
theorem Accepts.of_levelsNeeded {s : List UInt8} {c : Cursor s}
    (h : Accepts higher (Config.start s) c) (hLe : limit.levels ≤ higher.levels)
    (hNeeded : levelsNeeded s ≤ limit.levels) : ∃ d, Accepts limit (Config.start s) d := by
  have hNonneg : ∀ n ∈ openings (significant s), 0 ≤ n := fun n hn => (h.nested.openings n hn).1
  rcases check_cases limit s with ⟨d, hAccepts, -⟩ | ⟨cause, d, hFails, -⟩
  · exact ⟨d, hAccepts⟩
  exfalso
  -- a failure that is not there under the higher limit is the limit that was met
  obtain ⟨st, hRun, hMove⟩ := hFails
  have hFails : Fails limit (Config.start s) cause d := ⟨st, hRun, hMove⟩
  obtain ⟨rfl, -⟩ := (hFails.raise hLe).resolve_left fun hFails' => h.not_fails hFails'
  obtain ⟨opened, declares, rfl, hFull⟩ := State.tooDeep_of_move hMove
  -- under the higher limit an expression follows
  have hOpens : Opens d.rest := (h.of_reaches (Reaches.raise hLe hRun)).opens
  obtain ⟨w, hText, hNested⟩ := hRun.nested
  obtain ⟨b, x, hNext, hClose⟩ := hOpens.significant_eq hRun.gapLength_rest
  rw [hNext] at hText
  rcases (levelsNeeded_le_iff hNonneg limit.levels).1 hNeeded with hEmpty | ⟨hPos, hAll⟩
  · rw [hText] at hEmpty
    simp at hEmpty
  obtain ⟨-, hJust | rfl | hRoom⟩ := hNested.inside
  · -- the bracket that was opened last is one opening too many
    obtain ⟨u, rfl⟩ := List.getLast?_eq_some_iff.1 hJust
    have hMem : excess u + 1 ∈ openings (significant s) :=
      mem_openings.2 ⟨u, b :: x, by rw [hText]; simp, by simpa using hClose, rfl⟩
    have hLt := hAll _ hMem
    rw [← excess_open, hNested.excess_eq] at hLt
    exact absurd hFull (by simpa [State.opened] using hLt)
  · exact absurd hFull (Nat.not_le_of_lt hPos)
  · exact absurd hFull (Nat.not_le_of_lt hRoom)

/-- Where the limit is met, as many brackets are open as it has levels. -/
theorem Fails.excess_eq {s : List UInt8} {n : Nat} {c : Cursor s}
    (h : Fails limit (Config.start s) (.nestingTooDeep n) c) :
    excess (significant (s.take c.position)) = limit.levels := by
  obtain ⟨a, u, rfl, ha⟩ : ∃ a u, s = a ++ u ∧ a.length = c.position :=
    ⟨s.take _, s.drop _, (List.take_append_drop _ s).symm, List.length_take_of_le c.position_le⟩
  obtain ⟨st, hRun, hMove⟩ := h
  obtain ⟨opened, declares, rfl, hFull⟩ := State.tooDeep_of_move hMove
  -- the bytes before the place are read also when they are all of the text
  obtain ⟨st₁, hStay, hLineFeed⟩ := hRun.lineFeed ha.symm
  obtain ⟨d, hRun', hRest⟩ := hLineFeed []
  obtain ⟨w, hText, hNested⟩ := hRun'.nested
  have hw : significant a = w := by
    rw [← significant_append_lineFeed, hText, hRest]
    exact List.append_nil w
  have hNested' : Nested limit (.within .expression opened declares) w := by
    refine hStay.stay (P := fun st => Nested limit st w) ?_ hNested
    exact fun _ _ hChange hBefore => hBefore.change hChange
  rw [List.take_left' ha, hw, hNested'.excess_eq]
  exact congrArg _ (Nat.le_antisymm hNested'.inside.1 hFull)

/-- **The limit that a program needs.**  A text that is accepted under the greatest limit is
accepted under another one if and only if that has the levels which the brackets of the text need.
And whenever a limit is met, the text before that place opens as many brackets more than it closes
as the limit has levels. -/
theorem accepted_iff_levelsNeeded_le (s : List UInt8) :
    (((Checker.new (.clamp NestingLimit.most)).check s).lastError? = none →
      ∀ checker : Checker,
        (checker.check s).lastError? = none ↔ levelsNeeded s ≤ checker.limit.levels) ∧
    ∀ (checker : Checker) (e : SyntaxError), (checker.check s).lastError? = some e →
      e.isLimit = true → excess (significant (s.take e.offset)) = checker.limit.levels := by
  constructor
  · intro h checker
    obtain ⟨c, hAccepts⟩ := check_error?_eq_none_iff.1 h
    constructor
    · intro hAccepted
      obtain ⟨d, hAccepts'⟩ := check_error?_eq_none_iff.1 hAccepted
      exact hAccepts'.levelsNeeded_le
    · intro hNeeded
      exact check_error?_eq_none_iff.2 (hAccepts.of_levelsNeeded checker.limit.levels_le hNeeded)
  · intro checker e h hLimit
    obtain ⟨cause, c, hFails, rfl⟩ := check_error?_eq_some_iff.1 h
    cases cause with
    | nestingTooDeep n => exact hFails.excess_eq
    | expected | invalidIdentifier | invalidNumber => cases hLimit

/-- `x=f(g(),(1));//((` needs three levels: the brackets of `g` and those in the comment count for
none.  With two levels the limit is met before the digit. -/
theorem accepted_iff_levelsNeeded_le_call :
    levelsNeeded [0x78, 0x3d, 0x66, 0x28, 0x67, 0x28, 0x29, 0x2c, 0x28, 0x31, 0x29, 0x29, 0x3b,
        0x2f, 0x2f, 0x28, 0x28] ≤ 3 ∧
      ((Checker.new (.clamp 2)).check [0x78, 0x3d, 0x66, 0x28, 0x67, 0x28, 0x29, 0x2c, 0x28, 0x31,
        0x29, 0x29, 0x3b, 0x2f, 0x2f, 0x28, 0x28]).lastError? ≠ none ∧
      excess (significant [0x78, 0x3d, 0x66, 0x28, 0x67, 0x28, 0x29, 0x2c, 0x28]) = 2 := by
  obtain ⟨hLevels, hExcess⟩ := accepted_iff_levelsNeeded_le [0x78, 0x3d, 0x66, 0x28, 0x67, 0x28,
    0x29, 0x2c, 0x28, 0x31, 0x29, 0x29, 0x3b, 0x2f, 0x2f, 0x28, 0x28]
  have hIff := hLevels (by decide +kernel)
  refine ⟨(hIff (Checker.new (.clamp 3))).1 (by decide +kernel), fun hTwo => ?_, ?_⟩
  · exact absurd ((hIff (Checker.new (.clamp 2))).1 hTwo) (by decide +kernel)
  · exact hExcess (Checker.new (.clamp 2)) ⟨.nestingTooDeep 2, 9, 1, 10, "1));//(("⟩
      (by decide +kernel) rfl

end ScriptCheck.Grammar
