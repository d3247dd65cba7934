import ScriptCheck.Proofs.Rules
import ScriptCheck.Proofs.Simulation

/-!
# Exchanging the text behind a place

Two texts that start alike are read alike as far as they are alike.  Most moves look at one byte;
only the word `var` is looked for with three, and then a name of at least three bytes is there.

* `State.move_fits` — a terminal is read only where it stands.
* `move_append_stay`, `move_append_read` — **a move does not notice that the text behind the bytes
  it looks at is exchanged.**
* `Reaches.exact`, `Reaches.arrival`, `Reaches.stay` — runs keep the line counters exact, and behind
  their last read they only change the state.
* `Reaches.exchange` — **shared bytes are read alike.**
* `Reaches.lineFeed` — **a line feed may follow any place**, since it ends whatever stands before
  it.
-/

namespace ScriptCheck.Grammar

open Source

variable {text : List UInt8} {limit : NestingLimit}

/-! ## Terminals are read where they stand -/

theorem ne_nil_of_goesOn {ch : Char} {s : List UInt8} (h : goesOn ch s.head? = true) : s ≠ [] := by
  rintro rfl
  exact absurd h (by simp [goesOn])

theorem ne_nil_of_isOperator {s : List UInt8} (h : isOperator s.head? = true) : s ≠ [] := by
  rintro rfl
  exact absurd h (by decide)

theorem Reading.fits {s : List UInt8} {st st' : State} {t : Terminal} (h : Reading s st t st') :
    t.Fits s := by
  cases h with
  | declare h => exact ⟨by decide, h⟩
  | assign h | name h => exact starts_name s (any_startsName h)
  | target h => exact starts_name s h
  | number h => exact starts_number s h
  | operator h => exact ne_nil_of_isOperator h
  | equals h | openGroup h | openCall h | closeCall h | closeGroup h | comma h | nextTarget h
  | finish h => exact ne_nil_of_goesOn h

/-- A terminal is read only where it stands. -/
theorem State.move_fits {s : List UInt8} {st st' : State} {t : Terminal}
    (h : st.move limit s = .read t st') : t.Fits s :=
  (State.reading_of_move h).fits

/-- The only word that is read is `var`. -/
theorem State.move_word {s bytes : List UInt8} {st st' : State}
    (h : st.move limit s = .read (.word bytes) st') : bytes = varWord := by
  cases State.reading_of_move h with
  | declare _ => rfl

/-! ## What a move looks at -/

/-- A move depends on the next byte and, between statements, on the word `var`. -/
theorem State.move_congr {s s' : List UInt8} {st : State} (hHead : s.head? = s'.head?)
    (hVar : st = .between → varWord.isPrefixOf s = varWord.isPrefixOf s') :
    st.move limit s = st.move limit s' := by
  cases st with
  | between =>
    have hEmpty : s.isEmpty = s'.isEmpty := by
      cases s <;> cases s' <;> simp_all
    rw [State.move, State.move, hEmpty, hVar rfl, hHead]
  | target declares => rw [State.move, State.move, hHead]
  | equals declares => rw [State.move, State.move, hHead]
  | within stage opened declares => rw [State.move, State.move, hHead]

theorem head?_append_of_ne_nil {w : List UInt8} (hw : w ≠ []) (u v : List UInt8) :
    (w ++ u).head? = (w ++ v).head? := by
  obtain ⟨b, w, rfl⟩ := List.exists_cons_of_ne_nil hw
  rfl

/-- Where the word `var` stands, a letter stands. -/
theorem any_isLetter_of_varWord {s : List UInt8} (h : varWord <+: s) :
    s.head?.any isLetter = true := by
  obtain ⟨u, rfl⟩ := h
  rfl

/-- Where the word `var` stands, a name of at least its length stands. -/
theorem length_varWord_le {s : List UInt8} (h : varWord <+: s) :
    varWord.length ≤ nameLength s := by
  obtain ⟨u, rfl⟩ := h
  have hv : startsName 'v'.toUInt8 = true := by decide
  have ha : continuesName 'a'.toUInt8 = true := by decide
  have hr : continuesName 'r'.toUInt8 = true := by decide
  show 3 ≤ nameLength ('v'.toUInt8 :: 'a'.toUInt8 :: 'r'.toUInt8 :: u)
  rw [nameLength_cons hv, List.takeWhile_cons, if_pos ha, List.takeWhile_cons, if_pos hr,
    List.length_cons, List.length_cons]
  omega

/-- A move that reads nothing is the same before any text with the same first byte. -/
theorem move_append_stay {w u v : List UInt8} {st : State} (hw : w ≠ [])
    (h : ∀ t st', st.move limit (w ++ u) ≠ .read t st') :
    st.move limit (w ++ v) = st.move limit (w ++ u) := by
  refine State.move_congr (head?_append_of_ne_nil hw v u) ?_
  rintro rfl
  -- no name is read, so no letter stands there, and not the word either
  have hLetter : ¬ (w ++ u).head?.any isLetter = true := by
    intro hLetter
    by_cases hVar : varWord.isPrefixOf (w ++ u) = true
    · refine h (.word varWord) (.target true) ?_
      rw [State.move, if_neg (by simp [hw]), if_pos hVar]
    · refine h .name (.equals false) ?_
      rw [State.move, if_neg (by simp [hw]), if_neg hVar, if_pos hLetter]
  have hNot : ∀ x, ¬ varWord.isPrefixOf (w ++ x) = true := by
    intro x hVar
    have hLetter' := any_isLetter_of_varWord (List.isPrefixOf_iff_prefix.1 hVar)
    rw [head?_append_of_ne_nil hw x u] at hLetter'
    exact hLetter hLetter'
  rw [Bool.eq_false_iff.2 (hNot u), Bool.eq_false_iff.2 (hNot v)]

/-- A move that reads a terminal reads it also when the text behind is exchanged, if the terminal
keeps its length. -/
theorem move_append_read {w u v : List UInt8} {st st' : State} {t : Terminal}
    (h : st.move limit (w ++ u) = .read t st') (hLe : t.length (w ++ u) ≤ w.length)
    (hLength : t.length (w ++ v) = t.length (w ++ u)) :
    st.move limit (w ++ v) = .read t st' := by
  have hw : w ≠ [] := by
    rintro rfl
    have hPos := (State.move_fits h).length_pos
    rw [List.length_nil] at hLe
    omega
  rw [← h]
  refine State.move_congr (head?_append_of_ne_nil hw v u) ?_
  rintro rfl
  -- the word is in both texts if it is in the bytes they share
  have hShared : varWord.length ≤ w.length → ∀ x y, varWord <+: w ++ x → varWord <+: w ++ y :=
    fun hLe x y hx => (List.prefix_of_prefix_length_le hx (List.prefix_append w x) hLe).trans
      (List.prefix_append w y)
  have hBoth : varWord <+: w ++ v ↔ varWord <+: w ++ u := by
    by_cases hVar : varWord <+: w ++ u
    · have ht : t = .word varWord := by
        rw [State.move, if_neg (by simp [hw]), if_pos (List.isPrefixOf_iff_prefix.2 hVar)] at h
        cases h
        rfl
      subst ht
      exact ⟨fun _ => hVar, hShared hLe u v⟩
    · refine ⟨fun hVar' => ?_, fun hVar' => absurd hVar' hVar⟩
      have ht : t = .name := by
        rw [State.move, if_neg (by simp [hw]),
          if_neg fun h => hVar (List.isPrefixOf_iff_prefix.1 h)] at h
        split at h
        · cases h
          rfl
        · cases h
      subst ht
      have hLe' : varWord.length ≤ Terminal.name.length (w ++ v) := length_varWord_le hVar'
      exact hShared (by omega) v u hVar'
  rw [Bool.eq_iff_iff, List.isPrefixOf_iff_prefix, List.isPrefixOf_iff_prefix, hBoth]

/-! ## Along a run -/

theorem Step.position_le {a b : Config text} (h : Step limit a b) :
    a.2.position ≤ b.2.position := by
  cases h with
  | goto h => exact le_refl _
  | read h => exact (Cursor.position_lt_read (State.move_fits h)).le

theorem Reaches.position_le {a b : Config text} (h : Reaches limit a b) :
    a.2.position ≤ b.2.position := by
  induction h with
  | refl => exact le_refl _
  | tail _ hStep ih => exact ih.trans hStep.position_le

theorem Config.exact_start (text : List UInt8) : (Config.start text).2.Exact :=
  (Cursor.exact_start text).skipGap

theorem Reaches.exact {a b : Config text} (h : Reaches limit a b) (ha : a.2.Exact) : b.2.Exact := by
  induction h with
  | refl => exact ha
  | tail _ hStep ih =>
    cases hStep with
    | goto _ => exact ih
    | read _ => exact ih.read _

/-- The last read of a run, if it read anything.  Behind it the run stays in place. -/
theorem Reaches.arrival {a b : Config text} (h : Reaches limit a b) :
    a.2 = b.2 ∨ ∃ st c t st', Reaches limit a (st, c) ∧ st.move limit c.rest = .read t st' ∧
      c.read t = b.2 ∧ Reaches limit (st', b.2) b := by
  induction h with
  | refl => exact .inl rfl
  | @tail b b' hRun hStep ih =>
    cases hStep with
    | @goto st st' c h =>
      rcases ih with hEq | ⟨st₁, c₁, t, st₂, hBefore, hRead, hc, hBehind⟩
      · exact .inl hEq
      · exact .inr ⟨st₁, c₁, t, st₂, hBefore, hRead, hc, hBehind.tail (.goto h)⟩
    | @read st st' c t h => exact .inr ⟨st, c, t, st', hRun, h, rfl, .refl⟩

/-- What changes of state keep is kept by a run that reads nothing. -/
theorem Reaches.stay {P : State → Prop} {st st' : State} {c : Cursor text}
    (h : Reaches limit (st, c) (st', c))
    (hChange : ∀ st₁ st₂, Change limit c.rest st₁ st₂ → P st₁ → P st₂) (hP : P st) : P st' := by
  suffices hAll : ∀ b : Config text, Reaches limit (st, c) b → b.2.position ≤ c.position →
      b.2 = c ∧ P b.1 from (hAll _ h (le_refl _)).2
  intro b hRun
  induction hRun with
  | refl => exact fun _ => ⟨rfl, hP⟩
  | @tail b b' _ hStep ih =>
    intro hLe
    obtain ⟨hCursor, hBefore⟩ := ih (hStep.position_le.trans hLe)
    cases hStep with
    | @goto st₁ st₂ c₁ hMove =>
      obtain rfl : c₁ = c := hCursor
      exact ⟨rfl, hChange st₁ st₂ (State.change_of_move hMove) hBefore⟩
    | @read st₁ st₂ c₁ t hMove =>
      -- a terminal would have moved the cursor on
      obtain rfl : c₁ = c := hCursor
      exact absurd (Cursor.position_lt_read (State.move_fits hMove)) (Nat.not_lt_of_le hLe)

/-! ## Two texts that start alike -/

section Shared

variable {a u v : List UInt8}

theorem rest_eq_append {c : Cursor (a ++ u)} (h : c.position ≤ a.length) :
    c.rest = a.drop c.position ++ u := by
  rw [c.rest_eq, List.drop_append_of_le_length h]

theorem position_eq_of_rest {c : Cursor (a ++ u)} {n : Nat} (hn : n ≤ a.length)
    (h : c.rest = a.drop n ++ u) : c.position = n := by
  have hLength := c.position_add_length_rest
  rw [h, List.length_append, List.length_append, List.length_drop] at hLength
  omega

/-- Up to position `n`, which lies in the bytes `a`, the text `a ++ v` starts no comment where the
text `a ++ u` starts none. -/
def CommentsKept (a u v : List UInt8) (n : Nat) : Prop :=
  n < a.length ∧ ∀ p ≤ n, startsComment (a.drop p ++ u) = false →
    startsComment (a.drop p ++ v) = false

theorem CommentsKept.drop_ne_nil {n : Nat} (h : CommentsKept a u v n) : a.drop n ≠ [] := by
  simpa using h.1

theorem CommentsKept.mono {m n : Nat} (h : CommentsKept a u v n) (hLe : m ≤ n) :
    CommentsKept a u v m :=
  ⟨by have := h.1; omega, fun p hp => h.2 p (by omega)⟩

/-- Where the next known bytes settle whether a comment starts, no text behind them starts one up to
there. -/
theorem commentsKept_of_settles {n : Nat} (h : Settles (a.drop n)) (u v : List UInt8) :
    CommentsKept a u v n := by
  have hLt : n < a.length := by simpa using h.1
  refine ⟨hLt, fun p hp hu => Settles.startsComment_append ?_ hu v⟩
  rcases Nat.lt_or_eq_of_le hp with hp | rfl
  · refine ⟨by simp; omega, fun _ => ?_⟩
    rw [List.length_drop]
    omega
  · exact h

/-- A move inside the bytes that two texts share is made in both. -/
theorem Step.exchange {st st' : State} {c c' : Cursor (a ++ u)} {d : Cursor (a ++ v)}
    (h : Step limit (st, c) (st', c')) (hd : d.position = c.position)
    (hKept : CommentsKept a u v c'.position) :
    ∃ d', Step limit (st, d) (st', d') ∧ d'.position = c'.position := by
  have hc : c.rest = a.drop c.position ++ u :=
    rest_eq_append (h.position_le.trans hKept.1.le)
  have hdRest : d.rest = a.drop c.position ++ v := by
    rw [rest_eq_append (hd.trans_le (h.position_le.trans hKept.1.le)), hd]
  cases h with
  | goto h =>
    refine ⟨d, .goto ?_, hd⟩
    rw [hc] at h
    have hStay : ∀ t st'', st.move limit (a.drop c.position ++ u) ≠ .read t st'' := by simp [h]
    rw [hdRest, move_append_stay hKept.drop_ne_nil hStay, h]
  | @read _ _ _ t h =>
    have hFits := State.move_fits h
    have hRest : t.rest c.rest = a.drop (c.read t).position ++ u := by
      rw [← Cursor.rest_read, rest_eq_append hKept.1.le]
    have hEnd : startsComment (a.drop (c.read t).position ++ v) = false := by
      refine hKept.2 _ (le_refl _) ?_
      rw [← hRest]
      exact startsComment_beyondGap _
    rw [hc] at h hFits hRest
    obtain ⟨-, hLength, hRest'⟩ := Terminal.rest_append hFits hRest hKept.drop_ne_nil hEnd
    have hLe := Terminal.length_add_of_rest_eq hFits hRest
    refine ⟨d.read t, .read ?_, position_eq_of_rest hKept.1.le ?_⟩
    · rw [hdRest]
      exact move_append_read h (by omega) hLength
    · rw [Cursor.rest_read, hdRest, hRest']

theorem start_exchange
    (hKept : CommentsKept a u v (Config.start (a ++ u)).2.position) :
    (Config.start (a ++ v)).2.position = (Config.start (a ++ u)).2.position := by
  have hRest : beyondGap (a ++ u) = a.drop (Config.start (a ++ u)).2.position ++ u := by
    rw [← rest_eq_append hKept.1.le, Config.rest_start]
  have hEnd : startsComment (a.drop (Config.start (a ++ u)).2.position ++ v) = false := by
    refine hKept.2 _ (le_refl _) ?_
    rw [← hRest]
    exact startsComment_beyondGap _
  refine position_eq_of_rest hKept.1.le ?_
  rw [Config.rest_start, beyondGap_append hRest hKept.drop_ne_nil hEnd]

/-- **Shared bytes are read alike.**  A run that stays inside the bytes that two texts share is a
run of both. -/
theorem Reaches.exchange {st : State} {c : Cursor (a ++ u)}
    (h : Reaches limit (Config.start (a ++ u)) (st, c)) (hKept : CommentsKept a u v c.position) :
    ∃ d, Reaches limit (Config.start (a ++ v)) (st, d) ∧ d.position = c.position := by
  generalize hEnd : (st, c) = b at h
  induction h generalizing st c with
  | refl =>
    obtain ⟨rfl, rfl⟩ := Prod.mk.inj hEnd
    exact ⟨_, .refl, start_exchange hKept⟩
  | @tail b b' _ hStep ih =>
    subst hEnd
    obtain ⟨d, hRun, hd⟩ := ih (hKept.mono hStep.position_le) rfl
    obtain ⟨d', hStep', hd'⟩ := hStep.exchange hd hKept
    exact ⟨d', hRun.tail hStep', hd'⟩

end Shared

/-! ## A line feed behind the known bytes -/

section LineFeed

variable {a u : List UInt8}

/-- A read that ends where the known bytes end is made also when a line feed is put there, and
leads over it. -/
theorem move_lineFeed {y : List UInt8} {st st' : State} {t : Terminal} {c : Cursor (a ++ u)}
    {d : Cursor (a ++ lineFeed :: y)} (h : st.move limit c.rest = .read t st')
    (hEnd : (c.read t).position = a.length) (hd : d.position = c.position) :
    st.move limit d.rest = .read t st' ∧ (d.read t).rest = beyondGap y := by
  have hFits := State.move_fits h
  have hLe : c.position ≤ a.length := hEnd ▸ (Cursor.position_lt_read hFits).le
  have hRest : t.rest c.rest = u := by
    rw [← Cursor.rest_read, rest_eq_append hEnd.le, hEnd, List.drop_length, List.nil_append]
  rw [rest_eq_append hLe] at h hFits hRest
  obtain ⟨-, hLength, hRest'⟩ := Terminal.rest_append_lineFeed hFits hRest y
  have hLe' := Terminal.length_add_of_rest_eq hFits (show _ = [] ++ u from hRest)
  rw [Cursor.rest_read, rest_eq_append (hd.trans_le hLe), hd]
  exact ⟨move_append_read h hLe' hLength, hRest'⟩

/-- Up to any place in the known bytes, a line feed behind them starts no comment. -/
theorem commentsKept_lineFeed {n : Nat} (h : n < a.length) (u y : List UInt8) :
    CommentsKept a u (lineFeed :: y) n := by
  refine ⟨h, fun p hp hu => startsComment_append_lineFeed ?_ hu y⟩
  rw [Ne, List.drop_eq_nil_iff]
  omega

/-- **A line feed may follow any place.**  Where a run comes to the end of the known bytes, another
text that goes on with a line feed there is read in the same way, over the line feed and the gap
behind it, and up to changes of state that the text decides. -/
theorem Reaches.lineFeed {st : State} {c : Cursor (a ++ u)}
    (h : Reaches limit (Config.start (a ++ u)) (st, c)) (hc : c.position = a.length) :
    ∃ st₁, Reaches limit (st₁, c) (st, c) ∧ ∀ y, ∃ d : Cursor (a ++ lineFeed :: y),
      Reaches limit (Config.start (a ++ lineFeed :: y)) (st₁, d) ∧ d.rest = beyondGap y := by
  rcases h.arrival with hStart | ⟨st₀, c₀, t, st₁, hBefore, hRead, hArrive, hBehind⟩
  · -- nothing was read: the known bytes are a gap
    have hStart : (Config.start (a ++ u)).2 = c := hStart
    have hGap : beyondGap (a ++ u) = u := by
      rw [← Config.rest_start, hStart, rest_eq_append hc.le, hc, List.drop_length, List.nil_append]
    refine ⟨.between, hStart ▸ h, fun y => ⟨(Config.start _).2, .refl, ?_⟩⟩
    rw [Config.rest_start, beyondGap_append_lineFeed hGap]
  · have hArrive : c₀.read t = c := hArrive
    have hLt : c₀.position < a.length := by
      rw [← hc, ← hArrive]
      exact Cursor.position_lt_read (State.move_fits hRead)
    refine ⟨st₁, hBehind, fun y => ?_⟩
    obtain ⟨d, hBefore', hd⟩ := hBefore.exchange (commentsKept_lineFeed hLt u y)
    obtain ⟨hRead', hRest⟩ := move_lineFeed hRead (hArrive ▸ hc) hd
    exact ⟨d.read t, hBefore'.tail (.read hRead'), hRest⟩

end LineFeed

end ScriptCheck.Grammar
