import Mathlib.Data.List.Induction
import ScriptCheck.Proofs.Diagnostics
import ScriptCheck.Proofs.Significance

/-!
# Programs in pieces

Between statements a run remembers nothing.  Two results follow.

* `checked_behind_program` — **programs may be joined.**  Behind a program and a line feed a text is
  checked as it is alone; an error is found in the same place of the text, which now stands further
  down.
* `cut_accepted_iff` — **programs may be cut between statements, and nowhere else.**  What is left
  of a program when its end is cut off is a program exactly if it is empty or ends with a semicolon,
  not counting gaps.

For the first, a run is carried over to another text that goes on alike (`Reaches.of_rest_eq`).  For
the second, a run that fails on the part and not on the whole has come to the end of the part
(`Fails.at_end`), and what was read last tells whether it stood between statements there.
-/

namespace ScriptCheck

/-- The same error, with `bytes` bytes and `lines` lines put before the text. -/
def SyntaxError.moved (e : SyntaxError) (bytes lines : Nat) : SyntaxError :=
  { e with offset := e.offset + bytes, line := e.line + lines }

namespace Source

/-! ## Lines behind other lines -/

theorem lineAfter_append_lineFeed (p s : List UInt8) :
    lineAfter (p ++ lineFeed :: s) = lineAfter s + (p.count lineFeed + 1) := by
  rw [lineAfter, lineAfter, List.count_append, List.count_cons_self]
  omega

theorem lineStartAfter_append_lineFeed (p s : List UInt8) :
    lineStartAfter (p ++ lineFeed :: s) = lineStartAfter s + (p.length + 1) := by
  induction s using List.reverseRecOn with
  | nil =>
    rw [lineStartAfter_concat, if_pos rfl]
    exact (Nat.zero_add _).symm
  | append_singleton s b ih =>
    rw [← List.cons_append, ← List.append_assoc, lineStartAfter_concat, lineStartAfter_concat]
    by_cases hb : b = lineFeed
    · rw [if_pos hb, if_pos hb, List.length_append, List.length_cons]
      omega
    · rw [if_neg hb, if_neg hb, ih]

section

variable {p s : List UInt8} {c : Cursor s} {d : Cursor (p ++ lineFeed :: s)}

theorem Cursor.position_behind (h : d.rest = c.rest) :
    d.position = c.position + (p.length + 1) := by
  have hc := c.position_add_length_rest
  have hd := d.position_add_length_rest
  rw [h, List.length_append, List.length_cons] at hd
  omega

theorem Cursor.take_behind (h : d.rest = c.rest) :
    (p ++ lineFeed :: s).take d.position = p ++ lineFeed :: s.take c.position := by
  rw [position_behind h, List.take_append, List.take_of_length_le (by omega),
    show c.position + (p.length + 1) - p.length = c.position + 1 by omega, List.take_succ_cons]

theorem Cursor.Exact.line_behind (hc : c.Exact) (hd : d.Exact) (h : d.rest = c.rest) :
    d.line = c.line + (p.count lineFeed + 1) := by
  rw [hd.line_eq, hc.line_eq, take_behind h, lineAfter_append_lineFeed]

/-- Behind other lines the same error is reported, only further down. -/
theorem Cursor.Exact.error_behind (hc : c.Exact) (hd : d.Exact) (h : d.rest = c.rest)
    (cause : Cause) :
    d.error cause = (c.error cause).moved (p.length + 1) (p.count lineFeed + 1) := by
  have hColumn : d.column = c.column := by
    rw [Cursor.column, Cursor.column, hd.lineStart_eq, hc.lineStart_eq, take_behind h,
      lineStartAfter_append_lineFeed, position_behind h]
    omega
  rw [Cursor.error, hColumn, h, hc.line_behind hd h, position_behind h]
  rfl

end

end Source

namespace Grammar

open Source

variable {limit : NestingLimit}

/-! ## A text behind a program -/

/-- Runs depend only on the text that is left. -/
theorem Reaches.of_rest_eq {s s' : List UInt8} {st st' : State} {c c' : Cursor s} {d : Cursor s'}
    (h : Reaches limit (st, c) (st', c')) (hd : d.rest = c.rest) :
    ∃ d', Reaches limit (st, d) (st', d') ∧ d'.rest = c'.rest := by
  generalize hEnd : (st', c') = b at h
  induction h generalizing st' c' with
  | refl =>
    obtain ⟨rfl, rfl⟩ := Prod.mk.inj hEnd
    exact ⟨d, .refl, hd⟩
  | @tail b b' _ hStep ih =>
    subst hEnd
    obtain ⟨d', hRun, hd'⟩ := @ih b.1 b.2 rfl
    cases hStep with
    | goto hMove => exact ⟨d', hRun.tail (.goto (by rw [hd', hMove])), hd'⟩
    | @read st₁ _ c₁ t hMove =>
      refine ⟨d'.read t, hRun.tail (.read (by rw [hd', hMove])), ?_⟩
      rw [Cursor.rest_read, Cursor.rest_read, hd']

/-- No change of state leads back between statements. -/
theorem Change.ne_between {s : List UInt8} {st st' : State} (h : Change limit s st st') :
    st' ≠ .between := by
  cases h <;> simp

/-- A program and a line feed are read up to a state between statements. -/
theorem Accepts.reaches_behind {p : List UInt8} {c : Cursor p}
    (h : Accepts limit (Config.start p) c) (s : List UInt8) :
    ∃ d : Cursor (p ++ lineFeed :: s),
      Reaches limit (Config.start (p ++ lineFeed :: s)) (.between, d) ∧ d.rest = beyondGap s := by
  -- the program is the known part of itself with nothing behind it
  obtain ⟨c, h⟩ : ∃ c, Accepts limit (Config.start (p ++ [])) c := by
    rw [List.append_nil]
    exact ⟨c, h⟩
  obtain ⟨st, hRun, hMove⟩ := h
  obtain ⟨rfl, hRest⟩ := State.between_of_move hMove
  have hc : c.position = p.length := by
    have hLength := c.position_add_length_rest
    rw [hRest] at hLength
    simpa using hLength
  obtain ⟨st₁, hStay, hLineFeed⟩ := hRun.lineFeed hc
  have hBetween : st₁ = .between := by
    by_contra hNot
    exact hStay.stay (fun _ _ hChange _ => hChange.ne_between) hNot rfl
  obtain ⟨d, hRun', hd⟩ := hLineFeed s
  exact ⟨d, hBetween ▸ hRun', hd⟩

/-- Behind a program a text is read as it is alone. -/
theorem Accepts.behind {p s : List UInt8} {c : Cursor p} (h : Accepts limit (Config.start p) c)
    {st : State} {e : Cursor s} (hRun : Reaches limit (Config.start s) (st, e)) :
    ∃ d : Cursor (p ++ lineFeed :: s),
      Reaches limit (Config.start (p ++ lineFeed :: s)) (st, d) ∧ d.rest = e.rest := by
  obtain ⟨d, hBefore, hd⟩ := h.reaches_behind s
  obtain ⟨d', hBehind, hd'⟩ := Reaches.of_rest_eq hRun (hd.trans (Config.rest_start s).symm)
  exact ⟨d', hBefore.trans hBehind, hd'⟩

/-- **Programs may be joined.**  Behind a program and a line feed a text is checked as it is alone,
and an error and the line where the check stops are moved by what stands before. -/
theorem checked_behind_program (checker : Checker) {s₁ : List UInt8}
    (h : (checker.check s₁).lastError? = none) (s₂ : List UInt8) :
    (checker.check (s₁ ++ lineFeed :: s₂)).lastError? =
        (checker.check s₂).lastError?.map (·.moved (s₁.length + 1) (s₁.count lineFeed + 1)) ∧
      (checker.check (s₁ ++ lineFeed :: s₂)).line =
        (checker.check s₂).line + (s₁.count lineFeed + 1) := by
  obtain ⟨c, hProgram⟩ := check_error?_eq_none_iff.1 h
  simp only [Checker.check, Checker.record]
  rcases check_cases checker.limit s₂ with ⟨e, ⟨st, hRun, hMove⟩, hCheck⟩ |
    ⟨cause, e, ⟨st, hRun, hMove⟩, hCheck⟩
  all_goals
    obtain ⟨d, hRun', hd⟩ := hProgram.behind hRun
    have he := hRun.exact (Config.exact_start _)
    have hd' := hRun'.exact (Config.exact_start _)
  · rw [hCheck, check_of_accepts ⟨st, hRun', hd ▸ hMove⟩]
    exact ⟨rfl, he.line_behind hd' hd⟩
  · rw [hCheck, check_of_fails ⟨st, hRun', hd ▸ hMove⟩]
    exact ⟨congrArg some (he.error_behind hd' hd cause), he.line_behind hd' hd⟩

/-- `x=1;//` ends inside a comment.  Behind it and a line feed, the error of `1 y` is found in the
second line. -/
theorem checked_behind_program_comment :
    ((Checker.new .standard).check
        ([0x78, 0x3d, 0x31, 0x3b, 0x2f, 0x2f] ++ lineFeed :: [0x31, 0x20, 0x79])).lastError? =
      some ⟨.expected ';', 9, 2, 3, "y"⟩ := by
  have hAccepted : ((Checker.new .standard).check
      [0x78, 0x3d, 0x31, 0x3b, 0x2f, 0x2f]).lastError? = none := by
    decide +kernel
  have hAlone : ((Checker.new .standard).check [0x31, 0x20, 0x79]).lastError? =
      some ⟨.expected ';', 2, 1, 3, "y"⟩ := by
    decide +kernel
  rw [(checked_behind_program (Checker.new .standard) hAccepted [0x31, 0x20, 0x79]).1, hAlone]
  rfl

/-! ## The end of what was read -/

/-- There is a last byte, and it is no semicolon. -/
def EndsInside (w : List UInt8) : Prop := w ≠ [] ∧ w.getLast? ≠ some ';'.toUInt8

theorem not_endsInside_iff {w : List UInt8} :
    ¬ EndsInside w ↔ w = [] ∨ w.getLast? = some ';'.toUInt8 := by
  rw [EndsInside, not_and_or, not_not, not_not]

theorem EndsInside.append {x : List UInt8} (h : EndsInside x) (w : List UInt8) :
    EndsInside (w ++ x) := by
  refine ⟨List.append_ne_nil_of_right_ne_nil w h.1, ?_⟩
  rw [List.getLast?_append_of_ne_nil w h.1]
  exact h.2

/-- What the bytes `w` end with if they leave a run in a state.  Of other states nothing is said. -/
def State.Follows (w : List UInt8) : State → Prop
  | between => w = [] ∨ ∃ v, w = v ++ [';'.toUInt8] ∧ EndsInside v
  | within .callee _ _ | within .behind _ _ => EndsInside w
  | _ => True

section

variable {s w : List UInt8} {st st' : State} {t : Terminal}

/-- No semicolon is read but at the end of a statement. -/
theorem Reading.endsInside (h : Reading s st t st') (hst : st' ≠ .between) :
    EndsInside (t.bytes s) := by
  refine ⟨h.fits.bytes_ne_nil, ?_⟩
  have hWord : t ≠ .byte → (t.bytes s).getLast? ≠ some ';'.toUInt8 :=
    fun ht => getLast?_ne_of_word (h.byte_or_word.resolve_left ht) (by decide)
  have hMark : ∀ ch : Char, t = .byte → goesOn ch s.head? = true → ch.toUInt8 ≠ ';'.toUInt8 →
      (t.bytes s).getLast? ≠ some ';'.toUInt8 := by
    rintro ch rfl hNext hNot
    rw [bytes_of_goesOn hNext, List.getLast?_singleton]
    simpa using hNot
  cases h with
  | declare | assign | target | name | number => exact hWord (by simp)
  | equals h | openGroup h | openCall h | closeCall h | closeGroup h | comma h | nextTarget h =>
    exact hMark _ rfl h (by decide)
  | operator h =>
    simp only [isOperator, Bool.or_eq_true] at h
    rcases h with (h | h) | (h | h)
    all_goals exact hMark _ rfl h (by decide)
  | finish => exact absurd rfl hst

theorem Change.follows (h : Change limit s st st') (hBefore : st.Follows w) : st'.Follows w := by
  cases h with
  | plain => exact hBefore
  | begin | enter | nextArgument | endArgument => trivial

theorem Reading.follows (h : Reading s st t st') (hBefore : st.Follows w) :
    st'.Follows (w ++ t.bytes s) := by
  have hInside := h.endsInside
  cases h with
  | finish h =>
    rw [bytes_of_goesOn h]
    exact .inr ⟨w, rfl, hBefore⟩
  | name | number | closeCall | closeGroup => exact (hInside (by simp)).append w
  | declare | assign | target | equals | openGroup | openCall | operator | comma | nextTarget =>
    trivial

end

/-- A program is empty or ends with a semicolon, and before that semicolon stands something that is
none. -/
theorem Accepts.significant_eq {s : List UInt8} {c : Cursor s}
    (h : Accepts limit (Config.start s) c) :
    significant s = [] ∨ ∃ v, significant s = v ++ [';'.toUInt8] ∧ EndsInside v :=
  h.bytesRead (P := fun st w => st.Follows w) (.inl rfl) Change.follows Reading.follows

/-! ## Cutting a program -/

/-- A part of a program fails nowhere but at its end, or before a slash there, which the program may
complete to a comment. -/
theorem Fails.at_end {a v : List UInt8} {cause : Cause} {c : Cursor a} {e : Cursor (a ++ v)}
    (h : Fails limit (Config.start a) cause c) (hWhole : Accepts limit (Config.start (a ++ v)) e) :
    c.rest = [] ∨ c.rest = [slash] := by
  obtain ⟨c', h', hc'⟩ : ∃ c' : Cursor (a ++ []),
      Fails limit (Config.start (a ++ [])) cause c' ∧ c'.rest = c.rest := by
    rw [List.append_nil]
    exact ⟨c, h, rfl⟩
  -- bytes that settle a comment settle the failure, and then the program would fail there too
  by_contra hMore
  rw [not_or] at hMore
  have hRest : c.rest = a.drop c'.position := by
    rw [← hc', rest_eq_append (by simpa using c'.position_le), List.append_nil]
  have hSettles : Settles (a.drop c'.position) := by
    rw [← hRest]
    exact settles_of_ne hMore.1 hMore.2
  obtain ⟨d, hFails, -⟩ := h'.exchange (commentsKept_of_settles hSettles [] v)
  exact hWhole.not_fails hFails

/-- A slash at the end of the text is significant. -/
theorem Reaches.endsInside_of_slash {s : List UInt8} {st : State} {c : Cursor s}
    (h : Reaches limit (Config.start s) (st, c)) (hRest : c.rest = [slash]) :
    EndsInside (significant s) := by
  obtain ⟨w, hText⟩ := h.exists_read
  rw [hText, hRest]
  exact EndsInside.append ⟨by decide, by decide⟩ w

/-- A run that fails at the end of the text is inside a statement. -/
theorem Fails.endsInside {s : List UInt8} {cause : Cause} {c : Cursor s}
    (h : Fails limit (Config.start s) cause c) (hRest : c.rest = []) :
    EndsInside (significant s) := by
  obtain ⟨st, hRun, hMove⟩ := h
  have hNotBetween : st ≠ .between := by
    rintro rfl
    rw [hRest] at hMove
    cases hMove
  -- a run that arrives between statements stays there, for nothing follows
  have hStay : ∀ st₁ st₂, Change limit c.rest st₁ st₂ → st₁ = .between → st₂ = .between := by
    rintro st₁ st₂ hChange rfl
    cases hChange with
    | begin hMore => exact absurd hRest hMore
  rcases hRun.arrival with hStart | ⟨st₁, c₁, t, st₂, hBefore, hRead, hArrive, hBehind⟩
  · have hStart : (Config.start s).2 = c := hStart
    subst hStart
    exact absurd (Reaches.stay (P := (· = .between)) hRun hStay rfl) hNotBetween
  · have hRule := State.reading_of_move hRead
    have hInside : EndsInside (t.bytes c₁.rest) := by
      refine hRule.endsInside ?_
      rintro rfl
      exact hNotBetween (Reaches.stay (P := (· = .between)) hBehind hStay rfl)
    obtain ⟨w, hText⟩ := Reaches.exists_read hBefore
    have hArrive : c₁.read t = c := hArrive
    rw [hText, hRule.significant_eq (Reaches.gapLength_rest hBefore), ← Cursor.rest_read, hArrive,
      hRest]
    have hEnd : significant [] = [] := rfl
    rw [hEnd, List.append_nil]
    exact hInside.append w

/-- What starts a program is one itself unless it ends inside a statement. -/
theorem Accepts.cut_iff {a v : List UInt8} {e : Cursor (a ++ v)}
    (h : Accepts limit (Config.start (a ++ v)) e) :
    (∃ c, Accepts limit (Config.start a) c) ↔ ¬ EndsInside (significant a) := by
  constructor
  · rintro ⟨c, hPart⟩
    rw [not_endsInside_iff]
    rcases hPart.significant_eq with hNone | ⟨w, hw, -⟩
    · exact .inl hNone
    · exact .inr (by rw [hw, List.getLast?_concat])
  · intro hEnd
    rcases check_cases limit a with ⟨c, hPart, -⟩ | ⟨cause, c, hFails, -⟩
    · exact ⟨c, hPart⟩
    · rcases hFails.at_end h with hRest | hRest
      · exact absurd (hFails.endsInside hRest) hEnd
      · obtain ⟨st, hRun, -⟩ := hFails
        exact absurd (hRun.endsInside_of_slash hRest) hEnd

/-- A program of which the last semicolon is cut off ends inside a statement. -/
theorem Accepts.endsInside_take {s : List UInt8} {e : Cursor s}
    (h : Accepts limit (Config.start s) e) {q : Nat} (hq : Significant s q)
    (hb : s[q]? = some ';'.toUInt8)
    (hLast : ∀ i > q, Significant s i → s[i]? ≠ some ';'.toUInt8) :
    EndsInside (significant (s.take q)) := by
  obtain ⟨x, hText, hBehind⟩ := hq.split hb
  have hx : ';'.toUInt8 ∉ x := by
    intro hMem
    obtain ⟨i, hi, hSignificant, hGet⟩ := hBehind _ hMem
    exact hLast i hi hSignificant hGet
  rcases h.significant_eq with hNone | ⟨v, hv, hInside⟩
  · rw [hText] at hNone
    simp at hNone
  · rw [hText] at hv
    have hNil : x = [] := by
      by_contra hMore
      have hEnd := congrArg List.getLast? hv
      rw [List.getLast?_concat, List.getLast?_append_of_ne_nil _ (List.cons_ne_nil _ x),
        List.getLast?_cons_of_ne_nil hMore] at hEnd
      exact hx (List.mem_of_getLast? hEnd)
    rw [hNil] at hv
    rwa [List.append_cancel_right hv]

/-- **Programs may be cut between statements, and nowhere else.**  Of the texts that a program
starts with, those are programs that hold no significant byte or of which the last one is a
semicolon.  Without its last semicolon and what follows, a program is none. -/
theorem cut_accepted_iff (checker : Checker) {s : List UInt8}
    (h : (checker.check s).lastError? = none) :
    (∀ p ≤ s.length, (checker.check (s.take p)).lastError? = none ↔
      significant (s.take p) = [] ∨ (significant (s.take p)).getLast? = some ';'.toUInt8) ∧
    ∀ q, Significant s q → s[q]? = some ';'.toUInt8 →
      (∀ i > q, Significant s i → s[i]? ≠ some ';'.toUInt8) →
      (checker.check (s.take q)).lastError? ≠ none := by
  obtain ⟨e, hWhole⟩ := check_error?_eq_none_iff.1 h
  have hCut : ∀ p, (checker.check (s.take p)).lastError? = none ↔
      ¬ EndsInside (significant (s.take p)) := by
    intro p
    obtain ⟨e', hParts⟩ : ∃ e',
        Accepts checker.limit (Config.start (s.take p ++ s.drop p)) e' := by
      rw [List.take_append_drop]
      exact ⟨e, hWhole⟩
    exact check_error?_eq_none_iff.trans hParts.cut_iff
  constructor
  · intro p _
    exact (hCut p).trans not_endsInside_iff
  · intro q hq hb hLast hAccepted
    exact (hCut q).1 hAccepted (hWhole.endsInside_take hq hb hLast)

/-- `1; y=2; //;` may be cut behind the blank in the middle, but not between the slashes, and not
before the second semicolon: the third is no significant one. -/
theorem cut_accepted_iff_comment :
    ((Checker.new .standard).check [0x31, 0x3b, 0x20]).lastError? = none ∧
      ((Checker.new .standard).check
        [0x31, 0x3b, 0x20, 0x79, 0x3d, 0x32, 0x3b, 0x20, 0x2f]).lastError? ≠ none ∧
      ((Checker.new .standard).check [0x31, 0x3b, 0x20, 0x79, 0x3d, 0x32]).lastError? ≠ none := by
  have hAccepted : ((Checker.new .standard).check
      [0x31, 0x3b, 0x20, 0x79, 0x3d, 0x32, 0x3b, 0x20, 0x2f, 0x2f, 0x3b]).lastError? = none := by
    decide +kernel
  have hComment : ∀ i < 11, i > 6 →
      Significant [0x31, 0x3b, 0x20, 0x79, 0x3d, 0x32, 0x3b, 0x20, 0x2f, 0x2f, 0x3b] i →
      [0x31, 0x3b, 0x20, 0x79, 0x3d, 0x32, 0x3b, 0x20, 0x2f, 0x2f, 0x3b][i]? ≠
        some ';'.toUInt8 := by
    decide +kernel
  obtain ⟨hCut, hLast⟩ := cut_accepted_iff (Checker.new .standard) hAccepted
  refine ⟨(hCut 3 (by decide)).2 (by decide +kernel), fun h => ?_, ?_⟩
  · exact absurd ((hCut 9 (by decide)).1 h) (by decide +kernel)
  · refine hLast 6 (by decide +kernel) rfl fun i hi hSignificant hGet => ?_
    exact hComment i (List.getElem?_eq_some_iff.1 hGet).1 hi hSignificant hGet

end Grammar

end ScriptCheck
