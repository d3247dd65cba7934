import ScriptCheck.Checker
import ScriptCheck.Proofs.Derivation
import ScriptCheck.Proofs.Significance

/-!
# The alphabet

Outside comments a program is written with few bytes: those of names and numbers, spaces, and a
handful of marks.  This file shows that a check never gets past any other byte.

* `InAlphabet` — the bytes of the language, listed.
* `Gap.not_significant` — a gap holds nothing but spaces and comments, index by index.
* `Reading.inAlphabet` — what is read belongs to the alphabet.
* `Reaches.passed` — **every significant byte that a run has passed belongs to the alphabet.**
* `foreign_bytes_caught` — **a byte outside the alphabet and outside comments is an error**, there
  or before it.
-/

namespace ScriptCheck.Source

/-! ## What lies in a gap -/

section

variable {s : List UInt8} {n k : Nat}

/-- What lies in a comment of the end of a text lies in one of the text. -/
theorem InComment.of_drop (h : InComment (s.drop n) k) : InComment s (n + k) := by
  obtain ⟨j, hj, hStart, hLine⟩ := h
  refine ⟨n + j, by omega, ?_, ?_⟩
  · rwa [List.drop_drop] at hStart
  · have hSame : ((s.drop n).take (k + 1)).drop j = (s.take (n + k + 1)).drop (n + j) := by
      rw [List.take_drop, List.drop_drop, Nat.add_assoc]
    rwa [← hSame]

theorem Significant.drop (h : Significant s (n + k)) : Significant (s.drop n) k := by
  obtain ⟨hByte, hOutside⟩ := h
  refine ⟨?_, fun hIn => hOutside hIn.of_drop⟩
  rwa [List.getElem?_drop]

end

/-- **A gap holds no significant byte**, wherever the text goes on behind it. -/
theorem Gap.not_significant {s t : List UInt8} (h : Gap s t) {k : Nat}
    (hk : k + t.length < s.length) : ¬ Significant s k := by
  induction h generalizing k with
  | nil s => omega
  | @space b s t hb _ ih =>
    intro hSignificant
    cases k with
    | zero =>
      obtain ⟨⟨c, hc, hNot⟩, -⟩ := hSignificant
      obtain rfl : b = c := by simpa using hc
      simp [hb] at hNot
    | succ k =>
      rw [List.length_cons] at hk
      refine ih (k := k) (by omega) ?_
      exact Significant.drop (n := 1) (by rwa [Nat.add_comm])
  | @comment body s t hBody hEnd _ ih =>
    intro hSignificant
    have hSplit : slash :: slash :: (body ++ s) = (slash :: slash :: body) ++ s := rfl
    by_cases hInside : k < body.length + 2
    · -- the two slashes stand at the front, and no line feed since
      refine hSignificant.2 ⟨0, Nat.zero_le k, ⟨body ++ s, rfl⟩, ?_⟩
      intro hMem
      rw [List.drop_zero, hSplit,
        List.take_append_of_le_length (by simp only [List.length_cons]; omega)] at hMem
      have hSlash : lineFeed ≠ slash := by decide
      have hLine : lineFeed ∉ slash :: slash :: body := by simp [hBody, hSlash]
      exact hLine (List.mem_of_mem_take hMem)
    · obtain ⟨m, rfl⟩ : ∃ m, k = body.length + 2 + m := ⟨k - (body.length + 2), by omega⟩
      simp only [List.length_cons, List.length_append] at hk
      have hRest := hSignificant.drop
      rw [hSplit, List.drop_left' (by simp)] at hRest
      exact ih (by omega) hRest

namespace Cursor

variable {text : List UInt8} {c : Cursor text} {i : Nat}

/-- What is skipped is not significant. -/
theorem not_significant_of_lt_skipGap (hLe : c.position ≤ i) (hLt : i < c.skipGap.position) :
    ¬ Significant text i := by
  obtain ⟨k, rfl⟩ : ∃ k, i = c.position + k := ⟨i - c.position, by omega⟩
  intro hSignificant
  have hRest : Significant c.rest k := by
    rw [c.rest_eq]
    exact hSignificant.drop
  have hBefore := c.position_add_length_rest
  have hBehind := c.skipGap.position_add_length_rest
  rw [rest_skipGap] at hBehind
  exact (exists_gap c.rest).1.not_significant (by omega) hRest

/-- A read goes over the bytes of the terminal and skips the gap behind them. -/
theorem exists_read_eq_skipGap {t : Terminal} (h : t.Fits c.rest) :
    ∃ d : Cursor text, c.read t = d.skipGap ∧ d.position = c.position + t.length c.rest := by
  have hLe : c.position + t.length c.rest ≤ text.length := by
    have := c.position_add_length_rest
    have := h.length_le
    omega
  cases t with
  | byte => exact ⟨c.advance 1, rfl, (position_advance 1 c).trans (Nat.min_eq_left hLe)⟩
  | word bytes =>
    exact ⟨c.advance bytes.length, rfl, (position_advance _ c).trans (Nat.min_eq_left hLe)⟩
  | name | number =>
    exact ⟨(c.advance _).setToken c.position, rfl,
      (position_advance _ c).trans (Nat.min_eq_left hLe)⟩

/-- **A significant byte that a read passes belongs to the terminal.** -/
theorem mem_bytes_of_lt_read {t : Terminal} (h : t.Fits c.rest) (hLe : c.position ≤ i)
    (hLt : i < (c.read t).position) (hSignificant : Significant text i) :
    ∃ b ∈ t.bytes c.rest, text[i]? = some b := by
  obtain ⟨d, hRead, hPosition⟩ := exists_read_eq_skipGap h
  rw [hRead] at hLt
  have hInside : i < c.position + t.length c.rest := by
    by_contra hBehind
    exact not_significant_of_lt_skipGap (by omega) hLt hSignificant
  obtain ⟨k, rfl⟩ : ∃ k, i = c.position + k := ⟨i - c.position, by omega⟩
  have hLength := h.length_le
  have hByte : (t.bytes c.rest)[k]? = text[c.position + k]? := by
    rw [Terminal.bytes, List.getElem?_take_of_lt (by omega), c.rest_eq, List.getElem?_drop]
  obtain ⟨⟨b, hb, -⟩, -⟩ := hSignificant
  exact ⟨b, List.mem_of_getElem? (hByte.trans hb), hb⟩

end Cursor

end ScriptCheck.Source

namespace ScriptCheck.Grammar

open Source

/-! ## The bytes of the language -/

instance (b : UInt8) : Decidable (Letter b) := inferInstanceAs (Decidable (_ ∨ _))

instance (b : UInt8) : Decidable (Digit b) := inferInstanceAs (Decidable (_ ∧ _))

instance (b : UInt8) : Decidable (NameByte b) := inferInstanceAs (Decidable (_ ∨ _))

/-- The marks. -/
def marks : List Char := [';', ',', '=', '+', '-', '*', '/', '(', ')']

/-- The bytes that a text may have outside comments. -/
def InAlphabet (b : UInt8) : Prop := NameByte b ∨ Space b ∨ b ∈ marks.map Char.toUInt8

instance (b : UInt8) : Decidable (InAlphabet b) := inferInstanceAs (Decidable (_ ∨ _))

theorem inAlphabet_of_goesOn {ch : Char} (hMark : ch ∈ marks) {s : List UInt8}
    (h : goesOn ch s.head? = true) : ∀ b ∈ Terminal.byte.bytes s, InAlphabet b := by
  rw [bytes_of_goesOn h]
  intro b hb
  rw [List.mem_singleton.1 hb]
  exact .inr (.inr (List.mem_map_of_mem hMark))

/-- **What is read belongs to the alphabet.** -/
theorem Reading.inAlphabet {s : List UInt8} {st st' : State} {t : Terminal}
    (h : Reading s st t st') : ∀ b ∈ t.bytes s, InAlphabet b := by
  rcases h.byte_or_word with rfl | hWord
  · cases h with
    | operator hOperator =>
      simp only [isOperator, Bool.or_eq_true] at hOperator
      rcases hOperator with (hOn | hOn) | (hOn | hOn)
      all_goals exact inAlphabet_of_goesOn (by decide) hOn
    | equals hOn | openGroup hOn | openCall hOn | closeCall hOn | closeGroup hOn | comma hOn
    | nextTarget hOn | finish hOn => exact inAlphabet_of_goesOn (by decide) hOn
  · intro b hb
    exact .inl (continuesName_iff.1 (hWord b hb))

/-! ## What a run passes -/

/-- **Every significant byte that a run has passed belongs to the alphabet.** -/
theorem Reaches.passed {limit : NestingLimit} {text : List UInt8} {st : State} {c : Cursor text}
    (h : Reaches limit (Config.start text) (st, c)) {i : Nat} (hi : i < c.position)
    (hSignificant : Significant text i) : ∃ b ∈ text[i]?, InAlphabet b := by
  generalize hEnd : (st, c) = b at h
  induction h generalizing st c with
  | refl =>
    obtain ⟨rfl, rfl⟩ := Prod.mk.inj hEnd
    exact absurd hSignificant (Cursor.not_significant_of_lt_skipGap (Nat.zero_le i) hi)
  | @tail b b' hRun hStep ih =>
    subst hEnd
    cases hStep with
    | goto hMove => exact ih hi rfl
    | @read st₁ _ c₁ t hMove =>
      by_cases hBefore : i < c₁.position
      · exact ih hBefore rfl
      · have hReading := State.reading_of_move hMove
        obtain ⟨b, hb, hGet⟩ :=
          Cursor.mem_bytes_of_lt_read hReading.fits (by omega) hi hSignificant
        exact ⟨b, hGet, hReading.inAlphabet b hb⟩

/-- The alphabet is ASCII. -/
theorem InAlphabet.lt {b : UInt8} (h : InAlphabet b) : b < 0x80 := by
  rcases h with ((⟨-, hLe⟩ | ⟨-, hLe⟩) | ⟨-, hLe⟩ | rfl) | (rfl | rfl | rfl | rfl) | hMem
  · exact UInt8.lt_of_le_of_lt hLe (by decide)
  · exact UInt8.lt_of_le_of_lt hLe (by decide)
  · exact UInt8.lt_of_le_of_lt hLe (by decide)
  iterate 5 decide
  · have hAll : (marks.map Char.toUInt8).all (· < 0x80) = true := by decide
    simpa using List.all_eq_true.1 hAll b hMem

/-- Zero, the form feed, the delete character and all that is not ASCII are no bytes of the
language. -/
theorem not_inAlphabet {b : UInt8} (h : b ∈ [0x00, 0x0c, 0x7f] ∨ 0x80 ≤ b) : ¬ InAlphabet b := by
  rcases h with hMem | hHigh
  · simp only [List.mem_cons, List.not_mem_nil, or_false] at hMem
    rcases hMem with rfl | rfl | rfl
    all_goals decide
  · intro hIn
    exact UInt8.not_le.2 hIn.lt hHigh

/-- **A byte outside the alphabet and outside comments is an error**, there or before it.  So no
such byte is passed over, and none ends a program. -/
theorem foreign_bytes_caught (checker : Checker) (text : List UInt8) :
    (∀ i b, text[i]? = some b → ¬ InComment text i → ¬ InAlphabet b →
      ∃ e, (checker.check text).lastError? = some e ∧ e.offset ≤ i) ∧
    ∀ b : UInt8, b ∈ [0x00, 0x0c, 0x7f] ∨ 0x80 ≤ b → ¬ InAlphabet b := by
  refine ⟨?_, fun b => not_inAlphabet⟩
  intro i b hb hOutside hForeign
  have hSpace : ¬ Space b := fun hSpace => hForeign (.inr (.inl hSpace))
  have hSignificant : Significant text i := ⟨⟨b, hb, hSpace⟩, hOutside⟩
  have hStops : ∀ {st c}, Reaches checker.limit (Config.start text) (st, c) → c.position ≤ i := by
    intro st c hRun
    by_contra hPassed
    obtain ⟨b', hb', hAlphabet⟩ := hRun.passed (by omega) hSignificant
    obtain rfl : b = b' := Option.some.inj (hb.symm.trans hb')
    exact hForeign hAlphabet
  rcases check_cases checker.limit text with ⟨c, ⟨st, hRun, hMove⟩, -⟩ | ⟨cause, c, hFails, hCheck⟩
  · -- a program would have been read to its end
    have hEnd := c.position_add_length_rest
    rw [(State.between_of_move hMove).2] at hEnd
    have hLt := (List.getElem?_eq_some_iff.1 hb).1
    have hLe := hStops hRun
    simp only [List.length_nil] at hEnd
    omega
  · obtain ⟨st, hRun, -⟩ := hFails
    refine ⟨c.error cause, ?_, hStops hRun⟩
    simp [Checker.check, Checker.record, hCheck]

/-- A form feed behind `x=1;//` and a line feed is neither a space nor the end of the program. -/
theorem foreign_bytes_caught_formFeed :
    let text : List UInt8 := [0x78, 0x3d, 0x31, 0x3b, 0x2f, 0x2f, 0x0c, 0x0a, 0x0c]
    InComment text 6 ∧ ¬ InComment text 8 ∧
      ∃ e, ((Checker.new .standard).check text).lastError? = some e ∧ e.offset ≤ 8 := by
  intro text
  have hOutside : ¬ InComment text 8 := by decide
  obtain ⟨hCaught, hForeign⟩ := foreign_bytes_caught (Checker.new .standard) text
  exact ⟨by decide, hOutside, hCaught 8 0x0c rfl hOutside (hForeign 0x0c (by decide))⟩

end ScriptCheck.Grammar
