import ScriptCheck.Checker
import ScriptCheck.Proofs.Soundness

/-!
# The language of the checker

The checker accepts a text exactly if the text is a program of the declared grammar.  One half is
`program_of_check`.  The other half follows the derivations: the automaton can read along any of
them.  A derivation may end an argument behind a name and start the next argument with a bracket;
the automaton takes that bracket for the start of a call.  It reads the same expression in either
case, so it does not lose its way: that is why `ReadsAlong` speaks of two ways into an expression
that starts with a bracket.

* `Derives.readsAlong` — **the automaton reads along every derivation**, by induction on it.
* `checker_accepts_iff_program` — **the exact language**, for any requested number of levels.
-/

namespace ScriptCheck.Grammar

open Source

variable {text : List UInt8} {limit : NestingLimit} {d : Nat}

/-! ## What the first byte excludes -/

theorem not_goesOn {a b : Char} {next : Option UInt8} (h : goesOn a next = true)
    (hNe : a.toUInt8 ≠ b.toUInt8) : goesOn b next = false := by
  obtain rfl : next = some a.toUInt8 := beq_iff_eq.1 h
  simpa [goesOn] using hNe

theorem not_goesOn_of_any {p : UInt8 → Bool} {ch : Char} {next : Option UInt8}
    (h : next.any p = true) (hch : p ch.toUInt8 = false) : goesOn ch next = false := by
  rw [Bool.eq_false_iff]
  intro hNext
  obtain rfl : next = some ch.toUInt8 := beq_iff_eq.1 hNext
  exact absurd h (by simp [hch])

theorem not_isOperator {ch : Char} {next : Option UInt8} (h : goesOn ch next = true)
    (hNot : isOperator (some ch.toUInt8) = false) : isOperator next = false := by
  obtain rfl : next = some ch.toUInt8 := beq_iff_eq.1 h
  exact hNot

/-- The text starts like an expression. -/
def Opens (s : List UInt8) : Prop :=
  goesOn '(' s.head? = true ∨ s.head?.any isLetter = true ∨ s.head?.any isDigit = true

theorem Opens.not_goesOn {s : List UInt8} (h : Opens s) {ch : Char}
    (hBracket : '('.toUInt8 ≠ ch.toUInt8) (hLetter : isLetter ch.toUInt8 = false)
    (hDigit : isDigit ch.toUInt8 = false) : goesOn ch s.head? = false := by
  rcases h with h | h | h
  · exact Grammar.not_goesOn h hBracket
  · exact not_goesOn_of_any h hLetter
  · exact not_goesOn_of_any h hDigit

theorem Opens.noOperator {s : List UInt8} (h : Opens s) : isOperator s.head? = false := by
  rw [isOperator, h.not_goesOn (by decide) (by decide) (by decide),
    h.not_goesOn (by decide) (by decide) (by decide),
    h.not_goesOn (by decide) (by decide) (by decide),
    h.not_goesOn (by decide) (by decide) (by decide)]
  rfl

theorem Derives.opens {phrase : Phrase} {s t : List UInt8} (h : Derives d phrase s t) :
    match phrase with
    | .expression _ | .term _ | .factor _ => Opens s
    | .moreTerms _ | .moreFactors _ | .arguments _ => True := by
  induction h with
  | expression _ _ _ ih _ => exact ih
  | term _ _ ih _ => exact ih
  | number h => exact .inr (.inr (number_iff.1 h).1)
  | name hLed _ => exact .inr (.inl (letterLed_iff.2 hLed))
  | call hLed _ _ _ _ => exact .inr (.inl (letterLed_iff.2 hLed))
  | group hOpen _ _ _ => exact .inl (mark_iff.1 hOpen).1
  | _ => trivial

/-! ## Moves within an expression -/

section

variable {opened : List Bracket} {declares : Bool} {c : Cursor text}

/-- A factor has just been read. -/
def AfterFactor (stage : Stage) : Prop := stage = .callee ∨ stage = .behind

/-- A name that is not called is a factor like any other. -/
theorem reaches_behind {stage : Stage} (hStage : AfterFactor stage)
    (h : goesOn '(' c.rest.head? = false) :
    Reaches limit (.within stage opened declares, c) (.within .behind opened declares, c) := by
  rcases hStage with rfl | rfl
  · refine .single (.goto ?_)
    rw [State.move, Stage.move, h, if_neg Bool.false_ne_true]
  · exact .refl

theorem reaches_operand (h : opened.length < limit.levels) :
    Reaches limit (.within .expression opened declares, c)
      (.within .operand opened declares, c) := by
  refine .single (.goto ?_)
  rw [State.move, Stage.move, if_pos h]

/-- An operator behind a factor leads to the next one. -/
theorem reaches_of_operator {stage : Stage} (hStage : AfterFactor stage)
    (hBracket : goesOn '(' c.rest.head? = false) (h : isOperator c.rest.head? = true) :
    Reaches limit (.within stage opened declares, c)
      (.within .operand opened declares, c.read .byte) := by
  refine (reaches_behind hStage hBracket).tail (.read ?_)
  rw [State.move, Stage.move.eq_def]
  exact if_pos h

/-- Behind an argument, what starts neither an operator nor a comma is among the arguments. -/
theorem reaches_argument (hOperator : isOperator c.rest.head? = false)
    (hComma : goesOn ',' c.rest.head? = false) :
    Reaches limit (.within .behind (.call :: opened) declares, c)
      (.within .argument (.call :: opened) declares, c) := by
  refine .single (.goto ?_)
  rw [State.move, Stage.move, hOperator, if_neg Bool.false_ne_true]
  exact if_neg (by rw [hComma]; exact Bool.false_ne_true)

theorem reaches_of_comma {stage : Stage} (hStage : AfterFactor stage)
    (h : goesOn ',' c.rest.head? = true) :
    Reaches limit (.within stage (.call :: opened) declares, c)
      (.within .argument (.call :: opened) declares, c.read .byte) := by
  refine (reaches_behind hStage (not_goesOn h (by decide))).tail (.read ?_)
  rw [State.move, Stage.move, not_isOperator h (by decide), if_neg Bool.false_ne_true]
  exact if_pos h

/-- A closing bracket closes the innermost bracket. -/
theorem reaches_of_close {b : Bracket} {stage : Stage}
    (hStage : AfterFactor stage ∨ stage = .argument ∧ b = .call)
    (h : goesOn ')' c.rest.head? = true) :
    Reaches limit (.within stage (b :: opened) declares, c)
      (.within .behind opened declares, c.read .byte) := by
  have hClose : Step limit (.within .argument (.call :: opened) declares, c)
      (.within .behind opened declares, c.read .byte) := by
    refine .read ?_
    rw [State.move, Stage.move, if_pos h, List.tail_cons]
  rcases hStage with hStage | ⟨rfl, rfl⟩
  · refine (reaches_behind hStage (not_goesOn h (by decide))).trans ?_
    cases b with
    | group =>
      refine .single (.read ?_)
      rw [State.move, Stage.move, not_isOperator h (by decide), if_neg Bool.false_ne_true, if_pos h]
    | call =>
      exact (reaches_argument (not_isOperator h (by decide)) (not_goesOn h (by decide))).tail hClose
  · exact .single hClose

end

/-! ## Reading along a derivation -/

/-- From any place before `s` the automaton reads an operand of level `k`, and gets to a place
before `t` that does not depend on the open brackets.  If `s` starts with a bracket, it gets there
also when it takes that bracket for the start of a call. -/
def OperandRun (limit : NestingLimit) (text : List UInt8) (k : Nat) (s t : List UInt8) : Prop :=
  ∀ c : Cursor text, c.rest = s → ∃ c' stage, c'.rest = t ∧ AfterFactor stage ∧
    ∀ opened declares, opened.length + 1 = k →
      Reaches limit (.within .operand opened declares, c) (.within stage opened declares, c') ∧
      (goesOn '(' s.head? = true →
        Reaches limit (.within .callee opened declares, c) (.within stage opened declares, c'))

/-- Behind an operand of level `k`, the automaton reads on from `s` to `t`. -/
def TailRun (limit : NestingLimit) (text : List UInt8) (k : Nat) (s t : List UInt8) : Prop :=
  ∀ (c : Cursor text) (stage : Stage), c.rest = s → AfterFactor stage →
    ∃ c' stage', c'.rest = t ∧ AfterFactor stage' ∧ ∀ opened declares, opened.length + 1 = k →
      Reaches limit (.within stage opened declares, c) (.within stage' opened declares, c')

/-- Among arguments of level `k`, before one of them or right behind one, the automaton reads on
from `s` to `t`, where the call is closed. -/
def ArgumentsRun (limit : NestingLimit) (text : List UInt8) (k : Nat) (s t : List UInt8) : Prop :=
  ∀ c : Cursor text, c.rest = s → ∃ c', c'.rest = t ∧
    ∀ stage opened declares, opened.length + 2 = k → stage = .argument ∨ AfterFactor stage →
      Reaches limit (.within stage (.call :: opened) declares, c)
        (.within .behind opened declares, c')

/-- The automaton reads along the phrase. -/
def ReadsAlong (limit : NestingLimit) (text : List UInt8) : Phrase → List UInt8 → List UInt8 → Prop
  | .expression k | .term k | .factor k => OperandRun limit text k
  | .moreTerms k | .moreFactors k => TailRun limit text k
  | .arguments k => ArgumentsRun limit text k

theorem OperandRun.append {k : Nat} {s t u : List UInt8} (h : OperandRun limit text k s t)
    (h' : TailRun limit text k t u) : OperandRun limit text k s u := by
  intro c hc
  obtain ⟨c₁, stage₁, hc₁, hStage₁, hRun⟩ := h c hc
  obtain ⟨c₂, stage₂, hc₂, hStage₂, hRun'⟩ := h' c₁ stage₁ hc₁ hStage₁
  refine ⟨c₂, stage₂, hc₂, hStage₂, fun opened declares hk => ?_⟩
  obtain ⟨hOperand, hCallee⟩ := hRun opened declares hk
  exact ⟨hOperand.trans (hRun' opened declares hk),
    fun hs => (hCallee hs).trans (hRun' opened declares hk)⟩

theorem tailRun_refl {k : Nat} (s : List UInt8) : TailRun limit text k s s :=
  fun c stage hc hStage => ⟨c, stage, hc, hStage, fun _ _ _ => .refl⟩

/-- An operator, an operand and what follows it. -/
theorem TailRun.cons {k : Nat} {a b : Char} {s t u v : List UInt8}
    (hSign : Mark a s t ∨ Mark b s t)
    (hOperator : ∀ next, goesOn a next = true ∨ goesOn b next = true →
      isOperator next = true ∧ goesOn '(' next = false)
    (h : OperandRun limit text k t u) (h' : TailRun limit text k u v) :
    TailRun limit text k s v := by
  rintro c stage rfl hStage
  have hNext : goesOn a c.rest.head? = true ∨ goesOn b c.rest.head? = true :=
    hSign.imp (fun hMark => (mark_iff.1 hMark).1) fun hMark => (mark_iff.1 hMark).1
  have ht : (c.read .byte).rest = t := by
    rw [Cursor.rest_read]
    exact (hSign.elim (fun hMark => (mark_iff.1 hMark).2) fun hMark => (mark_iff.1 hMark).2).symm
  obtain ⟨hIs, hBracket⟩ := hOperator _ hNext
  obtain ⟨c', stage', hc', hStage', hRun⟩ := h.append h' (c.read .byte) ht
  refine ⟨c', stage', hc', hStage', fun opened declares hk => ?_⟩
  exact (reaches_of_operator hStage hBracket hIs).trans (hRun opened declares hk).1

theorem operandRun_number {k : Nat} {s t : List UInt8} (h : Number s t) :
    OperandRun limit text k s t := by
  rintro c rfl
  obtain ⟨hDigit, ht⟩ := number_iff.1 h
  have hBracket : goesOn '(' c.rest.head? = false := not_goesOn_of_any hDigit (by decide)
  have hLetter : ¬ c.rest.head?.any isLetter = true := by
    intro hLetter
    obtain ⟨b, hb, hDigit⟩ := (Option.any_eq_true _ _).1 hDigit
    rw [hb, Option.any_some] at hLetter
    unfold isLetter at hLetter
    unfold isDigit at hDigit
    rw [beq_iff_eq.1 hDigit] at hLetter
    exact absurd hLetter (by decide)
  refine ⟨c.read .number, .behind, by rw [Cursor.rest_read, ht], .inr rfl, ?_⟩
  intro opened declares _
  refine ⟨.single (.read ?_), fun h => absurd h (by rw [hBracket]; exact Bool.false_ne_true)⟩
  rw [State.move, Stage.move, hBracket, if_neg Bool.false_ne_true, if_neg hLetter, if_pos hDigit]

/-- Reading the name at the start of a factor. -/
theorem reaches_callee {c : Cursor text} (hLed : LetterLed c.rest) (opened : List Bracket)
    (declares : Bool) :
    Reaches limit (.within .operand opened declares, c)
      (.within .callee opened declares, c.read .name) := by
  have hLetter := letterLed_iff.2 hLed
  refine .single (.read ?_)
  rw [State.move, Stage.move, not_goesOn_of_any hLetter (by decide), if_neg Bool.false_ne_true,
    if_pos hLetter]

theorem operandRun_name {k : Nat} {s t : List UInt8} (hLed : LetterLed s) (h : Identifier s t) :
    OperandRun limit text k s t := by
  rintro c rfl
  have hBracket : goesOn '(' c.rest.head? = false :=
    not_goesOn_of_any (letterLed_iff.2 hLed) (by decide)
  refine ⟨c.read .name, .callee, by rw [Cursor.rest_read, (identifier_iff.1 h).2], .inl rfl,
    fun opened declares _ => ⟨reaches_callee hLed opened declares, fun h => ?_⟩⟩
  exact absurd h (by rw [hBracket]; exact Bool.false_ne_true)

theorem operandRun_call {k : Nat} {s t u v : List UInt8} (hLed : LetterLed s)
    (hName : Identifier s t) (hOpen : Mark '(' t u) (h : ArgumentsRun limit text (k + 1) u v) :
    OperandRun limit text k s v := by
  rintro c rfl
  have hBracket : goesOn '(' c.rest.head? = false :=
    not_goesOn_of_any (letterLed_iff.2 hLed) (by decide)
  have hc₁ : (c.read .name).rest = t := by rw [Cursor.rest_read, (identifier_iff.1 hName).2]
  have hc₂ : ((c.read .name).read .byte).rest = u := by
    rw [Cursor.rest_read, hc₁, (mark_iff.1 hOpen).2]
  obtain ⟨c', hc', hRun⟩ := h _ hc₂
  refine ⟨c', .behind, hc', .inr rfl, fun opened declares hk => ⟨?_, fun h => ?_⟩⟩
  · have hStep : Step limit (.within .callee opened declares, c.read .name)
        (.within .argument (.call :: opened) declares, (c.read .name).read .byte) := by
      refine .read ?_
      rw [State.move, Stage.move, hc₁, if_pos (mark_iff.1 hOpen).1]
    exact ((reaches_callee hLed opened declares).tail hStep).trans
      (hRun .argument opened declares (by omega) (.inl rfl))
  · exact absurd h (by rw [hBracket]; exact Bool.false_ne_true)

theorem operandRun_group {k : Nat} {s t u v : List UInt8} (hOpen : Mark '(' s t) (hOpens : Opens t)
    (hk : k + 1 ≤ limit.levels) (h : OperandRun limit text (k + 1) t u) (hClose : Mark ')' u v) :
    OperandRun limit text k s v := by
  rintro c rfl
  obtain ⟨hBracket, ht⟩ := mark_iff.1 hOpen
  have hc₁ : (c.read .byte).rest = t := by rw [Cursor.rest_read, ht]
  obtain ⟨c₂, stage₂, hc₂, hStage₂, hRun⟩ := h _ hc₁
  obtain ⟨hEnd, hv⟩ := mark_iff.1 hClose
  rw [← hc₂] at hEnd hv
  refine ⟨c₂.read .byte, .behind, by rw [Cursor.rest_read, hv], .inr rfl,
    fun opened declares hLevel => ⟨?_, fun _ => ?_⟩⟩
  · have hStep : Step limit (.within .operand opened declares, c)
        (.within .expression (.group :: opened) declares, c.read .byte) := by
      refine .read ?_
      rw [State.move, Stage.move, if_pos hBracket]
    calc Reaches limit (.within .operand opened declares, c)
          (.within .expression (.group :: opened) declares, c.read .byte) := .single hStep
      Reaches limit _ (.within .operand (.group :: opened) declares, c.read .byte) :=
          reaches_operand (by rw [List.length_cons]; omega)
      Reaches limit _ (.within stage₂ (.group :: opened) declares, c₂) :=
          (hRun (.group :: opened) declares (by rw [List.length_cons, hLevel])).1
      Reaches limit _ (.within .behind opened declares, c₂.read .byte) :=
          reaches_of_close (.inl hStage₂) hEnd
  · -- taken for the start of a call, the bracket holds one argument
    have hStep : Step limit (.within .callee opened declares, c)
        (.within .argument (.call :: opened) declares, c.read .byte) := by
      refine .read ?_
      rw [State.move, Stage.move, if_pos hBracket]
    have hStep' : Step limit (.within .argument (.call :: opened) declares, c.read .byte)
        (.within .expression (.call :: opened) declares, c.read .byte) := by
      refine .goto ?_
      rw [State.move, Stage.move, hc₁, hOpens.not_goesOn (by decide) (by decide) (by decide),
        if_neg Bool.false_ne_true]
    calc Reaches limit (.within .callee opened declares, c)
          (.within .expression (.call :: opened) declares, c.read .byte) :=
            (Relation.ReflTransGen.single hStep).tail hStep'
      Reaches limit _ (.within .operand (.call :: opened) declares, c.read .byte) :=
          reaches_operand (by rw [List.length_cons]; omega)
      Reaches limit _ (.within stage₂ (.call :: opened) declares, c₂) :=
          (hRun (.call :: opened) declares (by rw [List.length_cons, hLevel])).1
      Reaches limit _ (.within .behind opened declares, c₂.read .byte) :=
          reaches_of_close (.inl hStage₂) hEnd

theorem argumentsRun_close {k : Nat} {s t : List UInt8} (h : Mark ')' s t) :
    ArgumentsRun limit text k s t := by
  rintro c rfl
  obtain ⟨hClose, ht⟩ := mark_iff.1 h
  refine ⟨c.read .byte, by rw [Cursor.rest_read, ht], fun stage opened declares _ hStage => ?_⟩
  rcases hStage with rfl | hStage
  · exact reaches_of_close (.inr ⟨rfl, rfl⟩) hClose
  · exact reaches_of_close (.inl hStage) hClose

/-- The next argument is read, wherever among the arguments the automaton takes itself to be.  Only
behind a name does it matter that the argument may start with a bracket. -/
theorem OperandRun.next {k : Nat} {s t : List UInt8} (h : OperandRun limit text k s t)
    (hOpens : Opens s) (hk : k ≤ limit.levels) {c : Cursor text} (hc : c.rest = s) :
    ∃ c' stage', c'.rest = t ∧ AfterFactor stage' ∧
      ∀ stage opened declares, opened.length + 2 = k → stage = .argument ∨ AfterFactor stage →
        Reaches limit (.within stage (.call :: opened) declares, c)
          (.within stage' (.call :: opened) declares, c') := by
  obtain ⟨c', stage', hc', hStage', hRun⟩ := h c hc
  refine ⟨c', stage', hc', hStage', fun stage opened declares hLevel hStage => ?_⟩
  subst hc
  obtain ⟨hOperand, hCallee⟩ := hRun (.call :: opened) declares (by rw [List.length_cons]; omega)
  have hArgument : Reaches limit (.within .argument (.call :: opened) declares, c)
      (.within stage' (.call :: opened) declares, c') := by
    have hStep : Step limit (.within .argument (.call :: opened) declares, c)
        (.within .expression (.call :: opened) declares, c) := by
      refine .goto ?_
      rw [State.move, Stage.move, hOpens.not_goesOn (by decide) (by decide) (by decide),
        if_neg Bool.false_ne_true]
    exact .head hStep ((reaches_operand (by rw [List.length_cons]; omega)).trans hOperand)
  have hBehind : Reaches limit (.within .behind (.call :: opened) declares, c)
      (.within stage' (.call :: opened) declares, c') :=
    (reaches_argument hOpens.noOperator
      (hOpens.not_goesOn (by decide) (by decide) (by decide))).trans hArgument
  rcases hStage with rfl | rfl | rfl
  · exact hArgument
  · cases hBracket : goesOn '(' c.rest.head? with
    | true => exact hCallee hBracket
    | false => exact (reaches_behind (.inl rfl) hBracket).trans hBehind
  · exact hBehind

theorem ArgumentsRun.cons {k : Nat} {s t u : List UInt8} (h : OperandRun limit text k s t)
    (hOpens : Opens s) (hk : k ≤ limit.levels) (h' : ArgumentsRun limit text k t u) :
    ArgumentsRun limit text k s u := by
  intro c hc
  obtain ⟨c₁, stage₁, hc₁, hStage₁, hRun⟩ := h.next hOpens hk hc
  obtain ⟨c₂, hc₂, hRun'⟩ := h' c₁ hc₁
  refine ⟨c₂, hc₂, fun stage opened declares hLevel hStage => ?_⟩
  exact (hRun stage opened declares hLevel hStage).trans
    (hRun' stage₁ opened declares hLevel (.inr hStage₁))

theorem ArgumentsRun.cons_comma {k : Nat} {s t u v : List UInt8}
    (h : OperandRun limit text k s t) (hOpens : Opens s) (hk : k ≤ limit.levels)
    (hComma : Mark ',' t u) (h' : ArgumentsRun limit text k u v) :
    ArgumentsRun limit text k s v := by
  intro c hc
  obtain ⟨c₁, stage₁, rfl, hStage₁, hRun⟩ := h.next hOpens hk hc
  obtain ⟨hNext, hu⟩ := mark_iff.1 hComma
  obtain ⟨c₂, hc₂, hRun'⟩ := h' (c₁.read .byte) (by rw [Cursor.rest_read, hu])
  refine ⟨c₂, hc₂, fun stage opened declares hLevel hStage => ?_⟩
  calc Reaches limit (.within stage (.call :: opened) declares, c)
        (.within stage₁ (.call :: opened) declares, c₁) := hRun stage opened declares hLevel hStage
    Reaches limit _ (.within .argument (.call :: opened) declares, c₁.read .byte) :=
        reaches_of_comma hStage₁ hNext
    Reaches limit _ (.within .behind opened declares, c₂) :=
        hRun' .argument opened declares hLevel (.inl rfl)

theorem Derives.level_le {k : Nat} {s t : List UInt8} (h : Derives d (.expression k) s t) :
    k ≤ d := by
  cases h with
  | expression hk _ _ => exact hk

/-- **The automaton reads along every derivation.** -/
theorem Derives.readsAlong (text : List UInt8) {phrase : Phrase} {s t : List UInt8}
    (h : Derives limit.levels phrase s t) : ReadsAlong limit text phrase s t := by
  induction h with
  | expression _ _ _ ihTerm ihMore => exact OperandRun.append ihTerm ihMore
  | noTerm s => exact tailRun_refl s
  | addTerm hSign _ _ ihTerm ihMore =>
    refine TailRun.cons hSign (fun next hNext => ?_) ihTerm ihMore
    rcases hNext with hNext | hNext
    · exact ⟨by rw [isOperator, hNext]; rfl, not_goesOn hNext (by decide)⟩
    · exact ⟨by rw [isOperator, hNext, Bool.or_true]; rfl, not_goesOn hNext (by decide)⟩
  | term _ _ ihFactor ihMore => exact OperandRun.append ihFactor ihMore
  | noFactor s => exact tailRun_refl s
  | mulFactor hSign _ _ ihFactor ihMore =>
    refine TailRun.cons hSign (fun next hNext => ?_) ihFactor ihMore
    rcases hNext with hNext | hNext
    · exact ⟨by rw [isOperator, hNext]; simp, not_goesOn hNext (by decide)⟩
    · exact ⟨by rw [isOperator, hNext]; simp, not_goesOn hNext (by decide)⟩
  | number h => exact operandRun_number h
  | name hLed h => exact operandRun_name hLed h
  | call hLed hName hOpen _ ih => exact operandRun_call hLed hName hOpen ih
  | group hOpen h hClose ih => exact operandRun_group hOpen h.opens h.level_le ih hClose
  | close h => exact argumentsRun_close h
  | argument h _ ih ihMore => exact ArgumentsRun.cons ih h.opens h.level_le ihMore
  | argumentComma h hComma _ ih ihMore =>
    exact ArgumentsRun.cons_comma ih h.opens h.level_le hComma ihMore

/-! ## Statements -/

theorem not_isPrefixOf {w s : List UInt8} (h : ¬ w <+: s) : ¬ w.isPrefixOf s = true :=
  fun hPrefix => h (List.isPrefixOf_iff_prefix.1 hPrefix)

theorem not_isEmpty_of_any {p : UInt8 → Bool} {s : List UInt8} (h : s.head?.any p = true) :
    ¬ s.isEmpty = true := by
  intro hEmpty
  rw [List.isEmpty_iff.1 hEmpty] at h
  exact absurd h (by simp)

/-- The second half of an assignment is read behind the name. -/
theorem equals_reads {s t u : List UInt8} (hEquals : Mark '=' s t)
    (h : Derives limit.levels (.expression 1) t u) {c : Cursor text} (hc : c.rest = s) :
    ∃ c' stage, c'.rest = u ∧ AfterFactor stage ∧
      ∀ declares, Reaches limit (.equals declares, c) (.within stage [] declares, c') := by
  subst hc
  obtain ⟨hNext, ht⟩ := mark_iff.1 hEquals
  have hc₁ : (c.read .byte).rest = t := by rw [Cursor.rest_read, ht]
  obtain ⟨c', stage, hc', hStage, hRun⟩ := h.readsAlong text _ hc₁
  refine ⟨c', stage, hc', hStage, fun declares => ?_⟩
  have hStep : Step limit (.equals declares, c)
      (.within .expression [] declares, c.read .byte) := by
    refine .read ?_
    rw [State.move, if_pos hNext]
  have hLevel : ([] : List Bracket).length < limit.levels := h.level_le
  exact .head hStep ((reaches_operand hLevel).trans (hRun [] declares rfl).1)

theorem Assignment.reads {s t : List UInt8} (h : Assignment limit.levels s t) {c : Cursor text}
    (hc : c.rest = s) :
    ∃ c' stage, c'.rest = t ∧ AfterFactor stage ∧
      ∀ declares, Reaches limit (.target declares, c) (.within stage [] declares, c') := by
  subst hc
  obtain ⟨hName, hEquals, hExpression⟩ := h
  obtain ⟨hNext, ht⟩ := identifier_iff.1 hName
  obtain ⟨c', stage, hc', hStage, hRun⟩ :=
    equals_reads hEquals hExpression (c := c.read .name) (by rw [Cursor.rest_read, ht])
  refine ⟨c', stage, hc', hStage, fun declares => .head (.read ?_) (hRun declares)⟩
  rw [State.move, if_pos hNext]

theorem Assignments.reads {s t : List UInt8} (h : Assignments limit.levels s t) {c : Cursor text}
    (hc : c.rest = s) :
    ∃ c' stage, c'.rest = t ∧ AfterFactor stage ∧
      Reaches limit (.target true, c) (.within stage [] true, c') := by
  induction h generalizing c with
  | last h =>
    obtain ⟨c', stage, hc', hStage, hRun⟩ := h.reads hc
    exact ⟨c', stage, hc', hStage, hRun true⟩
  | comma h hComma _ ih =>
    obtain ⟨c₁, stage₁, rfl, hStage₁, hRun⟩ := h.reads hc
    obtain ⟨hNext, hu⟩ := mark_iff.1 hComma
    obtain ⟨c', stage, hc', hStage, hRun'⟩ := ih (c := c₁.read .byte) (by rw [Cursor.rest_read, hu])
    refine ⟨c', stage, hc', hStage, (hRun true).trans ?_⟩
    refine (reaches_behind hStage₁ (not_goesOn hNext (by decide))).trans (.head (.read ?_) hRun')
    rw [State.move, Stage.move, not_isOperator hNext (by decide), if_neg Bool.false_ne_true, hNext,
      Bool.and_self, if_pos rfl]

/-- The semicolon ends the statement. -/
theorem reaches_between {stage : Stage} {declares : Bool} {c : Cursor text}
    (hStage : AfterFactor stage) (h : goesOn ';' c.rest.head? = true) :
    Reaches limit (.within stage [] declares, c) (.between, c.read .byte) := by
  refine (reaches_behind hStage (not_goesOn h (by decide))).tail (.read ?_)
  rw [State.move, Stage.move, not_isOperator h (by decide), if_neg Bool.false_ne_true,
    not_goesOn h (by decide), Bool.and_false, if_neg Bool.false_ne_true, if_pos h]

theorem Statement.reads {s t : List UInt8} (h : Statement limit.levels s t) {c : Cursor text}
    (hc : c.rest = s) : ∃ c', c'.rest = t ∧ Reaches limit (.between, c) (.between, c') := by
  subst hc
  cases h with
  | declaration hVar h hEnd =>
    obtain ⟨hPrefix, ht⟩ := spelled_iff.1 hVar
    obtain ⟨c₁, stage, rfl, hStage, hRun⟩ :=
      h.reads (c := c.read (.word varWord)) (by rw [Cursor.rest_read, ht]; rfl)
    obtain ⟨hNext, hu⟩ := mark_iff.1 hEnd
    refine ⟨c₁.read .byte, by rw [Cursor.rest_read, hu], .head (.read ?_)
      (hRun.trans (reaches_between hStage hNext))⟩
    rw [State.move, if_neg, if_pos (List.isPrefixOf_iff_prefix.2 hPrefix)]
    intro hEmpty
    rw [List.isEmpty_iff.1 hEmpty] at hPrefix
    exact absurd hPrefix (by decide)
  | assignment hVar hLed h hEnd =>
    obtain ⟨hName, hEquals, hExpression⟩ := h
    obtain ⟨hStart, ht⟩ := identifier_iff.1 hName
    obtain ⟨c₁, stage, rfl, hStage, hRun⟩ :=
      equals_reads hEquals hExpression (c := c.read .name) (by rw [Cursor.rest_read, ht])
    obtain ⟨hNext, hu⟩ := mark_iff.1 hEnd
    refine ⟨c₁.read .byte, by rw [Cursor.rest_read, hu], .head (.read ?_)
      ((hRun false).trans (reaches_between hStage hNext))⟩
    rw [State.move, if_neg (not_isEmpty_of_any hStart), if_neg (not_isPrefixOf hVar),
      if_pos (letterLed_iff.2 hLed)]
  | expression hVar hLed h hEnd =>
    obtain ⟨c₁, stage, rfl, hStage, hRun⟩ := h.readsAlong text c rfl
    obtain ⟨hNext, hu⟩ := mark_iff.1 hEnd
    have hMove : State.move limit c.rest .between = .goto (.within .expression [] false) := by
      have hMore : ¬ c.rest.isEmpty = true := by
        intro hEmpty
        have hOpens : Opens c.rest := h.opens
        rw [List.isEmpty_iff.1 hEmpty] at hOpens
        simp [Opens, goesOn] at hOpens
      rw [State.move, if_neg hMore, if_neg (not_isPrefixOf hVar),
        if_neg fun hLetter => hLed (letterLed_iff.1 hLetter)]
    refine ⟨c₁.read .byte, by rw [Cursor.rest_read, hu], .head (.goto hMove) ?_⟩
    have hLevel : ([] : List Bracket).length < limit.levels := h.level_le
    exact (reaches_operand hLevel).trans
      ((hRun [] false rfl).1.trans (reaches_between hStage hNext))

/-- A program is accepted. -/
theorem check_of_program (h : Program limit.levels text) : (check limit text).error? = none := by
  obtain ⟨t, hGap, hStatements⟩ := h
  have hStart : (Cursor.start text).skipGap.rest = t := by
    rw [longestGap_iff.1 hGap]
    exact Config.rest_start text
  have hRun : ∀ c : Cursor text, c.rest = t →
      ∃ c', c'.rest = [] ∧ Reaches limit (.between, c) (.between, c') := by
    clear hGap hStart
    induction hStatements using Relation.ReflTransGen.head_induction_on with
    | refl => exact fun c hc => ⟨c, hc, .refl⟩
    | head hStatement _ ih =>
      intro c hc
      obtain ⟨c₁, hc₁, hFirst⟩ := hStatement.reads hc
      obtain ⟨c', hc', hRest⟩ := ih c₁ hc₁
      exact ⟨c', hc', hFirst.trans hRest⟩
  obtain ⟨c', hc', hReaches⟩ := hRun _ hStart
  refine check_error?_eq_none_iff.2 ⟨c', .between, hReaches, ?_⟩
  rw [State.move, hc']
  rfl

/-- **The exact language.**  A checker for which `m` levels are asked accepts a text if and only if
the text is a program whose expressions nest at most `m` deep, and no more than the greatest number
of levels that any limit allows. -/
theorem checker_accepts_iff_program (m : Nat) (text : List UInt8) :
    ((Checker.new (.clamp m)).check text).lastError? = none ↔
      Program (min m NestingLimit.most) text := by
  show (check (.clamp m) text).error? = none ↔ Program (NestingLimit.clamp m).levels text
  exact ⟨program_of_check, check_of_program⟩

end ScriptCheck.Grammar
