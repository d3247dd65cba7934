import ScriptCheck.Proofs.Automaton

/-!
# The rules of the automaton

`State.move` decides by tests in a row.  This file turns the decisions round: for every move that
leads on there is a rule, which names the state before it and behind it and says what the next bytes
were.  A fact about all moves is then shown rule by rule, and the tests are looked at only here.

* `Reading` — the ways to read a terminal; `Change` — the ways to change the state in place.
* `State.reading_of_move`, `State.change_of_move` — **every move that leads on follows a rule.**
* `State.between_of_move`, `State.tooDeep_of_move` — a text is accepted only between statements, and
  the limit is met only before an expression.
-/

namespace ScriptCheck.Grammar

open Source

variable {limit : NestingLimit} {s : List UInt8}

/-- `Reading s st t st'`: in the state `st`, before the text `s`, the terminal `t` is read, and the
state behind it is `st'`. -/
inductive Reading (s : List UInt8) : State → Terminal → State → Prop
  /-- The word that starts a declaration. -/
  | declare (h : varWord <+: s) : Reading s .between (.word varWord) (.target true)
  /-- The name at the start of an assignment. -/
  | assign (h : s.head?.any isLetter = true) : Reading s .between .name (.equals false)
  /-- The name that is assigned to in a declaration. -/
  | target {declares : Bool} (h : s.head?.any startsName = true) :
      Reading s (.target declares) .name (.equals declares)
  | equals {declares : Bool} (h : goesOn '=' s.head? = true) :
      Reading s (.equals declares) .byte (.within .expression [] declares)
  /-- The bracket around an expression. -/
  | openGroup {opened : List Bracket} {declares : Bool} (h : goesOn '(' s.head? = true) :
      Reading s (.within .operand opened declares) .byte
        (.within .expression (.group :: opened) declares)
  | name {opened : List Bracket} {declares : Bool} (h : s.head?.any isLetter = true) :
      Reading s (.within .operand opened declares) .name (.within .callee opened declares)
  | number {opened : List Bracket} {declares : Bool} (h : s.head?.any isDigit = true) :
      Reading s (.within .operand opened declares) .number (.within .behind opened declares)
  /-- The bracket behind the name of a call. -/
  | openCall {opened : List Bracket} {declares : Bool} (h : goesOn '(' s.head? = true) :
      Reading s (.within .callee opened declares) .byte
        (.within .argument (.call :: opened) declares)
  | closeCall {opened : List Bracket} {declares : Bool} (h : goesOn ')' s.head? = true) :
      Reading s (.within .argument opened declares) .byte (.within .behind opened.tail declares)
  | operator {opened : List Bracket} {declares : Bool} (h : isOperator s.head? = true) :
      Reading s (.within .behind opened declares) .byte (.within .operand opened declares)
  | closeGroup {opened : List Bracket} {declares : Bool} (h : goesOn ')' s.head? = true) :
      Reading s (.within .behind (.group :: opened) declares) .byte
        (.within .behind opened declares)
  /-- The comma behind an argument. -/
  | comma {opened : List Bracket} {declares : Bool} (h : goesOn ',' s.head? = true) :
      Reading s (.within .behind (.call :: opened) declares) .byte
        (.within .argument (.call :: opened) declares)
  /-- The comma between two assignments of a declaration. -/
  | nextTarget (h : goesOn ',' s.head? = true) :
      Reading s (.within .behind [] true) .byte (.target true)
  /-- The semicolon. -/
  | finish {declares : Bool} (h : goesOn ';' s.head? = true) :
      Reading s (.within .behind [] declares) .byte .between

/-- `Change limit s st st'`: before the text `s` the state `st` becomes `st'`, and nothing is
read. -/
inductive Change (limit : NestingLimit) (s : List UInt8) : State → State → Prop
  /-- What starts with no letter is an expression. -/
  | begin (hMore : s ≠ []) (h : s.head?.any isLetter = false) :
      Change limit s .between (.within .expression [] false)
  /-- The expression takes its level. -/
  | enter {opened : List Bracket} {declares : Bool} (h : opened.length < limit.levels) :
      Change limit s (.within .expression opened declares) (.within .operand opened declares)
  /-- The name is not called. -/
  | plain {opened : List Bracket} {declares : Bool} (h : goesOn '(' s.head? = false) :
      Change limit s (.within .callee opened declares) (.within .behind opened declares)
  /-- The call is not closed yet. -/
  | nextArgument {opened : List Bracket} {declares : Bool} (h : goesOn ')' s.head? = false) :
      Change limit s (.within .argument opened declares) (.within .expression opened declares)
  /-- The argument is over. -/
  | endArgument {opened : List Bracket} {declares : Bool} (h : isOperator s.head? = false)
      (hComma : goesOn ',' s.head? = false) :
      Change limit s (.within .behind (.call :: opened) declares)
        (.within .argument (.call :: opened) declares)

/-! ## Every move follows a rule -/

theorem Stage.reading_of_move {stage : Stage} {opened : List Bracket} {declares : Bool}
    {t : Terminal} {st' : State} (h : stage.move limit opened declares s.head? = .read t st') :
    Reading s (.within stage opened declares) t st' := by
  cases stage with
  | expression =>
    simp only [Stage.move] at h
    split at h <;> cases h
  | operand =>
    simp only [Stage.move] at h
    split at h
    · rename_i hOpen
      cases h
      exact .openGroup hOpen
    split at h
    · rename_i hLetter
      cases h
      exact .name hLetter
    split at h
    · rename_i hDigit
      cases h
      exact .number hDigit
    · cases h
  | callee =>
    simp only [Stage.move] at h
    split at h
    · rename_i hOpen
      cases h
      exact .openCall hOpen
    · cases h
  | argument =>
    simp only [Stage.move] at h
    split at h
    · rename_i hClose
      cases h
      exact .closeCall hClose
    · cases h
  | behind =>
    rw [Stage.move.eq_def] at h
    simp only at h
    split at h
    · rename_i hOperator
      cases h
      exact .operator hOperator
    split at h
    · split at h
      · rename_i hClose
        cases h
        exact .closeGroup hClose
      · cases h
    · split at h
      · rename_i hComma
        cases h
        exact .comma hComma
      · cases h
    · split at h
      · rename_i hComma
        cases h
        obtain ⟨rfl, hComma⟩ := Bool.and_eq_true_iff.1 hComma
        exact .nextTarget hComma
      split at h
      · rename_i hEnd
        cases h
        exact .finish hEnd
      · cases h

/-- **Every read follows a rule.** -/
theorem State.reading_of_move {st st' : State} {t : Terminal}
    (h : st.move limit s = .read t st') : Reading s st t st' := by
  cases st with
  | between =>
    simp only [State.move] at h
    split at h
    · cases h
    split at h
    · rename_i hVar
      cases h
      exact .declare (List.isPrefixOf_iff_prefix.1 hVar)
    split at h
    · rename_i hLetter
      cases h
      exact .assign hLetter
    · cases h
  | target declares =>
    simp only [State.move] at h
    split at h
    · rename_i hName
      cases h
      exact .target hName
    · cases h
  | equals declares =>
    simp only [State.move] at h
    split at h
    · rename_i hEquals
      cases h
      exact .equals hEquals
    · cases h
  | within stage opened declares => exact Stage.reading_of_move h

theorem Stage.change_of_move {stage : Stage} {opened : List Bracket} {declares : Bool} {st' : State}
    (h : stage.move limit opened declares s.head? = .goto st') :
    Change limit s (.within stage opened declares) st' := by
  cases stage with
  | expression =>
    simp only [Stage.move] at h
    split at h
    · rename_i hRoom
      cases h
      exact .enter hRoom
    · cases h
  | operand =>
    simp only [Stage.move] at h
    repeat' split at h
    all_goals cases h
  | callee =>
    simp only [Stage.move] at h
    split at h
    · cases h
    · rename_i hOpen
      cases h
      exact .plain (Bool.eq_false_iff.2 hOpen)
  | argument =>
    simp only [Stage.move] at h
    split at h
    · cases h
    · rename_i hClose
      cases h
      exact .nextArgument (Bool.eq_false_iff.2 hClose)
  | behind =>
    rw [Stage.move.eq_def] at h
    simp only at h
    split at h
    · cases h
    rename_i hOperator
    split at h
    · split at h <;> cases h
    · split at h
      · cases h
      · rename_i hComma
        cases h
        exact .endArgument (Bool.eq_false_iff.2 hOperator) (Bool.eq_false_iff.2 hComma)
    · repeat' split at h
      all_goals cases h

/-- **Every change in place follows a rule.** -/
theorem State.change_of_move {st st' : State} (h : st.move limit s = .goto st') :
    Change limit s st st' := by
  cases st with
  | between =>
    simp only [State.move] at h
    split at h
    · cases h
    rename_i hMore
    split at h
    · cases h
    split at h
    · cases h
    · rename_i hLetter
      cases h
      exact .begin (fun hNil => hMore (by rw [hNil]; rfl)) (Bool.eq_false_iff.2 hLetter)
  | target declares | equals declares =>
    simp only [State.move] at h
    split at h <;> cases h
  | within stage opened declares => exact Stage.change_of_move h

/-- A text is accepted only between statements, and at its end. -/
theorem State.between_of_move {st : State} (h : st.move limit s = .accept) :
    st = .between ∧ s = [] := by
  cases st with
  | between =>
    simp only [State.move] at h
    split at h
    · rename_i hEnd
      exact ⟨rfl, List.isEmpty_iff.1 hEnd⟩
    · repeat' split at h
      all_goals cases h
  | target declares | equals declares =>
    simp only [State.move] at h
    split at h <;> cases h
  | within stage opened declares =>
    cases stage with
    | expression | operand | callee | argument =>
      simp only [State.move, Stage.move] at h
      repeat' split at h
      all_goals cases h
    | behind =>
      rw [State.move, Stage.move.eq_def] at h
      simp only at h
      repeat' split at h
      all_goals cases h

/-- The limit is met only before an expression, when all levels are taken. -/
theorem State.tooDeep_of_move {st : State} {n : Nat}
    (h : st.move limit s = .fail (.nestingTooDeep n)) :
    ∃ opened declares, st = .within .expression opened declares ∧
      limit.levels ≤ opened.length := by
  cases st with
  | between =>
    simp only [State.move] at h
    repeat' split at h
    all_goals cases h
  | target declares | equals declares =>
    simp only [State.move] at h
    split at h <;> cases h
  | within stage opened declares =>
    cases stage with
    | expression =>
      simp only [State.move, Stage.move] at h
      split at h
      · cases h
      · rename_i hFull
        exact ⟨opened, declares, rfl, Nat.le_of_not_lt hFull⟩
    | operand | callee | argument =>
      simp only [State.move, Stage.move] at h
      repeat' split at h
      all_goals cases h
    | behind =>
      rw [State.move, Stage.move.eq_def] at h
      simp only at h
      repeat' split at h
      all_goals cases h

end ScriptCheck.Grammar
