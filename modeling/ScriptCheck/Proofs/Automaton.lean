import Mathlib.Logic.Relation
import ScriptCheck.Grammar.Program
import ScriptCheck.Proofs.Terminals

/-!
# The grammar as an automaton

The productions call each other; where a text fails depends on the calls that are open.  This file
says the same without calls: an automaton whose state lists the brackets that are open, and which
decides by the next byte alone whether to read a terminal, to change its state, to fail or to
accept.

* `State.move` — the decision.  Only between statements is more than one byte looked at, for the
  word `var`.
* `Step`, `Reaches` — one decision carried out on a cursor, and any number of them.
* `Accepts`, `Fails` — where the runs from a configuration end; a run ends in one way only
  (`Accepts.not_fails`, `Fails.unique`).

That the productions run like the automaton is shown in `ScriptCheck.Proofs.Simulation`.
-/

namespace ScriptCheck.Grammar

open Source

/-- A bracket that is open. -/
inductive Bracket where
  /-- Around one expression. -/
  | group
  /-- Around the arguments of a call. -/
  | call
  deriving DecidableEq, Repr

/-- A place in an expression. -/
inductive Stage where
  /-- Before an expression, whose level is not open yet. -/
  | expression
  /-- Before a factor. -/
  | operand
  /-- Behind a name that may be called. -/
  | callee
  /-- Behind a factor. -/
  | behind
  /-- Among call arguments, before an argument or the closing bracket. -/
  | argument
  deriving DecidableEq, Repr

/-- A place in a program.  In a statement, `declares` tells whether it started with `var`. -/
inductive State where
  /-- Between two statements. -/
  | between
  /-- Before the name that is assigned to. -/
  | target (declares : Bool)
  /-- Behind the name that is assigned to. -/
  | equals (declares : Bool)
  /-- In an expression, with the open brackets from the innermost out. -/
  | within (stage : Stage) (opened : List Bracket) (declares : Bool)
  deriving DecidableEq, Repr

/-- What can be done in a state. -/
inductive Move where
  /-- Change the state and stay in place. -/
  | goto (next : State)
  /-- Read a terminal. -/
  | read (terminal : Terminal) (next : State)
  /-- Fail in place. -/
  | fail (cause : Cause)
  /-- End: the text is a program. -/
  | accept

/-- The state that a move leads to, if it leads on. -/
def Move.next? : Move → Option State
  | goto next => some next
  | read _ next => some next
  | fail _ => none
  | accept => none

/-- Whether the text goes on with an operator. -/
def isOperator (next : Option UInt8) : Bool :=
  (goesOn '+' next || goesOn '-' next) || (goesOn '*' next || goesOn '/' next)

/-- What an expression does at one of its stages. -/
def Stage.move (limit : NestingLimit) (opened : List Bracket) (declares : Bool)
    (next : Option UInt8) : Stage → Move
  | expression =>
    if opened.length < limit.levels then .goto (.within operand opened declares)
    else .fail (.nestingTooDeep limit.levels)
  | operand =>
    if goesOn '(' next then .read .byte (.within expression (.group :: opened) declares)
    else if next.any isLetter then .read .name (.within callee opened declares)
    else if next.any isDigit then .read .number (.within behind opened declares)
    else .fail .invalidNumber
  | callee =>
    if goesOn '(' next then .read .byte (.within argument (.call :: opened) declares)
    else .goto (.within behind opened declares)
  | argument =>
    if goesOn ')' next then .read .byte (.within behind opened.tail declares)
    else .goto (.within expression opened declares)
  | behind =>
    if isOperator next then .read .byte (.within operand opened declares)
    else match opened with
      | .group :: outer =>
        if goesOn ')' next then .read .byte (.within behind outer declares)
        else .fail (.expected ')')
      | .call :: outer =>
        if goesOn ',' next then .read .byte (.within argument (.call :: outer) declares)
        else .goto (.within argument (.call :: outer) declares)
      | [] =>
        if declares && goesOn ',' next then .read .byte (.target true)
        else if goesOn ';' next then .read .byte .between
        else .fail (.expected ';')

/-- What the automaton does in a state when `rest` follows. -/
def State.move (limit : NestingLimit) (rest : List UInt8) : State → Move
  | between =>
    if rest.isEmpty then .accept
    else if varWord.isPrefixOf rest then .read (.word varWord) (.target true)
    else if rest.head?.any isLetter then .read .name (.equals false)
    else .goto (.within .expression [] false)
  | target declares =>
    if rest.head?.any startsName then .read .name (.equals declares) else .fail .invalidIdentifier
  | equals declares =>
    if goesOn '=' rest.head? then .read .byte (.within .expression [] declares)
    else .fail (.expected '=')
  | within stage opened declares => stage.move limit opened declares rest.head?

variable {text : List UInt8}

/-- A state and a place in the text. -/
abbrev Config (text : List UInt8) := State × Cursor text

/-- One move, carried out. -/
inductive Step (limit : NestingLimit) : Config text → Config text → Prop
  | goto {st st' : State} {c : Cursor text} (h : st.move limit c.rest = .goto st') :
      Step limit (st, c) (st', c)
  | read {st st' : State} {c : Cursor text} {t : Terminal}
      (h : st.move limit c.rest = .read t st') : Step limit (st, c) (st', c.read t)

/-- Any number of moves. -/
abbrev Reaches (limit : NestingLimit) : Config text → Config text → Prop :=
  Relation.ReflTransGen (Step limit)

/-- The moves from a configuration end with acceptance at `c`. -/
def Accepts (limit : NestingLimit) (start : Config text) (c : Cursor text) : Prop :=
  ∃ st, Reaches limit start (st, c) ∧ State.move limit c.rest st = .accept

/-- The moves from a configuration end with a failure at `c`. -/
def Fails (limit : NestingLimit) (start : Config text) (cause : Cause) (c : Cursor text) : Prop :=
  ∃ st, Reaches limit start (st, c) ∧ State.move limit c.rest st = .fail cause

/-! ## Runs -/

theorem Step.deterministic {limit : NestingLimit} {a b b' : Config text} (h : Step limit a b)
    (h' : Step limit a b') : b = b' := by
  cases h with
  | goto h =>
    cases h' with
    | goto h' => rw [h] at h'; cases h'; rfl
    | read h' => rw [h] at h'; cases h'
  | read h =>
    cases h' with
    | goto h' => rw [h] at h'; cases h'
    | read h' => rw [h] at h'; cases h'; rfl

/-- A configuration from which no move leads on. -/
def Ended (limit : NestingLimit) (a : Config text) : Prop := ∀ b, ¬ Step limit a b

theorem ended_of_next? {limit : NestingLimit} {st : State} {c : Cursor text}
    (h : (st.move limit c.rest).next? = none) : Ended limit (st, c) := by
  intro b hStep
  cases hStep with
  | goto h' | read h' => simp [h', Move.next?] at h

/-- All runs from a configuration that end, end in the same one. -/
theorem Reaches.end_unique {limit : NestingLimit} {a b b' : Config text} (h : Reaches limit a b)
    (hb : Ended limit b) (h' : Reaches limit a b') (hb' : Ended limit b') : b = b' := by
  induction h using Relation.ReflTransGen.head_induction_on with
  | refl =>
    cases h'.cases_head with
    | inl hEq => exact hEq
    | inr hStep =>
      obtain ⟨d, hStep, -⟩ := hStep
      exact absurd hStep (hb d)
  | @head a d hStep _ ih =>
    refine ih ?_
    cases h'.cases_head with
    | inl hEq => exact absurd (hEq ▸ hStep) (hb' d)
    | inr hStep' =>
      obtain ⟨d', hStep', hRest⟩ := hStep'
      rwa [hStep.deterministic hStep']

/-- A run leads on to wherever another run from the same configuration ends. -/
theorem Reaches.to_end {limit : NestingLimit} {a b b' : Config text} (h : Reaches limit a b)
    (h' : Reaches limit a b') (hb' : Ended limit b') : Reaches limit b b' := by
  have hUnique : Relator.RightUnique (@Step text limit) :=
    fun _ _ _ hStep hStep' => hStep.deterministic hStep'
  rcases Relation.ReflTransGen.total_of_right_unique hUnique h h' with hOn | hBack
  · exact hOn
  · cases hBack.cases_head with
    | inl hEq => rw [hEq]
    | inr hStep =>
      obtain ⟨d, hStep, -⟩ := hStep
      exact absurd hStep (hb' d)

theorem Accepts.unique {limit : NestingLimit} {start : Config text} {c d : Cursor text}
    (h : Accepts limit start c) (h' : Accepts limit start d) : c = d := by
  obtain ⟨st, hReaches, hMove⟩ := h
  obtain ⟨st', hReaches', hMove'⟩ := h'
  have hEnded : Ended limit (st, c) := ended_of_next? (by simp [hMove, Move.next?])
  have hEnded' : Ended limit (st', d) := ended_of_next? (by simp [hMove', Move.next?])
  cases hReaches.end_unique hEnded hReaches' hEnded'
  rfl

theorem Accepts.not_fails {limit : NestingLimit} {start : Config text} {c d : Cursor text}
    {cause : Cause} (h : Accepts limit start c) : ¬ Fails limit start cause d := by
  obtain ⟨st, hReaches, hMove⟩ := h
  rintro ⟨st', hReaches', hMove'⟩
  have hEnded : Ended limit (st, c) := ended_of_next? (by simp [hMove, Move.next?])
  have hEnded' : Ended limit (st', d) := ended_of_next? (by simp [hMove', Move.next?])
  cases hReaches.end_unique hEnded hReaches' hEnded'
  rw [hMove] at hMove'
  cases hMove'

theorem Fails.unique {limit : NestingLimit} {start : Config text} {c d : Cursor text}
    {cause cause' : Cause} (h : Fails limit start cause c) (h' : Fails limit start cause' d) :
    cause = cause' ∧ c = d := by
  obtain ⟨st, hReaches, hMove⟩ := h
  obtain ⟨st', hReaches', hMove'⟩ := h'
  have hEnded : Ended limit (st, c) := ended_of_next? (by simp [hMove, Move.next?])
  have hEnded' : Ended limit (st', d) := ended_of_next? (by simp [hMove', Move.next?])
  cases hReaches.end_unique hEnded hReaches' hEnded'
  rw [hMove] at hMove'
  cases hMove'
  exact ⟨rfl, rfl⟩

theorem Accepts.head {limit : NestingLimit} {a b : Config text} {c : Cursor text}
    (h : Reaches limit a b) (h' : Accepts limit b c) : Accepts limit a c := by
  obtain ⟨st, hReaches, hMove⟩ := h'
  exact ⟨st, h.trans hReaches, hMove⟩

theorem Fails.head {limit : NestingLimit} {a b : Config text} {cause : Cause} {c : Cursor text}
    (h : Reaches limit a b) (h' : Fails limit b cause c) : Fails limit a cause c := by
  obtain ⟨st, hReaches, hMove⟩ := h'
  exact ⟨st, h.trans hReaches, hMove⟩

/-- What a run to acceptance reaches on its way leads there too. -/
theorem Accepts.of_reaches {limit : NestingLimit} {a b : Config text} {c : Cursor text}
    (h : Accepts limit a c) (hRun : Reaches limit a b) : Accepts limit b c := by
  obtain ⟨st, hReaches, hMove⟩ := h
  have hEnded : Ended limit (st, c) := ended_of_next? (by simp [hMove, Move.next?])
  exact ⟨st, hRun.to_end hReaches hEnded, hMove⟩

/-- The configuration before the first statement of `text`. -/
def Config.start (text : List UInt8) : Config text := (.between, (Cursor.start text).skipGap)

theorem Config.rest_start (text : List UInt8) : (Config.start text).2.rest = beyondGap text :=
  Cursor.rest_skipGap (Cursor.start text)

end ScriptCheck.Grammar
