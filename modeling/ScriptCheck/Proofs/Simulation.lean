import ScriptCheck.Proofs.Automaton
import ScriptCheck.Proofs.Progress

/-!
# The productions run like the automaton

A production that is tried in a state of the automaton carries out a run of the automaton: if it
succeeds, the run leads to the state behind the production, and if it fails, the run ends in a
failure of the same cause at the same place.

* `Leads` — the statement for one production, with what is known of the text before and behind it;
  it is closed under sequence (`Leads.bind`) and repetition (`Leads.repeatWhile`).
* `leads_expressionWithin` — expressions, by induction on the free levels, for any open brackets.
* `program_cases` — **a program is a run of the automaton**, from whatever place it is read.
* `check_cases` — **a check is a run of the automaton**, and `check_error?_eq_none_iff`,
  `check_error?_eq_some_iff` tell from the run what the check finds.
-/

namespace ScriptCheck.Grammar

open Source Production

variable {text : List UInt8} {limit : NestingLimit} {depth : Nat}

/-- Tried in the state `st`, with `depth` levels open and before a text that satisfies `pre`, the
production `p` runs like the automaton, which ends up in `st'`, before a text that satisfies
`post`. -/
def Leads (limit : NestingLimit) (depth : Nat) (pre : List UInt8 → Prop) (st : State)
    (p : Production text Unit) (st' : State) (post : List UInt8 → Prop) : Prop :=
  ∀ r : Reader text, r.depth = depth → pre r.cursor.rest →
    match p r with
    | .ok _ r' => r'.depth = depth ∧ post r'.cursor.rest ∧
        Reaches limit (st, r.cursor) (st', r'.cursor)
    | .error e r' => ∃ cause, Fails limit (st, r.cursor) cause r'.cursor ∧
        e = r'.cursor.error cause

/-! ## Putting runs together -/

section

variable {p q : Production text Unit} {st st' st'' : State} {pre mid post : List UInt8 → Prop}

theorem Leads.ok (h : Leads limit depth pre st p st' post) {r r' : Reader text}
    (hDepth : r.depth = depth) (hPre : pre r.cursor.rest) (hp : p r = .ok () r') :
    r'.depth = depth ∧ post r'.cursor.rest ∧ Reaches limit (st, r.cursor) (st', r'.cursor) := by
  have := h r hDepth hPre
  rwa [hp] at this

theorem Leads.error (h : Leads limit depth pre st p st' post) {r r' : Reader text}
    {e : SyntaxError} (hDepth : r.depth = depth) (hPre : pre r.cursor.rest)
    (hp : p r = .error e r') :
    ∃ cause, Fails limit (st, r.cursor) cause r'.cursor ∧ e = r'.cursor.error cause := by
  have := h r hDepth hPre
  rwa [hp] at this

/-- A run may be preceded by moves of the automaton that the production does not see. -/
theorem Leads.head {r : Reader text} {c : Cursor text}
    (h : Leads limit depth pre st p st' post) (hDepth : r.depth = depth) (hPre : pre r.cursor.rest)
    (hReaches : Reaches limit (st'', c) (st, r.cursor)) :
    match p r with
    | .ok _ r' => r'.depth = depth ∧ post r'.cursor.rest ∧ Reaches limit (st'', c) (st', r'.cursor)
    | .error e r' =>
      ∃ cause, Fails limit (st'', c) cause r'.cursor ∧ e = r'.cursor.error cause := by
  cases hp : p r with
  | ok u r' =>
    obtain ⟨hDepth', hPost, hRun⟩ := h.ok hDepth hPre hp
    exact ⟨hDepth', hPost, hReaches.trans hRun⟩
  | error e r' =>
    obtain ⟨cause, hFails, he⟩ := h.error hDepth hPre hp
    exact ⟨cause, .head hReaches hFails, he⟩

theorem Leads.bind (hp : Leads limit depth pre st p st' mid)
    (hq : Leads limit depth mid st' q st'' post) :
    Leads limit depth pre st (p >>= fun _ => q) st'' post := by
  intro r hDepth hPre
  cases hr : p r with
  | ok u r' =>
    obtain ⟨hDepth', hMid, hRun⟩ := hp.ok hDepth hPre hr
    rw [bind_eq_ok hr]
    exact hq.head hDepth' hMid hRun
  | error e r' =>
    rw [bind_eq_error hr]
    exact hp.error hDepth hPre hr

theorem Leads.mono {pre' post' : List UInt8 → Prop} (h : Leads limit depth pre st p st' post)
    (hPre : ∀ s, pre' s → pre s) (hPost : ∀ s, post s → post' s) :
    Leads limit depth pre' st p st' post' := by
  intro r hDepth hr
  cases hp : p r with
  | ok u r' =>
    obtain ⟨hDepth', hPost', hRun⟩ := h.ok hDepth (hPre _ hr) hp
    exact ⟨hDepth', hPost _ hPost', hRun⟩
  | error e r' => exact h.error hDepth (hPre _ hr) hp

/-- A change of state comes before the run. -/
theorem Leads.goto (h : Leads limit depth pre st' p st'' post)
    (hMove : ∀ s, pre s → st.move limit s = .goto st') : Leads limit depth pre st p st'' post :=
  fun _ hDepth hPre => h.head hDepth hPre (.single (.goto (hMove _ hPre)))

/-- A terminal is read if the automaton reads it on the same test. -/
theorem ReadsTerminal.leads {t : Terminal} {test : Option UInt8 → Bool} {cause : Cause}
    (h : ReadsTerminal p t test cause)
    (hMove : ∀ s, pre s →
      st.move limit s = if test s.head? then .read t st' else .fail cause) :
    Leads limit depth pre st p st' fun _ => True := by
  intro r hDepth hPre
  have hMove' : st.move limit r.cursor.rest =
      if test r.cursor.peek? then .read t st' else .fail cause := hMove _ hPre
  rw [h r]
  by_cases hTest : test r.cursor.peek? = true
  · rw [if_pos hTest]
    rw [if_pos hTest] at hMove'
    exact ⟨hDepth, trivial, .single (.read hMove')⟩
  · rw [if_neg hTest]
    rw [if_neg hTest] at hMove'
    exact ⟨cause, ⟨st, .refl, hMove'⟩, rfl⟩

/-- A repetition whose rounds lead from a state back to it. -/
theorem Leads.repeatWhile {going : Option UInt8 → Bool} (hAdvances : Advances p)
    (h : Leads limit depth (fun s => post s ∧ going s.head? = true) st p st post) :
    Leads limit depth post st (repeatWhile going p) st
      fun s => post s ∧ going s.head? = false := by
  intro r hDepth hPost
  -- the rounds follow each other with less text left each time
  induction hn : text.length - r.cursor.position using Nat.strong_induction_on generalizing r with
  | _ n ih =>
    by_cases hGoing : going r.cursor.peek? = true
    · cases hr : p r with
      | error e r' =>
        rw [repeatWhile_of_error hGoing hr]
        exact h.error hDepth ⟨hPost, hGoing⟩ hr
      | ok u r' =>
        have hMoved := hAdvances.ok hr
        have hEnd := r'.cursor.position_le
        obtain ⟨hDepth', hPost', hRun⟩ := h.ok hDepth ⟨hPost, hGoing⟩ hr
        rw [repeatWhile_of_ok hGoing hr hMoved]
        have hRest := ih _ (by omega) r' hDepth' hPost' rfl
        cases hr' : Production.repeatWhile going p r' with
        | ok u r'' =>
          rw [hr'] at hRest
          exact ⟨hRest.1, hRest.2.1, hRun.trans hRest.2.2⟩
        | error e r'' =>
          rw [hr'] at hRest
          obtain ⟨cause, hFails, he⟩ := hRest
          exact ⟨cause, .head hRun hFails, he⟩
    · rw [repeatWhile_of_stop (Bool.eq_false_iff.2 hGoing)]
      exact ⟨hDepth, ⟨hPost, Bool.eq_false_iff.2 hGoing⟩, .refl⟩

end

/-! ## Expressions -/

section

variable {nested : Production text Unit} {opened : List Bracket} {declares : Bool}

/-- The text does not go on with an operator. -/
def NoOperator (s : List UInt8) : Prop := isOperator s.head? = false

/-- An expression is read like the automaton reads it inside the brackets `opened`. -/
abbrev LeadsExpression (limit : NestingLimit) (depth : Nat) (opened : List Bracket)
    (declares : Bool) (p : Production text Unit) : Prop :=
  Leads limit depth (fun _ => True) (.within .expression opened declares) p
    (.within .behind opened declares) NoOperator

theorem any_startsName {next : Option UInt8} (h : next.any isLetter = true) :
    next.any startsName = true := by
  obtain ⟨b, rfl, hb⟩ := (Option.any_eq_true _ _).1 h
  simp [startsName, hb]

theorem leads_group (h : LeadsExpression limit depth (.group :: opened) declares nested) :
    Leads limit depth (fun s => goesOn '(' s.head? = true) (.within .operand opened declares)
      (do expect '('; nested; expect ')') (.within .behind opened declares) fun _ => True := by
  refine ((readsTerminal_expect_of_byte (by decide)).leads ?_).bind (h.bind ?_)
  · intro s hs
    rw [State.move, Stage.move, if_pos hs, if_pos hs]
  · refine (readsTerminal_expect_of_byte (by decide)).leads fun s hs => ?_
    rw [State.move, Stage.move, if_neg (by rw [hs]; simp)]

/-- One argument, with the comma behind it, leads back to where the next one may start. -/
theorem leads_argument (h : LeadsExpression limit depth (.call :: opened) declares nested) :
    Leads limit depth (fun s => True ∧ (!goesOn ')' s.head?) = true)
      (.within .argument (.call :: opened) declares) (argument nested)
      (.within .argument (.call :: opened) declares) fun _ => True := by
  have hNested : Leads limit depth (fun s => True ∧ (!goesOn ')' s.head?) = true)
      (.within .argument (.call :: opened) declares) nested
      (.within .behind (.call :: opened) declares) NoOperator := by
    refine Leads.goto (h.mono (fun _ _ => trivial) fun _ hs => hs) fun s hs => ?_
    rw [State.move, Stage.move, if_neg (by simpa using hs.2)]
  refine hNested.bind ?_
  intro r hDepth hPost
  have hOperator : ¬ isOperator r.cursor.rest.head? = true := by rw [hPost]; simp
  rw [run_peek_bind]
  by_cases hComma : goesOn ',' r.cursor.peek? = true
  · rw [if_pos hComma]
    have hExpect : Leads limit depth
        (fun s => goesOn ',' s.head? = true ∧ ¬ isOperator s.head? = true)
        (.within .behind (.call :: opened) declares) (expect ',' : Production text Unit)
        (.within .argument (.call :: opened) declares) fun _ => True := by
      refine (readsTerminal_expect_of_byte (by decide)).leads fun s hs => ?_
      rw [State.move, Stage.move, if_neg hs.2, if_pos hs.1]
      exact (if_pos hs.1).symm ▸ rfl
    exact hExpect r hDepth ⟨hComma, hOperator⟩
  · rw [if_neg hComma]
    refine ⟨hDepth, trivial, .single (.goto ?_)⟩
    rw [State.move, Stage.move, if_neg hOperator]
    exact if_neg hComma

theorem leads_arguments (h : LeadsExpression limit depth (.call :: opened) declares nested)
    (hAdvances : Advances nested) :
    Leads limit depth (fun s => goesOn '(' s.head? = true) (.within .callee opened declares)
      (arguments nested) (.within .behind opened declares) fun _ => True := by
  refine ((readsTerminal_expect_of_byte (by decide)).leads ?_).bind
    ((Leads.repeatWhile (advances_argument hAdvances) (leads_argument h)).bind ?_)
  · intro s hs
    rw [State.move, Stage.move, if_pos hs, if_pos hs]
  · refine (readsTerminal_expect_of_byte (by decide)).leads fun s hs => ?_
    have hClose : goesOn ')' s.head? = true := by simpa using hs.2
    rw [State.move, Stage.move, if_pos hClose, if_pos hClose]
    rfl

/-- Behind a name, arguments are read if they follow. -/
theorem leads_call (h : LeadsExpression limit depth (.call :: opened) declares nested)
    (hAdvances : Advances nested) :
    Leads limit depth (fun _ => True) (.within .callee opened declares)
      (do if goesOn '(' (← peek) then arguments nested) (.within .behind opened declares)
      fun _ => True := by
  intro r hDepth _
  rw [run_peek_bind]
  by_cases hCall : goesOn '(' r.cursor.peek? = true
  · rw [if_pos hCall]
    exact leads_arguments h hAdvances r hDepth hCall
  · rw [if_neg hCall]
    refine ⟨hDepth, trivial, .single (.goto ?_)⟩
    rw [State.move, Stage.move]
    exact if_neg hCall

theorem leads_factor (h : ∀ b, LeadsExpression limit depth (b :: opened) declares nested)
    (hAdvances : Advances nested) :
    Leads limit depth (fun _ => True) (.within .operand opened declares) (factor nested)
      (.within .behind opened declares) fun _ => True := by
  intro r hDepth _
  rw [factor, run_peek_bind]
  by_cases hGroup : goesOn '(' r.cursor.peek? = true
  · rw [if_pos hGroup]
    exact leads_group (h .group) r hDepth hGroup
  rw [if_neg hGroup]
  by_cases hLetter : r.cursor.peek?.any isLetter = true
  · rw [if_pos hLetter]
    have hName : Leads limit depth (fun s => ¬ goesOn '(' s.head? = true ∧
        s.head?.any isLetter = true) (.within .operand opened declares)
        (name : Production text Unit) (.within .callee opened declares) fun _ => True := by
      refine readsTerminal_name.leads fun s hs => ?_
      rw [State.move, Stage.move, if_neg hs.1, if_pos hs.2, if_pos (any_startsName hs.2)]
    exact hName.bind (leads_call (h .call) hAdvances) r hDepth ⟨hGroup, hLetter⟩
  · rw [if_neg hLetter]
    have hNumber : Leads limit depth
        (fun s => ¬ goesOn '(' s.head? = true ∧ ¬ s.head?.any isLetter = true)
        (.within .operand opened declares) (discard number : Production text Unit)
        (.within .behind opened declares) fun _ => True := by
      refine readsTerminal_number.leads fun s hs => ?_
      rw [State.move, Stage.move, if_neg hs.1, if_neg hs.2]
    exact hNumber r hDepth ⟨hGroup, hLetter⟩

/-- An operator leads from behind a factor to the next one. -/
theorem leads_operator {pre : List UInt8 → Prop} (hPre : ∀ s, pre s → isOperator s.head? = true) :
    Leads limit depth pre (.within .behind opened declares) (operator : Production text Unit)
      (.within .operand opened declares) fun _ => True := by
  intro r hDepth hr
  have hStep : Step limit (.within .behind opened declares, r.cursor)
      (.within .operand opened declares, r.cursor.read .byte) := by
    refine .read ?_
    rw [State.move, Stage.move.eq_def]
    exact if_pos (hPre _ hr)
  exact ⟨hDepth, trivial, .single hStep⟩

theorem leads_term (h : ∀ b, LeadsExpression limit depth (b :: opened) declares nested)
    (hAdvances : Advances nested) :
    Leads limit depth (fun _ => True) (.within .operand opened declares) (term nested)
      (.within .behind opened declares)
      fun s => True ∧ (goesOn '*' s.head? || goesOn '/' s.head?) = false := by
  refine (leads_factor h hAdvances).bind
    (Leads.repeatWhile (advances_operator_factor hAdvances) ?_)
  refine (leads_operator fun s hs => ?_).bind (leads_factor h hAdvances)
  rw [isOperator, hs.2, Bool.or_true]

theorem leads_terms (h : ∀ b, LeadsExpression limit depth (b :: opened) declares nested)
    (hAdvances : Advances nested) :
    Leads limit depth (fun _ => True) (.within .operand opened declares) (terms nested)
      (.within .behind opened declares) NoOperator := by
  refine ((leads_term h hAdvances).bind
    (Leads.repeatWhile (advances_operator_term hAdvances) ?_)).mono (fun _ _ => trivial) ?_
  · refine (leads_operator fun s hs => ?_).bind (leads_term h hAdvances)
    rw [isOperator, hs.2, Bool.true_or]
  · intro s hs
    rw [NoOperator, isOperator, hs.1.2, hs.2, Bool.or_false]

end

/-- **Expressions are read like the automaton reads them**, whatever brackets are open around them:
as many levels are free as the open brackets leave of the limit. -/
theorem leads_expressionWithin {declares : Bool} {free : Nat} {opened : List Bracket}
    (h : opened.length + free = limit.levels) :
    LeadsExpression limit depth opened declares
      (expressionWithin limit free : Production text Unit) := by
  induction free generalizing depth opened with
  | zero =>
    intro r hDepth _
    refine ⟨_, ⟨_, .refl, ?_⟩, rfl⟩
    rw [State.move, Stage.move, if_neg (by omega)]
  | succ free ih =>
    intro r hDepth _
    have hTerms : Leads limit (depth + 1) (fun _ => True) (.within .operand opened declares)
        (terms (expressionWithin limit free) : Production text Unit)
        (.within .behind opened declares) NoOperator :=
      leads_terms (fun b => ih (by rw [List.length_cons]; omega))
        (advances_expressionWithin limit _)
    have hEnter : Reaches limit (.within .expression opened declares, r.cursor)
        (.within .operand opened declares, r.cursor) := by
      refine .single (.goto ?_)
      rw [State.move, Stage.move, if_pos (by omega)]
    have hEntered : enter r = .ok () { r with depth := r.depth + 1 } := rfl
    have hRun :=
      hTerms.head (r := { r with depth := r.depth + 1 }) (by rw [← hDepth]) trivial hEnter
    rw [expressionWithin, bind_eq_ok hEntered]
    cases hr : terms (expressionWithin limit free) { r with depth := r.depth + 1 } with
    | error e r' =>
      rw [hr] at hRun
      rw [bind_eq_error hr]
      exact hRun
    | ok u r' =>
      rw [hr] at hRun
      rw [bind_eq_ok hr]
      obtain ⟨hDepth', hPost, hReaches⟩ := hRun
      exact ⟨by simp [hDepth'], hPost, hReaches⟩

/-! ## Statements -/

theorem leads_expression {declares : Bool} :
    LeadsExpression limit 0 [] declares (expression limit : Production text Unit) := by
  intro r hDepth hPre
  have hFree : expression limit r = expressionWithin limit limit.levels r := by
    rw [expression, hDepth, Nat.sub_zero]
  rw [hFree]
  exact leads_expressionWithin (Nat.zero_add _) r hDepth hPre

/-- The second half of an assignment. -/
theorem leads_equals {declares : Bool} :
    Leads limit 0 (fun _ => True) (.equals declares)
      (do expect '='; expression limit : Production text Unit) (.within .behind [] declares)
      NoOperator := by
  refine Leads.bind ?_ leads_expression
  refine (readsTerminal_expect_of_byte (by decide)).leads fun s _ => ?_
  rw [State.move]

theorem leads_assignment {declares : Bool} :
    Leads limit 0 (fun _ => True) (.target declares) (assignment limit : Production text Unit)
      (.within .behind [] declares) NoOperator := by
  refine Leads.bind (readsTerminal_name.leads fun s _ => ?_) leads_equals
  rw [State.move]

theorem leads_declaration :
    Leads limit 0 (fun _ => True) (.target true) (declaration limit : Production text Unit)
      (.within .behind [] true) fun s => NoOperator s ∧ goesOn ',' s.head? = false := by
  refine leads_assignment.bind (Leads.repeatWhile (advances_comma_assignment limit) ?_)
  refine Leads.bind ((readsTerminal_expect_of_byte (by decide)).leads fun s hs => ?_)
    leads_assignment
  have hOperator : ¬ isOperator s.head? = true := by rw [hs.1]; simp
  rw [State.move, Stage.move, if_neg hOperator, hs.2, Bool.and_self, if_pos rfl, if_pos rfl]

/-- The semicolon, where no more of the statement can follow. -/
theorem leads_semicolon {declares : Bool} :
    Leads limit 0 (fun s => NoOperator s ∧ (declares && goesOn ',' s.head?) = false)
      (.within .behind [] declares) (expect ';' : Production text Unit) .between
      fun _ => True := by
  refine (readsTerminal_expect_of_byte (by decide)).leads fun s hs => ?_
  have hOperator : ¬ isOperator s.head? = true := by rw [hs.1]; simp
  rw [State.move, Stage.move, if_neg hOperator, hs.2, if_neg Bool.false_ne_true]

/-! ### Which statement it is -/

theorem statement_of_var {r : Reader text} (h : varWord.isPrefixOf r.cursor.rest = true) :
    statement limit r =
      (do declaration limit; expect ';') { r with cursor := r.cursor.read (.word varWord) } := by
  have hWord :
      skipWord varWord r = .ok true { r with cursor := r.cursor.read (.word varWord) } := by
    rw [run_skipWord, if_pos h]
  rw [statement, run_bind, clause, bind_eq_ok hWord, if_pos rfl, ← run_bind]

theorem statement_of_letter {r : Reader text} (h : varWord.isPrefixOf r.cursor.rest = false)
    (hLetter : r.cursor.peek?.any isLetter = true) :
    statement limit r = (do assignment limit; expect ';') r := by
  have hWord : skipWord varWord r = .ok false r := by
    rw [run_skipWord, h, if_neg Bool.false_ne_true]
  rw [statement, run_bind, clause, bind_eq_ok hWord, if_neg Bool.false_ne_true, run_peek_bind,
    if_pos hLetter, ← run_bind]

theorem statement_of_other {r : Reader text} (h : varWord.isPrefixOf r.cursor.rest = false)
    (hLetter : ¬ r.cursor.peek?.any isLetter = true) :
    statement limit r = (do expression limit; expect ';') r := by
  have hWord : skipWord varWord r = .ok false r := by
    rw [run_skipWord, h, if_neg Bool.false_ne_true]
  rw [statement, run_bind, clause, bind_eq_ok hWord, if_neg Bool.false_ne_true, run_peek_bind,
    if_neg hLetter, ← run_bind]

theorem leads_statement :
    Leads limit 0 (fun s => True ∧ s.head?.isSome = true) .between
      (statement limit : Production text Unit) .between fun _ => True := by
  intro r hDepth hPre
  have hMore : ¬ r.cursor.rest.isEmpty = true := by
    intro hEmpty
    rw [List.isEmpty_iff.1 hEmpty] at hPre
    exact absurd hPre.2 (by simp)
  cases hVar : varWord.isPrefixOf r.cursor.rest with
  | true =>
    rw [statement_of_var hVar]
    have hStep : Step limit (.between, r.cursor) (.target true, r.cursor.read (.word varWord)) := by
      refine .read ?_
      rw [State.move, if_neg hMore, if_pos hVar]
    have hRun : Leads limit 0 (fun _ => True) (.target true)
        (do declaration limit; expect ';' : Production text Unit) .between fun _ => True :=
      (leads_declaration.mono (fun _ _ => trivial) fun s hs => ⟨hs.1, hs.2⟩).bind leads_semicolon
    exact hRun.head hDepth trivial (.single hStep)
  | false =>
    by_cases hLetter : r.cursor.peek?.any isLetter = true
    · rw [statement_of_letter hVar hLetter]
      have hAssignment : Leads limit 0 (fun s => s = r.cursor.rest) .between
          (assignment limit : Production text Unit) (.within .behind [] false)
          fun s => NoOperator s ∧ (false && goesOn ',' s.head?) = false := by
        refine Leads.mono (Leads.bind (readsTerminal_name.leads fun s hs => ?_) leads_equals)
          (fun _ hs => hs) fun s hs => ⟨hs, rfl⟩
        have hHead : r.cursor.rest.head?.any isLetter = true := hLetter
        rw [hs, State.move, if_neg hMore, hVar, if_neg Bool.false_ne_true, if_pos hHead,
          if_pos (any_startsName hHead)]
      exact (hAssignment.bind leads_semicolon) r hDepth rfl
    · rw [statement_of_other hVar hLetter]
      have hStep : Step limit (.between, r.cursor) (.within .expression [] false, r.cursor) := by
        refine .goto ?_
        rw [State.move, if_neg hMore, hVar, if_neg Bool.false_ne_true]
        exact if_neg hLetter
      have hRun : Leads limit 0 (fun _ => True) (.within .expression [] false)
          (do expression limit; expect ';' : Production text Unit) .between fun _ => True :=
        (leads_expression.mono (fun _ _ => trivial) fun s hs => ⟨hs, rfl⟩).bind leads_semicolon
      exact hRun.head hDepth trivial (.single hStep)

/-! ## Programs -/

/-- A program is read with all levels closed. -/
theorem run_program (limit : NestingLimit) (r : Reader text) :
    program limit r = repeatWhile Option.isSome (statement limit) { r with depth := 0 } :=
  bind_eq_ok (show leaveAll r = .ok () { r with depth := 0 } from rfl)

theorem leads_statements :
    Leads limit 0 (fun _ => True) .between
      (repeatWhile Option.isSome (statement limit) : Production text Unit) .between
      fun s => s = [] := by
  refine (Leads.repeatWhile (advances_statement limit) leads_statement).mono (fun _ hs => hs) ?_
  intro s hs
  simpa using hs.2

/-- **A program read from any place is a run of the automaton**, however many levels were open. -/
theorem program_cases (limit : NestingLimit) (r : Reader text) :
    (∃ r', program limit r = .ok () r' ∧ Accepts limit (.between, r.cursor) r'.cursor) ∨
      ∃ cause r', program limit r = .error (r'.cursor.error cause) r' ∧
        Fails limit (.between, r.cursor) cause r'.cursor := by
  rw [run_program]
  cases hr : repeatWhile Option.isSome (statement limit) { r with depth := 0 } with
  | ok u r' =>
    obtain ⟨-, hEnd, hReaches⟩ := leads_statements.ok rfl trivial hr
    refine .inl ⟨r', rfl, .between, hReaches, ?_⟩
    rw [State.move, hEnd]
    rfl
  | error e r' =>
    obtain ⟨cause, hFails, rfl⟩ := leads_statements.error rfl trivial hr
    exact .inr ⟨cause, r', rfl, hFails⟩

theorem program_of_accepts {r : Reader text} {c : Cursor text}
    (h : Accepts limit (.between, r.cursor) c) :
    ∃ r', program limit r = .ok () r' ∧ r'.cursor = c := by
  rcases program_cases limit r with ⟨r', hr, hAccepts⟩ | ⟨cause, r', -, hFails⟩
  · exact ⟨r', hr, hAccepts.unique h⟩
  · exact absurd hFails h.not_fails

theorem program_of_fails {r : Reader text} {cause : Cause} {c : Cursor text}
    (h : Fails limit (.between, r.cursor) cause c) :
    ∃ r', program limit r = .error (c.error cause) r' ∧ r'.cursor = c := by
  rcases program_cases limit r with ⟨r', -, hAccepts⟩ | ⟨cause', r', hr, hFails⟩
  · exact absurd h hAccepts.not_fails
  · obtain ⟨rfl, rfl⟩ := hFails.unique h
    exact ⟨r', hr, rfl⟩

/-! ## Whole texts -/

/-- A whole text is read statement by statement. -/
theorem program_start (limit : NestingLimit) (text : List UInt8) :
    program limit (Reader.start text) =
      repeatWhile Option.isSome (statement limit) (Reader.start text) :=
  run_program limit (Reader.start text)

/-- **A check is a run of the automaton.** -/
theorem check_cases (limit : NestingLimit) (text : List UInt8) :
    (∃ c, Accepts limit (Config.start text) c ∧ check limit text = ⟨none, c.line⟩) ∨
      ∃ cause c, Fails limit (Config.start text) cause c ∧
        check limit text = ⟨some (c.error cause), c.line⟩ := by
  rw [check]
  rcases program_cases limit (.start text) with ⟨r, hr, hAccepts⟩ | ⟨cause, r, hr, hFails⟩
  · exact .inl ⟨r.cursor, hAccepts, by rw [hr]⟩
  · exact .inr ⟨cause, r.cursor, hFails, by rw [hr]⟩

theorem check_of_accepts {limit : NestingLimit} {text : List UInt8} {c : Cursor text}
    (h : Accepts limit (Config.start text) c) : check limit text = ⟨none, c.line⟩ := by
  obtain ⟨r, hr, rfl⟩ := program_of_accepts (r := .start text) h
  rw [check, hr]

theorem check_of_fails {limit : NestingLimit} {text : List UInt8} {cause : Cause} {c : Cursor text}
    (h : Fails limit (Config.start text) cause c) :
    check limit text = ⟨some (c.error cause), c.line⟩ := by
  obtain ⟨r, hr, rfl⟩ := program_of_fails (r := .start text) h
  rw [check, hr]

theorem check_error?_eq_none_iff {limit : NestingLimit} {text : List UInt8} :
    (check limit text).error? = none ↔ ∃ c, Accepts limit (Config.start text) c := by
  rcases check_cases limit text with ⟨c, hAccepts, hCheck⟩ | ⟨cause, c, hFails, hCheck⟩
  · rw [hCheck]
    exact ⟨fun _ => ⟨c, hAccepts⟩, fun _ => rfl⟩
  · rw [hCheck]
    constructor
    · intro h
      cases h
    · rintro ⟨d, hAccepts⟩
      exact absurd hFails hAccepts.not_fails

theorem check_error?_eq_some_iff {limit : NestingLimit} {text : List UInt8} {e : SyntaxError} :
    (check limit text).error? = some e ↔
      ∃ cause c, Fails limit (Config.start text) cause c ∧ e = c.error cause := by
  rcases check_cases limit text with ⟨c, hAccepts, hCheck⟩ | ⟨cause, c, hFails, hCheck⟩
  · rw [hCheck]
    constructor
    · intro h
      cases h
    · rintro ⟨cause, d, hFails, -⟩
      exact absurd hFails hAccepts.not_fails
  · rw [hCheck]
    constructor
    · intro h
      exact ⟨cause, c, hFails, (Option.some.inj h).symm⟩
    · rintro ⟨cause', d, hFails', rfl⟩
      obtain ⟨rfl, rfl⟩ := hFails.unique hFails'
      rfl

end ScriptCheck.Grammar
