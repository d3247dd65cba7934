import ScriptCheck.Proofs.Simulation

/-!
# Every text comes to an end

The productions are total functions: their repetitions stop where a round does not get on, and an
expression is given the number of levels it may open.  This file takes both away.  It writes the
grammar down as routines that loop as long as their test passes and call each other as often as they
like, and shows that they end all the same, with what the productions give.

* `Part`, `Primitive`, `Routine`, `Part.routine` — the parts of the grammar, and what each of them
  does.
* `Runs` — a routine carried out to its end.  A derivation is a finite tree of all calls and rounds
  that it takes, so that a routine that never ends has none; and there is at most one
  (`Runs.unique`).
* `Performs` — a routine does what a production does, with no more rounds than bytes are left and
  one.  That is closed under sequence (`Performs.seq`), choice (`Performs.branch`) and, for what
  advances, under loops (`Performs.loop`).
* `performs_expressionWithin` — **expressions come to an end**, by induction on the levels that are
  free.
* `grammar_terminates` — **progress and termination**: what succeeds gets on, nothing leads back,
  and each part of the grammar ends from every reader.
-/

namespace ScriptCheck.Grammar

open Source Production

variable {text : List UInt8} {limit : NestingLimit} {depth : Nat}

/-! ## Routines -/

/-- A part of the grammar that the others may call. -/
inductive Part where
  | program
  | statement
  | declaration
  | assignment
  | expression
  | term
  | factor
  | arguments
  deriving DecidableEq, Repr

/-- What a part does in one go. -/
inductive Primitive where
  | leaveAll
  | enter
  | leave
  | name
  | number
  | operator
  | expect (ch : Char)
  /-- The word that starts a declaration. -/
  | varWord
  /-- Nothing. -/
  | pass
  | fail (cause : Cause)

/-- What the primitive reads. -/
def Primitive.production : Primitive → Production text Unit
  | leaveAll => Production.leaveAll
  | enter => Production.enter
  | leave => Production.leave
  | name => Production.name
  | number => discard Production.number
  | operator => Production.operator
  | expect ch => Production.expect ch
  | varWord => discard (skipWord Grammar.varWord)
  | pass => pure ()
  | fail cause => failAt cause

/-- What a part does.  Nothing in it is bounded. -/
inductive Routine (text : List UInt8) where
  /-- Reads a terminal, opens or closes levels, or fails. -/
  | step (p : Primitive)
  /-- Calls a part of the grammar. -/
  | call (part : Part)
  /-- One after the other, unless the first fails. -/
  | seq (first second : Routine text)
  | branch (test : Reader text → Bool) (yes no : Routine text)
  /-- A round of a loop. -/
  | round (body : Routine text)
  /-- Rounds, as long as the byte at the place passes the test beforehand. -/
  | loop (going : Option UInt8 → Bool) (body : Routine text)

/-- The routine of each part. -/
def Part.routine (limit : NestingLimit) : Part → Routine text
  | program => .seq (.step .leaveAll) (.loop Option.isSome (.call .statement))
  | statement =>
    .seq
      (.branch (fun r => varWord.isPrefixOf r.cursor.rest)
        (.seq (.step .varWord) (.call .declaration))
        (.branch (fun r => r.cursor.peek?.any isLetter) (.call .assignment) (.call .expression)))
      (.step (.expect ';'))
  | declaration =>
    -- the first round is not preceded by a test
    .seq (.round (.call .assignment))
      (.loop (goesOn ',') (.seq (.step (.expect ',')) (.call .assignment)))
  | assignment => .seq (.step .name) (.seq (.step (.expect '=')) (.call .expression))
  | expression =>
    .branch (fun r => r.depth < limit.levels)
      (.seq (.step .enter)
        (.seq
          (.seq (.call .term)
            (.loop (fun next => goesOn '+' next || goesOn '-' next)
              (.seq (.step .operator) (.call .term))))
          (.step .leave)))
      (.step (.fail (.nestingTooDeep limit.levels)))
  | term =>
    .seq (.call .factor)
      (.loop (fun next => goesOn '*' next || goesOn '/' next)
        (.seq (.step .operator) (.call .factor)))
  | factor =>
    .branch (fun r => goesOn '(' r.cursor.peek?)
      (.seq (.step (.expect '(')) (.seq (.call .expression) (.step (.expect ')'))))
      (.branch (fun r => r.cursor.peek?.any isLetter)
        (.seq (.step .name)
          (.branch (fun r => goesOn '(' r.cursor.peek?) (.call .arguments) (.step .pass)))
        (.step .number))
  | arguments =>
    .seq (.step (.expect '('))
      (.seq
        (.loop (fun next => !goesOn ')' next)
          (.seq (.call .expression)
            (.branch (fun r => goesOn ',' r.cursor.peek?) (.step (.expect ','))
              (.step .pass))))
        (.step (.expect ')')))

/-- What a routine ends with. -/
abbrev Ending (text : List UInt8) := EStateM.Result SyntaxError (Reader text) Unit

/-- `Runs limit routine r n res`: carried out from `r`, the routine ends with `res`, after `n`
rounds of its own.  The rounds of the parts that it calls are theirs. -/
inductive Runs (limit : NestingLimit) :
    Routine text → Reader text → Nat → Ending text → Prop
  | step {p : Primitive} {r : Reader text} : Runs limit (.step p) r 0 (p.production r)
  | call {part : Part} {r : Reader text} {n : Nat} {res : Ending text}
      (h : Runs limit (part.routine limit) r n res) : Runs limit (.call part) r 0 res
  | seq {a b : Routine text} {r r' : Reader text} {n m : Nat} {res : Ending text}
      (hFirst : Runs limit a r n (.ok () r')) (hSecond : Runs limit b r' m res) :
      Runs limit (.seq a b) r (n + m) res
  | seqError {a b : Routine text} {r r' : Reader text} {n : Nat} {e : SyntaxError}
      (hFirst : Runs limit a r n (.error e r')) : Runs limit (.seq a b) r n (.error e r')
  | yes {test : Reader text → Bool} {a b : Routine text} {r : Reader text} {n : Nat}
      {res : Ending text} (hTest : test r = true) (h : Runs limit a r n res) :
      Runs limit (.branch test a b) r n res
  | no {test : Reader text → Bool} {a b : Routine text} {r : Reader text} {n : Nat}
      {res : Ending text} (hTest : test r = false) (h : Runs limit b r n res) :
      Runs limit (.branch test a b) r n res
  | round {a : Routine text} {r : Reader text} {n : Nat} {res : Ending text}
      (h : Runs limit a r n res) : Runs limit (.round a) r (n + 1) res
  | loop {going : Option UInt8 → Bool} {a : Routine text} {r : Reader text} {n : Nat}
      {res : Ending text}
      (h : Runs limit (.branch (fun r => going r.cursor.peek?) (.seq (.round a) (.loop going a))
        (.step .pass)) r n res) :
      Runs limit (.loop going a) r n res

/-- **A routine ends in one way only.** -/
theorem Runs.unique {routine : Routine text} {r : Reader text} {n m : Nat} {res res' : Ending text}
    (h : Runs limit routine r n res) (h' : Runs limit routine r m res') : m = n ∧ res' = res := by
  induction h generalizing m res' with
  | step =>
    cases h'
    exact ⟨rfl, rfl⟩
  | call _ ih =>
    cases h' with
    | call h' => exact ⟨rfl, (ih h').2⟩
  | seq _ _ ihFirst ihSecond =>
    cases h' with
    | seq hFirst hSecond =>
      obtain ⟨rfl, hSame⟩ := ihFirst hFirst
      cases hSame
      obtain ⟨rfl, rfl⟩ := ihSecond hSecond
      exact ⟨rfl, rfl⟩
    | seqError hFirst => cases (ihFirst hFirst).2
  | seqError _ ih =>
    cases h' with
    | seq hFirst _ => cases (ih hFirst).2
    | seqError hFirst => exact ih hFirst
  | yes hTest _ ih =>
    cases h' with
    | yes _ h' => exact ih h'
    | no hTest' _ => exact absurd (hTest.symm.trans hTest') (by decide)
  | no hTest _ ih =>
    cases h' with
    | yes hTest' _ => exact absurd (hTest'.symm.trans hTest) (by decide)
    | no _ h' => exact ih h'
  | round _ ih =>
    cases h' with
    | round h' =>
      obtain ⟨rfl, rfl⟩ := ih h'
      exact ⟨rfl, rfl⟩
  | loop _ ih =>
    cases h' with
    | loop h' => exact ih h'

/-! ## Routines and productions -/

/-- The number of bytes that are left to a reader. -/
def Reader.left (r : Reader text) : Nat := text.length - r.cursor.position

/-- Tried with `depth` levels open, the routine does what `p` does.  It has `loops` loops of its
own, each with no more rounds than bytes are left and one; and a success leaves as many levels open
and does not lead back. -/
def Performs (limit : NestingLimit) (depth loops : Nat) (routine : Routine text)
    (p : Production text Unit) : Prop :=
  ∀ r : Reader text, r.depth = depth →
    (∃ n ≤ loops * (r.left + 1), Runs limit routine r n (p r)) ∧
      ∀ r', p r = .ok () r' → r'.depth = depth ∧ r'.left ≤ r.left

section

variable {a b : Routine text} {p q : Production text Unit} {loops loops' : Nat}

theorem Reader.left_le {r r' : Reader text} (h : r.cursor.position ≤ r'.cursor.position) :
    r'.left ≤ r.left :=
  Nat.sub_le_sub_left h _

theorem Reader.left_lt {r r' : Reader text} (h : r.cursor.position < r'.cursor.position) :
    r'.left < r.left := by
  have hLe := r'.cursor.position_le
  unfold Reader.left
  omega

/-- What does not touch the levels is one step. -/
theorem performs_step (s : Primitive)
    (hDepth : ∀ r r' : Reader text, s.production r = .ok () r' → r'.depth = r.depth)
    (hMoves : Moves (s.production : Production text Unit)) :
    Performs limit depth 0 (.step s) (s.production : Production text Unit) := by
  intro r hr
  refine ⟨⟨0, Nat.zero_le _, .step⟩, fun r' hp => ⟨?_, Reader.left_le (hMoves.ok hp)⟩⟩
  rw [hDepth r r' hp, hr]

theorem performs_terminal (s : Primitive) {t : Terminal} {test : Option UInt8 → Bool}
    {cause : Cause} (h : ReadsTerminal (s.production : Production text Unit) t test cause)
    (hStarts : Starts t test) :
    Performs limit depth 0 (.step s) (s.production : Production text Unit) := by
  refine performs_step s (fun r r' hp => ?_) (h.advances hStarts).moves
  obtain ⟨-, rfl⟩ := h.ok hp
  rfl

theorem performs_expect (ch : Char) :
    Performs limit depth 0 (.step (.expect ch)) (expect ch : Production text Unit) :=
  performs_terminal (.expect ch) (readsTerminal_expect ch) (starts_byte ch)

theorem performs_name : Performs limit depth 0 (.step .name) (name : Production text Unit) :=
  performs_terminal .name readsTerminal_name starts_name

theorem performs_number :
    Performs limit depth 0 (.step .number) (discard number : Production text Unit) :=
  performs_terminal .number readsTerminal_number starts_number

theorem performs_operator :
    Performs limit depth 0 (.step .operator) (operator : Production text Unit) := by
  refine performs_step .operator (fun r r' hp => ?_) moves_operator
  cases hp
  rfl

theorem performs_pass :
    Performs limit depth 0 (.step .pass) (pure () : Production text Unit) := by
  refine performs_step .pass (fun r r' hp => ?_) (moves_pure ())
  cases hp
  rfl

/-- The rounds of a part are not those of whoever calls it. -/
theorem Performs.call {part : Part} (h : Performs limit depth loops (part.routine limit) p) :
    Performs limit depth 0 (.call part) p := by
  intro r hr
  obtain ⟨⟨n, -, hRuns⟩, hOk⟩ := h r hr
  exact ⟨⟨0, Nat.zero_le _, .call hRuns⟩, hOk⟩

theorem Performs.seq (hp : Performs limit depth loops a p) (hq : Performs limit depth loops' b q) :
    Performs limit depth (loops + loops') (.seq a b) (p >>= fun _ => q) := by
  intro r hr
  obtain ⟨⟨n, hn, hRuns⟩, hOk⟩ := hp r hr
  cases hFirst : p r with
  | error e r₁ =>
    rw [hFirst] at hRuns
    rw [bind_eq_error hFirst]
    refine ⟨⟨n, hn.trans (Nat.mul_le_mul_right _ (Nat.le_add_right _ _)), .seqError hRuns⟩, ?_⟩
    intro r' h
    cases h
  | ok u r₁ =>
    obtain ⟨hDepth, hLeft⟩ := hOk r₁ hFirst
    obtain ⟨⟨m, hm, hRuns'⟩, hOk'⟩ := hq r₁ hDepth
    rw [hFirst] at hRuns
    rw [bind_eq_ok hFirst]
    refine ⟨⟨n + m, ?_, .seq hRuns hRuns'⟩, fun r' h => ?_⟩
    · have hm' : m ≤ loops' * (r.left + 1) :=
        hm.trans (Nat.mul_le_mul_left _ (Nat.succ_le_succ hLeft))
      rw [Nat.add_mul]
      exact Nat.add_le_add hn hm'
    · exact ⟨(hOk' r' h).1, (hOk' r' h).2.trans hLeft⟩

/-- A choice by the next byte. -/
theorem Performs.branch {going : Option UInt8 → Bool} (hp : Performs limit depth loops a p)
    (hq : Performs limit depth loops b q) :
    Performs limit depth loops (.branch (fun r => going r.cursor.peek?) a b)
      (peek >>= fun next => if going next then p else q) := by
  intro r hr
  rw [run_peek_bind]
  by_cases hGoing : going r.cursor.peek? = true
  · obtain ⟨⟨n, hn, hRuns⟩, hOk⟩ := hp r hr
    rw [if_pos hGoing]
    exact ⟨⟨n, hn, .yes hGoing hRuns⟩, hOk⟩
  · obtain ⟨⟨n, hn, hRuns⟩, hOk⟩ := hq r hr
    rw [if_neg hGoing]
    exact ⟨⟨n, hn, .no (Bool.eq_false_iff.2 hGoing) hRuns⟩, hOk⟩

/-- **A loop ends** if each of its rounds gets on: every round but the last takes a byte. -/
theorem Performs.loop {going : Option UInt8 → Bool} (h : Performs limit depth 0 a p)
    (hAdvances : Advances p) :
    Performs limit depth 1 (.loop going a) (repeatWhile going p) := by
  intro r hr
  rw [Nat.one_mul]
  induction r using repeatWhile.induct going p with
  | case1 r hGoing r₁ hBody hMoved ih =>
    obtain ⟨⟨n, hn, hRuns⟩, hOk⟩ := h r hr
    obtain ⟨hDepth, hLe⟩ := hOk r₁ hBody
    obtain ⟨⟨m, hm, hRuns'⟩, hOk'⟩ := ih hDepth
    have hLeft := Reader.left_lt hMoved
    rw [hBody] at hRuns
    rw [repeatWhile_of_ok hGoing hBody hMoved]
    refine ⟨⟨n + 1 + m, by omega, .loop (.yes hGoing (.seq (.round hRuns) hRuns'))⟩, ?_⟩
    intro r' hr'
    exact ⟨(hOk' r' hr').1, (hOk' r' hr').2.trans hLe⟩
  | case2 r hGoing r₁ hBody hStayed => exact absurd (hAdvances.ok hBody) hStayed
  | case3 r hGoing e r₁ hBody =>
    obtain ⟨⟨n, hn, hRuns⟩, -⟩ := h r hr
    rw [hBody] at hRuns
    rw [repeatWhile_of_error hGoing hBody]
    refine ⟨⟨n + 1, by omega, .loop (.yes hGoing (.seqError (.round hRuns)))⟩, ?_⟩
    intro r' hr'
    cases hr'
  | case4 r hGoing =>
    rw [repeatWhile_of_stop (Bool.eq_false_iff.2 hGoing)]
    refine ⟨⟨0, Nat.zero_le _, .loop (.no (Bool.eq_false_iff.2 hGoing) .step)⟩, ?_⟩
    intro r' hr'
    cases hr'
    exact ⟨hr, Nat.le_refl _⟩

end

/-! ## Expressions -/

section

variable {nested : Production text Unit}

theorem performs_arguments (h : Performs limit depth 0 (.call .expression) nested)
    (hAdvances : Advances nested) :
    Performs limit depth 1 (Part.routine limit .arguments) (arguments nested) :=
  (performs_expect '(').seq
    ((Performs.loop (h.seq (Performs.branch (performs_expect ',') performs_pass))
      (advances_argument hAdvances)).seq (performs_expect ')'))

/-- A factor may look at the next byte for each of its choices. -/
theorem factor_eq (nested : Production text Unit) :
    factor nested = (do
      if goesOn '(' (← peek) then
        expect '('
        nested
        expect ')'
      else if (← peek).any isLetter then
        name
        if goesOn '(' (← peek) then arguments nested
      else discard number) := by
  funext r
  rw [factor, run_peek_bind, run_peek_bind]
  split
  · rfl
  · rw [run_peek_bind]

theorem performs_factor (h : Performs limit depth 0 (.call .expression) nested)
    (hAdvances : Advances nested) :
    Performs limit depth 0 (Part.routine limit .factor) (factor nested) := by
  rw [factor_eq]
  apply Performs.branch
  · exact (performs_expect '(').seq (h.seq (performs_expect ')'))
  apply Performs.branch
  · exact performs_name.seq (Performs.branch (performs_arguments h hAdvances).call performs_pass)
  · exact performs_number

theorem performs_term (h : Performs limit depth 0 (.call .expression) nested)
    (hAdvances : Advances nested) :
    Performs limit depth 1 (Part.routine limit .term) (term nested) :=
  (performs_factor h hAdvances).call.seq
    (Performs.loop (performs_operator.seq (performs_factor h hAdvances).call)
      (advances_operator_factor hAdvances))

theorem performs_terms (h : Performs limit depth 0 (.call .expression) nested)
    (hAdvances : Advances nested) :
    Performs limit depth 1
      (.seq (.call .term) (.loop (fun next => goesOn '+' next || goesOn '-' next)
        (.seq (.step .operator) (.call .term)))) (terms nested) :=
  (performs_term h hAdvances).call.seq
    (Performs.loop (performs_operator.seq (performs_term h hAdvances).call)
      (advances_operator_term hAdvances))

end

/-- **Expressions come to an end**: each level that is opened leaves fewer of them free. -/
theorem performs_expressionWithin {free : Nat} (h : limit.levels - depth = free) :
    Performs limit depth 1 (Part.routine limit .expression)
      (expressionWithin limit free : Production text Unit) := by
  induction free generalizing depth with
  | zero =>
    intro r hr
    have hFull : decide (r.depth < limit.levels) = false := decide_eq_false (by omega)
    refine ⟨⟨0, Nat.zero_le _, .no hFull .step⟩, fun r' h => ?_⟩
    cases h
  | succ free ih =>
    intro r hr
    have hFree : decide (r.depth < limit.levels) = true := decide_eq_true (by omega)
    have hNested : Performs limit (depth + 1) 0 (.call .expression)
        (expressionWithin limit free : Production text Unit) := (ih (by omega)).call
    have hTerms := performs_terms hNested (advances_expressionWithin limit free)
    have hEntered : enter r = .ok () { r with depth := r.depth + 1 } := rfl
    obtain ⟨⟨n, hn, hRuns⟩, hOk⟩ :=
      hTerms { r with depth := r.depth + 1 } (congrArg (· + 1) hr)
    have hRounds : n ≤ 1 * (r.left + 1) := hn
    rw [expressionWithin, bind_eq_ok hEntered]
    cases hResult : terms (expressionWithin limit free) { r with depth := r.depth + 1 } with
    | error e r₁ =>
      rw [hResult] at hRuns
      rw [bind_eq_error hResult]
      refine ⟨⟨0 + n, by omega, .yes hFree (.seq .step (.seqError hRuns))⟩, fun r' h => ?_⟩
      cases h
    | ok u r₁ =>
      obtain ⟨hDepth, hLeft⟩ := hOk r₁ hResult
      rw [hResult] at hRuns
      rw [bind_eq_ok hResult]
      refine ⟨⟨0 + (n + 0), by omega, .yes hFree (.seq .step (.seq hRuns .step))⟩, ?_⟩
      intro r' h
      cases h
      exact ⟨by simp [hDepth], hLeft⟩

theorem performs_expression :
    Performs limit depth 1 (Part.routine limit .expression)
      (expression limit : Production text Unit) := by
  intro r hr
  rw [expression, hr]
  exact performs_expressionWithin rfl r hr

/-! ## Statements and programs -/

theorem performs_assignment :
    Performs limit depth 0 (Part.routine limit .assignment)
      (assignment limit : Production text Unit) :=
  performs_name.seq ((performs_expect '=').seq performs_expression.call)

/-- The first assignment of a declaration is a round of its own, and takes a byte for it. -/
theorem performs_declaration :
    Performs limit depth 1 (Part.routine limit .declaration)
      (declaration limit : Production text Unit) := by
  intro r hr
  have hLoop : Performs limit depth 1 _ (repeatWhile (goesOn ',')
      (do expect ','; assignment limit : Production text Unit)) :=
    Performs.loop ((performs_expect ',').seq performs_assignment.call)
      (advances_comma_assignment limit)
  obtain ⟨⟨n, hn, hRuns⟩, hOk⟩ := performs_assignment.call r hr
  rw [declaration]
  cases hFirst : assignment limit r with
  | error e r₁ =>
    rw [hFirst] at hRuns
    rw [bind_eq_error hFirst]
    refine ⟨⟨n + 1, by omega, .seqError (.round hRuns)⟩, fun r' h => ?_⟩
    cases h
  | ok u r₁ =>
    obtain ⟨hDepth, hLeft⟩ := hOk r₁ hFirst
    obtain ⟨⟨m, hm, hRuns'⟩, hOk'⟩ := hLoop r₁ hDepth
    have hLess := Reader.left_lt ((advances_assignment limit).ok hFirst)
    rw [hFirst] at hRuns
    rw [bind_eq_ok hFirst]
    refine ⟨⟨n + 1 + m, by omega, .seq (.round hRuns) hRuns'⟩, fun r' h => ?_⟩
    exact ⟨(hOk' r' h).1, (hOk' r' h).2.trans hLeft⟩

theorem performs_clause :
    Performs limit depth 0
      (.branch (fun r => varWord.isPrefixOf r.cursor.rest)
        (.seq (.step .varWord) (.call .declaration))
        (.branch (fun r => r.cursor.peek?.any isLetter) (.call .assignment) (.call .expression)))
      (clause limit : Production text Unit) := by
  intro r hr
  by_cases hVar : varWord.isPrefixOf r.cursor.rest = true
  · have hWord : skipWord varWord r = .ok true { r with cursor := r.cursor.read (.word varWord) } :=
      by rw [run_skipWord, if_pos hVar]
    have hStep : (discard (skipWord varWord) : Production text Unit) r =
        .ok () { r with cursor := r.cursor.read (.word varWord) } := by
      rw [run_discard, hWord]
    have hStart : Reader.left { r with cursor := r.cursor.read (.word varWord) } ≤ r.left :=
      Reader.left_le (moves_read _ _)
    obtain ⟨⟨n, hn, hRuns⟩, hOk⟩ :=
      performs_declaration.call { r with cursor := r.cursor.read (.word varWord) } hr
    rw [clause, bind_eq_ok hWord, if_pos rfl]
    refine ⟨⟨0 + n, by omega, .yes hVar (.seq (hStep ▸ .step) hRuns)⟩, fun r' h => ?_⟩
    exact ⟨(hOk r' h).1, (hOk r' h).2.trans hStart⟩
  · have hWord : skipWord varWord r = .ok false r := by rw [run_skipWord, if_neg hVar]
    have hRest : Performs limit depth 0 _ (do
        if (← peek).any isLetter then assignment limit else expression limit :
          Production text Unit) :=
      Performs.branch performs_assignment.call performs_expression.call
    obtain ⟨⟨n, hn, hRuns⟩, hOk⟩ := hRest r hr
    rw [clause, bind_eq_ok hWord, if_neg Bool.false_ne_true]
    exact ⟨⟨n, hn, .no (Bool.eq_false_iff.2 hVar) hRuns⟩, hOk⟩

theorem performs_statement :
    Performs limit depth 0 (Part.routine limit .statement)
      (statement limit : Production text Unit) :=
  performs_clause.seq (performs_expect ';')

theorem performs_statements :
    Performs limit depth 1 (.loop Option.isSome (.call .statement))
      (repeatWhile Option.isSome (statement limit) : Production text Unit) :=
  performs_statement.call.loop (advances_statement limit)

/-! ## The whole grammar -/

/-- What a part reads. -/
def Part.production (limit : NestingLimit) : Part → Production text Unit
  | program => Grammar.program limit
  | statement => Grammar.statement limit
  | declaration => Grammar.declaration limit
  | assignment => Grammar.assignment limit
  | expression => Grammar.expression limit
  | term => Grammar.term (Grammar.expression limit)
  | factor => Grammar.factor (Grammar.expression limit)
  | arguments => Grammar.arguments (Grammar.expression limit)

theorem Performs.exists_runs {loops : Nat} {routine : Routine text} {p : Production text Unit}
    {r : Reader text} (h : Performs limit r.depth loops routine p) (hLoops : loops ≤ 1) :
    ∃ n ≤ r.left + 1, Runs limit routine r n (p r) := by
  obtain ⟨⟨n, hn, hRuns⟩, -⟩ := h r rfl
  exact ⟨n, hn.trans ((Nat.mul_le_mul_right _ hLoops).trans (Nat.one_mul _).le), hRuns⟩

/-- **Each part of the grammar comes to an end** from every reader, with what its production gives
and no more rounds than bytes are left and one. -/
theorem Part.exists_runs (limit : NestingLimit) (part : Part) (r : Reader text) :
    ∃ n ≤ r.left + 1, Runs limit (part.routine limit) r n (part.production limit r) := by
  have hAdvances : Advances (Grammar.expression limit : Production text Unit) :=
    advances_expression limit
  have hNested : Performs limit r.depth 0 (.call .expression)
      (Grammar.expression limit : Production text Unit) := performs_expression.call
  cases part with
  | program =>
    have hClosed : leaveAll r = .ok () { r with depth := 0 } := rfl
    have hStatements : Performs limit 0 1 _
        (repeatWhile Option.isSome (Grammar.statement limit) : Production text Unit) :=
      performs_statements
    obtain ⟨⟨n, hn, hRuns⟩, -⟩ := hStatements { r with depth := 0 } rfl
    rw [Nat.one_mul] at hn
    refine ⟨0 + n, (Nat.zero_add n).trans_le hn, ?_⟩
    rw [Part.production, run_program]
    exact .seq (hClosed ▸ .step) hRuns
  | statement => exact performs_statement.exists_runs (Nat.zero_le 1)
  | declaration => exact performs_declaration.exists_runs (Nat.le_refl 1)
  | assignment => exact performs_assignment.exists_runs (Nat.zero_le 1)
  | expression => exact performs_expression.exists_runs (Nat.le_refl 1)
  | term => exact (performs_term hNested hAdvances).exists_runs (Nat.le_refl 1)
  | factor => exact (performs_factor hNested hAdvances).exists_runs (Nat.zero_le 1)
  | arguments => exact (performs_arguments hNested hAdvances).exists_runs (Nat.le_refl 1)

theorem advances_number_value : Advances (number : Production text Int64) := by
  intro r
  have h := advances_number r
  rw [run_discard] at h
  cases hr : (number : Production text Int64) r with
  | ok value r' | error e r' =>
    rw [hr] at h
    exact h

/-- **Progress and termination.**  Wherever a reader stands, with whatever levels open, a statement,
an expression, a name and a number that succeed move it on, and none of them moves it back if it
fails.  And each part of the grammar, with its loops and its calls as they are, ends in exactly one
way: with what its production gives, after no more rounds of its own than bytes are left and one. -/
theorem grammar_terminates (limit : NestingLimit) (text : List UInt8) :
    (Advances (statement limit : Production text Unit) ∧
      Advances (expression limit : Production text Unit) ∧
      Advances (name : Production text Unit) ∧ Advances (number : Production text Int64)) ∧
    ∀ (part : Part) (r : Reader text), ∃ n ≤ text.length - r.cursor.position + 1, ∀ m res,
      Runs limit (part.routine limit) r m res ↔ m = n ∧ res = part.production limit r := by
  refine ⟨⟨advances_statement limit, advances_expression limit, advances_name,
    advances_number_value⟩, ?_⟩
  intro part r
  obtain ⟨n, hn, hRuns⟩ := part.exists_runs limit r
  refine ⟨n, hn, fun m res => ⟨hRuns.unique, ?_⟩⟩
  rintro ⟨rfl, rfl⟩
  exact hRuns

end ScriptCheck.Grammar
