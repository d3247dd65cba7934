import ScriptCheck.Proofs.Termination

/-!
# What a run meets

A run meets the primitives of its routines one by one, each from the reader that it has come to.
This file says which these are, and how many levels are open there.

* `Meets` — a primitive is met, and the reader it starts from.  It follows the routine step by step
  and into the parts that are called.
* `Leveled` — what a routine needs of the levels and what it leaves, said of the routine alone: it
  closes only levels of its own, and opens one only behind the test that one is free.  Each part but
  the program is such a routine (`Part.leveled`), whatever levels are its caller's.
* `Act`, `Acts` — what a run does: terminals read where they stand, levels opened below a bound,
  open levels closed.
* `Runs.keeps` — **a run keeps the balance**: if it succeeds, it leaves as many levels as its
  routine says, and if it fails, it has closed none but its own.
* `Meets.ready` — **a level is free wherever one is opened, and one is open wherever one is
  closed.**
-/

namespace ScriptCheck.Grammar

open Source Production

variable {text : List UInt8} {limit : NestingLimit}

/-- The reader with which a routine ends. -/
def Ending.reader : Ending text → Reader text
  | .ok _ r => r
  | .error _ r => r

/-! ## What a run meets -/

/-- `Meets limit routine r p q`: carried out from `r`, the routine comes to the primitive `p` with
the reader `q`. -/
inductive Meets (limit : NestingLimit) :
    Routine text → Reader text → Primitive → Reader text → Prop
  | step {p : Primitive} {r : Reader text} : Meets limit (.step p) r p r
  | call {part : Part} {r q : Reader text} {p : Primitive}
      (h : Meets limit (part.routine limit) r p q) : Meets limit (.call part) r p q
  | first {a b : Routine text} {r q : Reader text} {p : Primitive} (h : Meets limit a r p q) :
      Meets limit (.seq a b) r p q
  | second {a b : Routine text} {r r' q : Reader text} {n : Nat} {p : Primitive}
      (hFirst : Runs limit a r n (.ok () r')) (h : Meets limit b r' p q) :
      Meets limit (.seq a b) r p q
  | yes {test : Reader text → Bool} {a b : Routine text} {r q : Reader text} {p : Primitive}
      (hTest : test r = true) (h : Meets limit a r p q) : Meets limit (.branch test a b) r p q
  | no {test : Reader text → Bool} {a b : Routine text} {r q : Reader text} {p : Primitive}
      (hTest : test r = false) (h : Meets limit b r p q) : Meets limit (.branch test a b) r p q
  | round {a : Routine text} {r q : Reader text} {p : Primitive} (h : Meets limit a r p q) :
      Meets limit (.round a) r p q
  | loop {going : Option UInt8 → Bool} {a : Routine text} {r q : Reader text} {p : Primitive}
      (h : Meets limit (.branch (fun r => going r.cursor.peek?) (.seq (.round a) (.loop going a))
        (.step .pass)) r p q) :
      Meets limit (.loop going a) r p q

section

variable {a b : Routine text} {p : Primitive} {r r' q : Reader text} {n : Nat} {e : SyntaxError}

theorem meets_step {s : Primitive} : Meets limit (.step s) r p q ↔ p = s ∧ q = r := by
  constructor
  · rintro ⟨⟩
    exact ⟨rfl, rfl⟩
  · rintro ⟨rfl, rfl⟩
    exact .step

theorem meets_call {part : Part} :
    Meets limit (.call part) r p q ↔ Meets limit (part.routine limit) r p q :=
  ⟨fun | .call h => h, .call⟩

theorem meets_seq_of_ok (hFirst : Runs limit a r n (.ok () r')) :
    Meets limit (.seq a b) r p q ↔ Meets limit a r p q ∨ Meets limit b r' p q := by
  constructor
  · intro h
    cases h with
    | first h => exact .inl h
    | second hFirst' h =>
      cases (hFirst.unique hFirst').2
      exact .inr h
  · rintro (h | h)
    · exact .first h
    · exact .second hFirst h

theorem meets_seq_of_error (hFirst : Runs limit a r n (.error e r')) :
    Meets limit (.seq a b) r p q ↔ Meets limit a r p q := by
  constructor
  · intro h
    cases h with
    | first h => exact h
    | second hFirst' _ => cases (hFirst.unique hFirst').2
  · exact .first

theorem meets_branch_of_yes {test : Reader text → Bool} (hTest : test r = true) :
    Meets limit (.branch test a b) r p q ↔ Meets limit a r p q := by
  constructor
  · intro h
    cases h with
    | yes _ h => exact h
    | no hTest' _ => exact absurd (hTest.symm.trans hTest') (by decide)
  · exact .yes hTest

theorem meets_branch_of_no {test : Reader text → Bool} (hTest : test r = false) :
    Meets limit (.branch test a b) r p q ↔ Meets limit b r p q := by
  constructor
  · intro h
    cases h with
    | yes hTest' _ => exact absurd (hTest'.symm.trans hTest) (by decide)
    | no _ h => exact h
  · exact .no hTest

theorem meets_round : Meets limit (.round a) r p q ↔ Meets limit a r p q :=
  ⟨fun | .round h => h, .round⟩

theorem meets_loop {going : Option UInt8 → Bool} :
    Meets limit (.loop going a) r p q ↔
      Meets limit (.branch (fun r => going r.cursor.peek?) (.seq (.round a) (.loop going a))
        (.step .pass)) r p q :=
  ⟨fun | .loop h => h, .loop⟩

end

/-! ## The levels of a routine -/

/-- Whether the primitive opens or closes levels. -/
def Primitive.movesLevels : Primitive → Bool
  | leaveAll | enter | leave => true
  | _ => false

/-- Whether the primitive notes a token if it succeeds. -/
def Primitive.readsToken : Primitive → Bool
  | name | number => true
  | _ => false

/-- `Leveled limit free own routine left`: with `own` open levels that it may close, and with
another one below the limit if `free`, the routine closes and opens no other, and leaves `left` of
its own if it succeeds. -/
inductive Leveled (limit : NestingLimit) : Bool → Nat → Routine text → Nat → Prop
  | step {free : Bool} {own : Nat} {p : Primitive} (h : p.movesLevels = false) :
      Leveled limit free own (.step p) own
  | enter {own : Nat} : Leveled limit true own (.step .enter) (own + 1)
  | leave {free : Bool} {own : Nat} : Leveled limit free (own + 1) (.step .leave) own
  | call {free : Bool} {own : Nat} {part : Part} (h : part ≠ .program) :
      Leveled limit free own (.call part) own
  | seq {free : Bool} {own between left : Nat} {a b : Routine text}
      (hFirst : Leveled limit free own a between) (hSecond : Leveled limit false between b left) :
      Leveled limit free own (.seq a b) left
  | branch {free : Bool} {own left : Nat} {test : Reader text → Bool} {a b : Routine text}
      (hYes : Leveled limit free own a left) (hNo : Leveled limit free own b left) :
      Leveled limit free own (.branch test a b) left
  /-- Where the test is passed, a level is free. -/
  | guarded {free : Bool} {own left : Nat} {a b : Routine text}
      (hYes : Leveled limit true own a left) (hNo : Leveled limit free own b left) :
      Leveled limit free own (.branch (fun r => r.depth < limit.levels) a b) left
  | round {free : Bool} {own left : Nat} {a : Routine text} (h : Leveled limit free own a left) :
      Leveled limit free own (.round a) left
  | loop {free : Bool} {own : Nat} {going : Option UInt8 → Bool} {a : Routine text}
      (h : Leveled limit false own a own) : Leveled limit free own (.loop going a) own

theorem leveled_terms (own : Nat) :
    Leveled limit false own
      (.seq (.call .term) (.loop (fun next => goesOn '+' next || goesOn '-' next)
        (.seq (.step .operator) (.call .term))) : Routine text) own :=
  .seq (.call nofun) (.loop (.seq (.step rfl) (.call nofun)))

/-- **Each part but the program closes only levels that it has opened**, and opens one only where
it is free. -/
theorem Part.leveled {part : Part} (h : part ≠ .program) (own : Nat) :
    Leveled limit false own (part.routine limit : Routine text) own := by
  cases part with
  | program => exact absurd rfl h
  | statement =>
    exact .seq (.branch (.seq (.step rfl) (.call nofun)) (.branch (.call nofun) (.call nofun)))
      (.step rfl)
  | declaration => exact .seq (.round (.call nofun)) (.loop (.seq (.step rfl) (.call nofun)))
  | assignment => exact .seq (.step rfl) (.seq (.step rfl) (.call nofun))
  | expression =>
    -- the level that is opened is the part's own until it is closed
    exact .guarded (.seq .enter (.seq (leveled_terms (own + 1)) .leave)) (.step rfl)
  | term => exact .seq (.call nofun) (.loop (.seq (.step rfl) (.call nofun)))
  | factor =>
    exact .branch (.seq (.step rfl) (.seq (.call nofun) (.step rfl)))
      (.branch (.seq (.step rfl) (.branch (.call nofun) (.step rfl))) (.step rfl))
  | arguments =>
    exact .seq (.step rfl)
      (.seq (.loop (.seq (.call nofun) (.branch (.step rfl) (.step rfl)))) (.step rfl))

/-! ## Acts -/

variable {most own between left : Nat}

/-- What a primitive does in one go, where at most `most` levels may be open. -/
inductive Act (most : Nat) : Reader text → Reader text → Prop
  /-- A terminal is read: any byte, but a word, a name or a number only where it stands. -/
  | read {r : Reader text} {t : Terminal} (h : t = .byte ∨ t.Fits r.cursor.rest) :
      Act most r { r with cursor := r.cursor.read t }
  /-- A level is opened, if one is free. -/
  | enter {r : Reader text} (h : r.depth < most) : Act most r { r with depth := r.depth + 1 }
  /-- A level is closed, if one is open. -/
  | leave {r : Reader text} (h : 0 < r.depth) : Act most r { r with depth := r.depth - 1 }

/-- Any number of acts. -/
abbrev Acts (most : Nat) : Reader text → Reader text → Prop := Relation.ReflTransGen (Act most)

/-- From `r` the result is arrived at by acts.  A success leaves `left` levels in the place of
`own`; a failure has closed no others than these, and its error is built where it happened. -/
def Keeps (most own left : Nat) (r : Reader text) : Ending text → Prop
  | .ok _ r' => Acts most r r' ∧ r'.depth + own = r.depth + left
  | .error e r' => Acts most r r' ∧ r.depth ≤ r'.depth + own ∧ ∃ cause, e = r'.cursor.error cause

theorem Keeps.acts {r : Reader text} {res : Ending text} (h : Keeps most own left r res) :
    Acts most r res.reader := by
  cases res with
  | ok u r' => exact h.1
  | error e r' => exact h.1

theorem Keeps.head {r r' : Reader text} {res : Ending text} {u : Unit}
    (hFirst : Keeps most own between r (.ok u r')) (h : Keeps most between left r' res) :
    Keeps most own left r res := by
  obtain ⟨hActs, hDepth⟩ := hFirst
  cases res with
  | ok u r'' =>
    obtain ⟨hActs', hDepth'⟩ := h
    exact ⟨hActs.trans hActs', by omega⟩
  | error e r'' =>
    obtain ⟨hActs', hDepth', hError⟩ := h
    exact ⟨hActs.trans hActs', by omega, hError⟩

/-! ### Primitives -/

theorem ReadsTerminal.keeps {p : Production text Unit} {t : Terminal}
    {test : Option UInt8 → Bool} {cause : Cause} (h : ReadsTerminal p t test cause)
    (hStarts : Starts t test) (r : Reader text) : Keeps most own own r (p r) := by
  rw [h r]
  by_cases hTest : test r.cursor.peek? = true
  · rw [if_pos hTest]
    exact ⟨.single (.read (.inr (hStarts _ hTest))), rfl⟩
  · rw [if_neg hTest]
    exact ⟨.refl, Nat.le_add_right _ _, cause, rfl⟩

theorem keeps_varWord (r : Reader text) :
    Keeps most own own r (Primitive.varWord.production r) := by
  rw [Primitive.production, run_discard, run_skipWord]
  by_cases h : varWord.isPrefixOf r.cursor.rest = true
  · rw [if_pos h]
    exact ⟨.single (.read (.inr ⟨by decide, List.isPrefixOf_iff_prefix.1 h⟩)), rfl⟩
  · rw [if_neg h]
    exact ⟨.refl, rfl⟩

/-- **A primitive that moves no levels** leaves them as they are. -/
theorem Primitive.keeps {p : Primitive} (h : p.movesLevels = false) (r : Reader text) :
    Keeps most own own r (p.production r) := by
  cases p with
  | leaveAll | enter | leave => cases h
  | name => exact readsTerminal_name.keeps starts_name r
  | number => exact readsTerminal_number.keeps starts_number r
  | operator => exact ⟨.single (.read (r := r) (t := .byte) (.inl rfl)), rfl⟩
  | expect ch => exact (readsTerminal_expect ch).keeps (starts_byte ch) r
  | varWord => exact keeps_varWord r
  | pass => exact ⟨.refl, rfl⟩
  | fail cause => exact ⟨.refl, Nat.le_add_right _ _, cause, rfl⟩

theorem leave_of_pos {r : Reader text} (h : 0 < r.depth) :
    leave r = .ok () { r with depth := r.depth - 1 } := by
  obtain ⟨n, hDepth⟩ := Nat.exists_eq_succ_of_ne_zero (Nat.ne_of_gt h)
  rw [leave, hDepth]
  rfl

/-! ### Runs -/

/-- The reader has `own` open levels and, if `free`, another one below the limit. -/
structure Reader.Ready (limit : NestingLimit) (free : Bool) (own : Nat) (r : Reader text) :
    Prop where
  own_le : own ≤ r.depth
  lt_limit : free = true → r.depth < limit.levels

theorem Reader.ready_of_le {r : Reader text} (h : own ≤ r.depth) : r.Ready limit false own :=
  ⟨h, nofun⟩

/-- The routine by which a loop goes on is leveled like the loop. -/
theorem Leveled.unfold {going : Option UInt8 → Bool} {a : Routine text}
    (h : Leveled limit false own a own) :
    Leveled limit false own (.branch (fun r => going r.cursor.peek?)
      (.seq (.round a) (.loop going a)) (.step .pass)) own :=
  .branch (.seq (.round h) (.loop h)) (.step rfl)

/-- **A run keeps the balance.**  The induction is on how the routine is carried out; the levels
that a part may close are none of its caller's. -/
theorem Runs.keeps {routine : Routine text} {r : Reader text} {n : Nat} {res : Ending text}
    (h : Runs limit routine r n res) {free : Bool} (hLeveled : Leveled limit free own routine left)
    (hr : r.Ready limit free own) : Keeps limit.levels own left r res := by
  induction h generalizing free own left with
  | @step p r =>
    cases hLeveled with
    | step hSteady => exact Primitive.keeps hSteady r
    | enter => exact ⟨.single (.enter (hr.lt_limit rfl)), Nat.add_right_comm _ _ _⟩
    | leave =>
      have hOpen : left < r.depth := hr.own_le
      rw [Primitive.production, leave_of_pos (Nat.zero_lt_of_lt hOpen)]
      exact ⟨.single (.leave (Nat.zero_lt_of_lt hOpen)), by simp only; omega⟩
  | call _ ih =>
    cases hLeveled with
    | call hPart => exact ih (Part.leveled hPart _) (Reader.ready_of_le hr.own_le)
  | seq _ _ ihFirst ihSecond =>
    cases hLeveled with
    | seq hFirst hSecond =>
      have hKeeps := ihFirst hFirst hr
      have hDepth := hKeeps.2
      have hOwn := hr.own_le
      exact hKeeps.head (ihSecond hSecond (Reader.ready_of_le (by omega)))
  | seqError _ ih =>
    cases hLeveled with
    | seq hFirst _ => exact (ih hFirst hr :)
  | yes hTest _ ih =>
    cases hLeveled with
    | branch hYes _ => exact ih hYes hr
    | guarded hYes _ => exact ih hYes ⟨hr.own_le, fun _ => of_decide_eq_true hTest⟩
  | no _ _ ih =>
    cases hLeveled with
    | branch _ hNo => exact ih hNo hr
    | guarded _ hNo => exact ih hNo hr
  | round _ ih =>
    cases hLeveled with
    | round hBody => exact ih hBody hr
  | loop _ ih =>
    cases hLeveled with
    | loop hBody => exact ih hBody.unfold (Reader.ready_of_le hr.own_le)

/-- What the primitive needs of the levels: a free one to open, or an open one to close. -/
structure Primitive.Ready (limit : NestingLimit) (p : Primitive) (q : Reader text) : Prop where
  enter : p = .enter → q.depth < limit.levels
  leave : p = .leave → 0 < q.depth

theorem Primitive.ready_of_steady {p : Primitive} (h : p.movesLevels = false) (q : Reader text) :
    p.Ready limit q := by
  constructor
  · rintro rfl
    cases h
  · rintro rfl
    cases h

/-- **Wherever a level is opened one is free, and wherever one is closed one is open**; and acts
lead there. -/
theorem Meets.ready {routine : Routine text} {r q : Reader text} {p : Primitive}
    (h : Meets limit routine r p q) {free : Bool} (hLeveled : Leveled limit free own routine left)
    (hr : r.Ready limit free own) : Acts limit.levels r q ∧ p.Ready limit q := by
  induction h generalizing free own left with
  | @step p r =>
    refine ⟨.refl, ?_⟩
    cases hLeveled with
    | step hSteady => exact Primitive.ready_of_steady hSteady r
    | enter => exact ⟨fun _ => hr.lt_limit rfl, nofun⟩
    | leave => exact ⟨nofun, fun _ => Nat.zero_lt_of_lt hr.own_le⟩
  | call _ ih =>
    cases hLeveled with
    | call hPart => exact ih (Part.leveled hPart _) (Reader.ready_of_le hr.own_le)
  | first _ ih =>
    cases hLeveled with
    | seq hFirst _ => exact ih hFirst hr
  | second hRuns _ ih =>
    cases hLeveled with
    | seq hFirst hSecond =>
      obtain ⟨hActs, hDepth⟩ := hRuns.keeps hFirst hr
      have hOwn := hr.own_le
      obtain ⟨hActs', hReady⟩ := ih hSecond (Reader.ready_of_le (by omega))
      exact ⟨hActs.trans hActs', hReady⟩
  | yes hTest _ ih =>
    cases hLeveled with
    | branch hYes _ => exact ih hYes hr
    | guarded hYes _ => exact ih hYes ⟨hr.own_le, fun _ => of_decide_eq_true hTest⟩
  | no _ _ ih =>
    cases hLeveled with
    | branch _ hNo => exact ih hNo hr
    | guarded _ hNo => exact ih hNo hr
  | round _ ih =>
    cases hLeveled with
    | round hBody => exact ih hBody hr
  | loop _ ih =>
    cases hLeveled with
    | loop hBody => exact ih hBody.unfold (Reader.ready_of_le hr.own_le)

/-! ### Parts -/

/-- An expression that succeeds meets the closing of the level that it has opened. -/
theorem meets_leave {r r' : Reader text} (h : expression limit r = .ok () r') :
    ∃ q, Meets limit (Part.routine limit .expression) r .leave q ∧ q.depth = r.depth + 1 := by
  obtain ⟨n, -, hRuns⟩ := Part.exists_runs limit .expression r
  rw [show Part.production limit .expression r = .ok () r' from h] at hRuns
  cases hRuns with
  | no _ hFull => cases hFull
  | yes hTest hInside =>
    cases hInside with
    | seq hEnter hBody =>
      cases hEnter
      cases hBody with
      | @seq _ _ _ q _ _ _ hTerms _ =>
        refine ⟨q, .yes hTest (.second .step (.second hTerms .step)), ?_⟩
        have hKeeps := hTerms.keeps (leveled_terms 1) (Reader.ready_of_le (Nat.le_add_left _ _))
        exact Nat.add_right_cancel hKeeps.2

/-- The reader from which a part is read: a program closes all levels beforehand. -/
def Part.entry : Part → Reader text → Reader text
  | program, r => { r with depth := 0 }
  | _, r => r

theorem leveled_statements :
    Leveled limit false 0 (.loop Option.isSome (.call .statement) : Routine text) 0 :=
  .loop (.call nofun)

/-- **Each part keeps its levels**, and a program those that are left when it has closed all. -/
theorem Part.keeps (limit : NestingLimit) (part : Part) (r : Reader text) :
    Keeps limit.levels 0 0 (part.entry r) (part.production limit r) := by
  obtain ⟨n, -, hRuns⟩ := part.exists_runs limit r
  generalize part.production limit r = res at hRuns
  by_cases hPart : part = .program
  · subst hPart
    cases hRuns with
    | seq hFirst hSecond =>
      cases hFirst
      exact hSecond.keeps leveled_statements (Reader.ready_of_le (Nat.zero_le _))
    | seqError hFirst => cases hFirst
  · have hEntry : part.entry r = r := by
      cases part <;> first | rfl | exact absurd rfl hPart
    rw [hEntry]
    exact hRuns.keeps (Part.leveled hPart 0) (Reader.ready_of_le (Nat.zero_le _))

/-- What is met in a part is ready for it.  Acts lead there, but for the closing of all levels that
a program begins with. -/
theorem Part.ready {part : Part} {r q : Reader text} {p : Primitive}
    (h : Meets limit (part.routine limit) r p q) :
    (q = r ∨ Acts limit.levels (part.entry r) q) ∧ p.Ready limit q := by
  by_cases hPart : part = .program
  · subst hPart
    cases h with
    | first h =>
      cases h
      exact ⟨.inl rfl, nofun, nofun⟩
    | second hFirst h =>
      cases hFirst
      exact (h.ready leveled_statements (Reader.ready_of_le (Nat.zero_le _))).imp_left .inr
  · have hEntry : part.entry r = r := by
      cases part <;> first | rfl | exact absurd rfl hPart
    rw [hEntry]
    exact (h.ready (Part.leveled hPart 0) (Reader.ready_of_le (Nat.zero_le _))).imp_left .inr

end ScriptCheck.Grammar
