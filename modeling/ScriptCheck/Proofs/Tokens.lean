import ScriptCheck.Proofs.Decoding
import ScriptCheck.Proofs.Derivation
import ScriptCheck.Proofs.Discipline

/-!
# Tokens

A name or number is noted where it is read, however deep in a production that is, and the note stays
over failures and over all that is read later without another one.  So whoever looks at it may find
it long after it was written.  This file says what can be found.

* `IsName`, `IsNumber`, `IsTerminal` — stretches of a text that hold a whole name or number, said of
  their bytes.
* `Recognises` — a name or number is recognised while a routine is carried out: one is met that
  succeeds.  That does not look at what is noted.
* `Noted` — a terminal is noted if one was recognised, and otherwise what was noted before.
  `Runs.noted` — **every routine notes what it recognises**, by induction on how it is carried out.
* `Found` — a name or number is recognised in one of several steps from outside.  Each step notes
  what it recognises (`Reader.noted_perform`), and so do all of them (`Reader.noted_performAll`).
* `token_is_terminal` — **the token is a terminal of the text**, from the first that is recognised
  on.
-/

namespace ScriptCheck.Grammar

open Source Production

variable {text : List UInt8} {limit : NestingLimit}

/-! ## Terminals of a text -/

/-- The bytes of the stretch are a name, and no byte of a name follows. -/
structure IsName (text : List UInt8) (s : Span) : Prop where
  bytes_eq : ∃ b w, s.bytes text = b :: w ∧ (Letter b ∨ b = '_'.toUInt8) ∧ ∀ c ∈ w, NameByte c
  longest : ∀ c ∈ text[s.stop]?, ¬ NameByte c

/-- The bytes of the stretch are digits, and no digit follows. -/
structure IsNumber (text : List UInt8) (s : Span) : Prop where
  bytes_ne_nil : s.bytes text ≠ []
  digits : ∀ c ∈ s.bytes text, Digit c
  longest : ∀ c ∈ text[s.stop]?, ¬ Digit c

/-- The stretch is a whole name or number. -/
def IsTerminal (text : List UInt8) (s : Span) : Prop :=
  0 < s.length ∧ (IsName text s ∨ IsNumber text s)

/-- The bytes that are taken as a token, and the byte behind them. -/
theorem token_takeToken_append {c : Cursor text} {w u : List UInt8} (h : c.rest = w ++ u) :
    (c.takeToken w.length).token.length = w.length ∧
      (c.takeToken w.length).token.bytes text = w ∧
      text[(c.takeToken w.length).token.stop]? = u.head? := by
  have hLe : w.length ≤ c.rest.length := by
    rw [h, List.length_append]
    omega
  refine ⟨by rw [Cursor.token_takeToken hLe], ?_, ?_⟩
  · rw [Cursor.bytes_takeToken hLe, h, List.take_left]
  · rw [Cursor.token_takeToken hLe, Span.stop, ← List.head?_drop, ← List.drop_drop, ← c.rest_eq, h,
      List.drop_left]

theorem isTerminal_read_name {c : Cursor text} (h : Terminal.name.Fits c.rest) :
    IsTerminal text (c.read .name).token := by
  obtain ⟨b, hHead, hb⟩ := h
  obtain ⟨s, hs⟩ := List.head?_eq_some_iff.1 hHead
  have hRest : c.rest = b :: s.takeWhile continuesName ++ s.dropWhile continuesName := by
    rw [hs, List.cons_append, List.takeWhile_append_dropWhile]
  have hRead : c.read .name = c.takeToken (b :: s.takeWhile continuesName).length := by
    rw [Cursor.read, hs, nameLength_cons hb, List.length_cons]
  obtain ⟨hLength, hBytes, hNext⟩ := token_takeToken_append hRest
  rw [hRead]
  refine ⟨?_, .inl ⟨⟨b, _, hBytes, startsName_iff.1 hb, ?_⟩, ?_⟩⟩
  · rw [hLength]
    exact Nat.succ_pos _
  · exact fun d hd => continuesName_iff.1 (List.mem_takeWhile_imp hd)
  · rw [hNext]
    exact fun d hd hName => dropWhile_run _ s d hd (continuesName_iff.2 hName)

theorem isTerminal_read_number {c : Cursor text} (h : Terminal.number.Fits c.rest) :
    IsTerminal text (c.read .number).token := by
  have hRest : c.rest = c.rest.takeWhile isDigit ++ c.rest.dropWhile isDigit :=
    List.takeWhile_append_dropWhile.symm
  have hPos : 0 < (c.rest.takeWhile isDigit).length := h.length_pos
  obtain ⟨hLength, hBytes, hNext⟩ := token_takeToken_append hRest
  rw [Cursor.read]
  refine ⟨by rwa [hLength], .inr ⟨?_, ?_, ?_⟩⟩
  · rw [hBytes]
    exact List.length_pos_iff.1 hPos
  · rw [hBytes]
    exact fun d hd => isDigit_iff.1 (List.mem_takeWhile_imp hd)
  · rw [hNext]
    exact fun d hd hDigit => dropWhile_run _ _ d hd (isDigit_iff.2 hDigit)

/-! ## What routines recognise -/

/-- A name or number is recognised while the routine is carried out from the reader: one is met, and
succeeds. -/
def Recognises (limit : NestingLimit) (routine : Routine text) (r : Reader text) : Prop :=
  ∃ p q q', Meets limit routine r p q ∧ p.readsToken = true ∧ p.production q = .ok () q'

section

variable {a b : Routine text} {r r' : Reader text} {n : Nat} {e : SyntaxError}

/-- Routines that meet the same recognise the same. -/
theorem recognises_congr (h : ∀ p q, Meets limit a r p q ↔ Meets limit b r' p q) :
    Recognises limit a r ↔ Recognises limit b r' :=
  exists_congr fun p => exists_congr fun q => exists_congr fun _ => and_congr_left fun _ => h p q

theorem recognises_step {p : Primitive} :
    Recognises limit (.step p) r ↔ p.readsToken = true ∧ ∃ r', p.production r = .ok () r' := by
  constructor
  · rintro ⟨_, _, q', hMeets, hToken, hOk⟩
    obtain ⟨rfl, rfl⟩ := meets_step.1 hMeets
    exact ⟨hToken, q', hOk⟩
  · rintro ⟨hToken, q', hOk⟩
    exact ⟨p, r, q', .step, hToken, hOk⟩

theorem recognises_seq_of_ok (hFirst : Runs limit a r n (.ok () r')) :
    Recognises limit (.seq a b) r ↔ Recognises limit a r ∨ Recognises limit b r' := by
  constructor
  · rintro ⟨p, q, q', hMeets, hOk⟩
    rcases (meets_seq_of_ok hFirst).1 hMeets with h | h
    · exact .inl ⟨p, q, q', h, hOk⟩
    · exact .inr ⟨p, q, q', h, hOk⟩
  · rintro (⟨p, q, q', h, hOk⟩ | ⟨p, q, q', h, hOk⟩)
    · exact ⟨p, q, q', .first h, hOk⟩
    · exact ⟨p, q, q', .second hFirst h, hOk⟩

end

/-! ## What routines note -/

/-- From the first reader to the second a terminal is noted if one was recognised, and nothing
otherwise. -/
structure Noted (recognised : Prop) (r r' : Reader text) : Prop where
  terminal : recognised → IsTerminal text r'.cursor.token
  same : ¬ recognised → r'.cursor.token = r.cursor.token

theorem Noted.trans {P Q : Prop} {r₁ r₂ r₃ : Reader text} (h : Noted P r₁ r₂)
    (h' : Noted Q r₂ r₃) : Noted (P ∨ Q) r₁ r₃ := by
  by_cases hQ : Q
  · exact ⟨fun _ => h'.terminal hQ, fun hNot => absurd (.inr hQ) hNot⟩
  · refine ⟨fun hEither => ?_, fun hNot => ?_⟩
    · rw [h'.same hQ]
      exact h.terminal (hEither.resolve_right hQ)
    · rw [h'.same hQ, h.same fun hP => hNot (.inl hP)]

theorem Noted.congr {P Q : Prop} {r r' : Reader text} (h : Noted P r r') (hPQ : Q ↔ P) :
    Noted Q r r' :=
  ⟨fun hQ => h.terminal (hPQ.1 hQ), fun hQ => h.same (hPQ.not.1 hQ)⟩

theorem ReadsTerminal.error {p : Production text Unit} {t : Terminal}
    {test : Option UInt8 → Bool} {cause : Cause} (h : ReadsTerminal p t test cause)
    {r r' : Reader text} {e : SyntaxError} (hp : p r = .error e r') : r' = r := by
  rw [h r] at hp
  split at hp
  · cases hp
  · cases hp
    rfl

/-- A primitive that finds its name or number notes it. -/
theorem Primitive.isTerminal {p : Primitive} (h : p.readsToken = true) {r r' : Reader text}
    (hp : p.production r = .ok () r') : IsTerminal text r'.cursor.token := by
  obtain ⟨t, rfl | rfl, hFits, rfl⟩ := p.ok_of_readsToken h hp
  · exact isTerminal_read_name hFits
  · exact isTerminal_read_number hFits

/-- A primitive that does not find its name or number changes nothing. -/
theorem Primitive.error_of_readsToken {p : Primitive} (h : p.readsToken = true)
    {r r' : Reader text} {e : SyntaxError} (hp : p.production r = .error e r') : r' = r := by
  cases p with
  | name => exact readsTerminal_name.error hp
  | number => exact readsTerminal_number.error hp
  | _ => cases h

theorem token_skipGap (c : Cursor text) : c.skipGap.token = c.token := c.token_advance _

/-- The other primitives do not touch the token. -/
theorem Primitive.token_eq {p : Primitive} (h : p.readsToken = false) (r : Reader text) :
    (Ending.reader (p.production r)).cursor.token = r.cursor.token := by
  cases p with
  | name | number => cases h
  | expect ch =>
    rw [Primitive.production, readsTerminal_expect ch r]
    split
    · exact (token_skipGap _).trans r.cursor.token_bump
    · rfl
  | varWord =>
    rw [Primitive.production, run_discard, run_skipWord]
    by_cases hWord : Grammar.varWord.isPrefixOf r.cursor.rest = true
    · rw [if_pos hWord]
      exact (token_skipGap _).trans (r.cursor.token_advance _)
    · rw [if_neg hWord]
      rfl
  | operator => exact (token_skipGap _).trans r.cursor.token_bump
  | _ => rfl

/-- A primitive notes what it recognises. -/
theorem Primitive.noted (p : Primitive) (r : Reader text) :
    Noted (Recognises limit (.step p) r) r (Ending.reader (p.production r)) := by
  refine Noted.congr ?_ recognises_step
  cases hToken : p.readsToken with
  | false => exact ⟨fun h => absurd h.1 Bool.false_ne_true, fun _ => p.token_eq hToken r⟩
  | true =>
    cases hRun : p.production r with
    | ok u r' => exact ⟨fun _ => p.isTerminal hToken hRun, fun hNot => absurd ⟨rfl, r', rfl⟩ hNot⟩
    | error e r' =>
      refine ⟨?_, fun _ => ?_⟩
      · rintro ⟨-, _, h⟩
        cases h
      · rw [p.error_of_readsToken hToken hRun]
        rfl

/-- **Every routine notes what it recognises.** -/
theorem Runs.noted {routine : Routine text} {r : Reader text} {n : Nat} {res : Ending text}
    (h : Runs limit routine r n res) :
    Noted (Recognises limit routine r) r (Ending.reader res) := by
  induction h with
  | @step p r => exact p.noted r
  | call _ ih => exact ih.congr (recognises_congr fun _ _ => meets_call)
  | seq hFirst _ ihFirst ihSecond =>
    exact (ihFirst.trans ihSecond).congr (recognises_seq_of_ok hFirst)
  | seqError hFirst ih => exact ih.congr (recognises_congr fun _ _ => meets_seq_of_error hFirst)
  | yes hTest _ ih => exact ih.congr (recognises_congr fun _ _ => meets_branch_of_yes hTest)
  | no hTest _ ih => exact ih.congr (recognises_congr fun _ _ => meets_branch_of_no hTest)
  | round _ ih => exact ih.congr (recognises_congr fun _ _ => meets_round)
  | loop _ ih => exact ih.congr (recognises_congr fun _ _ => meets_loop)

/-! ## Steps from outside -/

/-- Whether the step itself writes the token. -/
def ReadStep.setsToken : ReadStep → Bool
  | scan (.setToken _) => true
  | _ => false

/-- A name or number is recognised in the step.  Steps of the cursor alone recognise none. -/
def ReadStep.Finds (limit : NestingLimit) (r : Reader text) : ReadStep → Prop
  | program => Recognises limit (Part.routine limit .program) r
  | statement => Recognises limit (Part.routine limit .statement) r
  | expression => Recognises limit (Part.routine limit .expression) r
  | name => Recognises limit (.step .name) r
  | number => Recognises limit (.step .number) r
  | scan _ => False

/-- The reader behind steps. -/
def Reader.performAll (limit : NestingLimit) (r : Reader text) (steps : List ReadStep) :
    Reader text :=
  steps.foldl (Reader.perform limit) r

/-- A name or number is recognised in one of the steps. -/
def Found (limit : NestingLimit) (r : Reader text) : List ReadStep → Prop
  | [] => False
  | step :: steps => step.Finds limit r ∨ Found limit (r.perform limit step) steps

theorem Part.noted (limit : NestingLimit) (part : Part) (r : Reader text) :
    Noted (Recognises limit (part.routine limit) r) r ((part.production limit).after r) := by
  obtain ⟨n, -, hRuns⟩ := part.exists_runs limit r
  rw [Production.after_eq]
  exact hRuns.noted

theorem Primitive.noted_after (p : Primitive) (r : Reader text) :
    Noted (Recognises limit (.step p) r) r (Production.after p.production r) := by
  rw [Production.after_eq]
  exact p.noted r

theorem token_scan (c : Cursor text) {step : ScanStep}
    (h : (ReadStep.scan step).setsToken = false) : (c.scan step).token = c.token := by
  cases step with
  | bump => exact c.token_bump
  | skipGap => exact token_skipGap c
  | expect b =>
    rw [Cursor.scan_expect]
    split
    · exact (token_skipGap _).trans c.token_bump
    · rfl
  | skipWord word =>
    rw [Cursor.scan_skipWord]
    split
    · exact (token_skipGap _).trans (c.token_advance _)
    · rfl
  | setToken start => cases h

/-- **Each step notes what it recognises.** -/
theorem Reader.noted_perform (limit : NestingLimit) (r : Reader text) {step : ReadStep}
    (h : step.setsToken = false) : Noted (step.Finds limit r) r (r.perform limit step) := by
  cases step with
  | program => exact Part.noted limit .program r
  | statement => exact Part.noted limit .statement r
  | expression => exact Part.noted limit .expression r
  | name => exact Primitive.name.noted_after r
  | number =>
    rw [Reader.perform, ← after_discard]
    exact Primitive.number.noted_after r
  | scan step => exact ⟨False.elim, fun _ => token_scan r.cursor h⟩

/-- **All steps together note what they recognise.** -/
theorem Reader.noted_performAll (limit : NestingLimit) (r : Reader text) {steps : List ReadStep}
    (h : ∀ step ∈ steps, step.setsToken = false) :
    Noted (Found limit r steps) r (r.performAll limit steps) := by
  induction steps generalizing r with
  | nil => exact ⟨False.elim, fun _ => rfl⟩
  | cons step steps ih =>
    obtain ⟨hStep, hSteps⟩ := List.forall_mem_cons.1 h
    exact (r.noted_perform limit hStep).trans (ih _ hSteps)

theorem ReadStep.allowed_of_setsToken {step : ReadStep} (h : step.setsToken = false)
    (r : Reader text) : step.Allowed r := by
  cases step with
  | scan step =>
    cases step with
    | setToken start => cases h
    | _ => trivial
  | _ => trivial

theorem Reader.Sound.performAll {r : Reader text} (hr : r.Sound limit.levels)
    {steps : List ReadStep} (h : ∀ step ∈ steps, step.setsToken = false) :
    (r.performAll limit steps).Sound limit.levels := by
  induction steps generalizing r with
  | nil => exact hr
  | cons step steps ih =>
    obtain ⟨hStep, hSteps⟩ := List.forall_mem_cons.1 h
    exact ih (hr.perform (ReadStep.allowed_of_setsToken hStep r)) hSteps

/-! ## The token -/

/-- Names and numbers are ASCII. -/
theorem IsTerminal.ascii {s : Span} (h : IsTerminal text s) :
    ∀ b ∈ s.bytes text, b.toNat < 128 := by
  intro b hb
  refine toNat_lt_of_continuesName (continuesName_iff.2 ?_)
  obtain ⟨-, ⟨⟨b₀, w, hBytes, hStart, hMore⟩, -⟩ | hNumber⟩ := h
  · rw [hBytes] at hb
    rcases List.mem_cons.1 hb with rfl | hb
    · exact hStart.imp_right .inr
    · exact hMore b hb
  · exact .inr (.inl (hNumber.digits b hb))

/-- The text of a token that is ASCII is that of its bytes. -/
theorem tokenText_of_ascii {c : Cursor text} (h : ∀ b ∈ c.token.bytes text, b.toNat < 128) :
    Text.Utf8.decode? (c.token.bytes text) = some c.tokenText ∧
      Text.Utf8.encode c.tokenText = c.token.bytes text := by
  obtain ⟨t, hDecode, hEncode⟩ := Text.Utf8.decode?_of_ascii h
  have hText : c.tokenText = t := by rw [Cursor.tokenText, hDecode, Option.getD_some]
  rw [hText]
  exact ⟨hDecode, hEncode⟩

/-- **The token is a terminal of the text.**  Whatever productions and steps of the cursor a reader
has gone through, in whatever order and with whatever failures: as long as no name or number has
been recognised, the token is the empty stretch at the start; from then on it is a whole name or
number of the text, among the bytes passed.  Its text is well formed and has just the bytes of the
stretch.  A name or a number that is not found changes nothing. -/
theorem token_is_terminal (limit : NestingLimit) (text : List UInt8) (steps : List ReadStep)
    (hSteps : ∀ step ∈ steps, step.setsToken = false) :
    let r := (Reader.start text).performAll limit steps
    let token := r.cursor.token
    (¬ Found limit (Reader.start text) steps → token = ⟨0, 0⟩) ∧
    (Found limit (Reader.start text) steps → IsTerminal text token) ∧
    token.stop ≤ r.cursor.position ∧
    Text.Utf8.decode? (token.bytes text) = some r.cursor.tokenText ∧
    Text.Utf8.encode r.cursor.tokenText = token.bytes text ∧
    (∀ e r', Production.name r = .error e r' → r' = r) ∧
    ∀ e r', Production.number r = .error e r' → r' = r := by
  intro r token
  have hNoted : Noted (Found limit (Reader.start text) steps) (Reader.start text) r :=
    (Reader.start text).noted_performAll limit hSteps
  have hStart : (Reader.start text).cursor.token = ⟨0, 0⟩ := token_skipGap _
  have hAscii : ∀ b ∈ token.bytes text, b.toNat < 128 := by
    by_cases hFound : Found limit (Reader.start text) steps
    · exact (hNoted.terminal hFound).ascii
    · -- the stretch at the start has no bytes at all
      have hEmpty : token.bytes text = [] := by
        rw [show token = ⟨0, 0⟩ from (hNoted.same hFound).trans hStart]
        rfl
      rw [hEmpty]
      simp
  obtain ⟨hDecode, hEncode⟩ := tokenText_of_ascii hAscii
  refine ⟨fun hNot => (hNoted.same hNot).trans hStart, hNoted.terminal, ?_, hDecode, hEncode,
    fun e r' h => readsTerminal_name.error h, fun e r' h => ?_⟩
  · exact ((sound_start limit text).performAll hSteps).cursor.token_le
  · have hDiscard : (discard Production.number : Production text Unit) r = .error e r' := by
      rw [run_discard, h]
    exact readsTerminal_number.error hDiscard

/-- `variable=;` fails behind the equals sign, where an expression is missing.  The name that has
been noted by then starts inside the word, behind `var`, and stays over the failures that follow. -/
theorem token_is_terminal_inside_word :
    let text := "variable=;".toUTF8.data.toList
    let steps : List ReadStep := [.program, .number, .scan .bump, .name]
    let r := (Reader.start text).performAll .standard steps
    r.cursor.token = ⟨3, 5⟩ ∧ IsTerminal text r.cursor.token ∧ r.cursor.tokenText = "iable" ∧
      Text.Utf8.encode r.cursor.tokenText = r.cursor.token.bytes text := by
  intro text steps r
  have hToken : r.cursor.token = ⟨3, 5⟩ := by decide +kernel
  obtain ⟨hNone, hSome, -, -, hBytes, -⟩ :=
    token_is_terminal .standard text steps (by decide)
  refine ⟨hToken, hSome ?_, by decide +kernel, hBytes⟩
  by_contra hNot
  exact absurd (hToken.symm.trans (hNone hNot)) (by decide)

end ScriptCheck.Grammar
