import ScriptCheck.Proofs.Levels
import ScriptCheck.Proofs.Scanning

/-!
# Levels and ranges

A production that fails leaves its levels open, and whatever is read next starts from there.  So the
number of open levels is balanced only by what succeeds.  This file says what holds all the same,
for productions and steps of the cursor in any order.

* `Reader.Sound` — the limit is kept and the cursor is sound; acts keep that (`Acts.sound`).
* `ReadStep`, `Reads` — steps from outside, and any number of them.  They keep a reader sound
  (`Reads.sound`), whether they succeed or fail.
* `Cursor.InRange`, `PrimitiveInRange` — nothing is taken from less than it, and no place lies
  behind the text.  That holds of every primitive that starts from a sound reader which is ready for
  it (`Reader.Sound.inRange`), and so of all that is met in a part of the grammar
  (`Reader.Sound.inRange_of_meets`).
* `reader_levels_disciplined` — **levels and ranges are kept**, whatever is read in whatever order.
-/

namespace ScriptCheck.Source

variable {text : List UInt8}

theorem Cursor.Sound.read {c : Cursor text} (h : c.Sound) (t : Terminal) : (c.read t).Sound := by
  have hToken : ∀ n, (c.takeToken n).Sound :=
    fun n => ((h.advance n).setToken (Cursor.position_le_advance n c)).skipGap
  cases t with
  | byte => exact h.bump.skipGap
  | word bytes => exact (h.advance _).skipGap
  | name => exact hToken _
  | number => exact hToken _

/-- No number that a cursor computes is taken from a smaller one, and no stretch of the text that it
takes ends behind the text. -/
structure Cursor.InRange (c : Cursor text) : Prop where
  /-- The bytes that follow start inside the text. -/
  position_le : c.position ≤ text.length
  /-- The column counts from a place that is not behind the cursor. -/
  lineStart_le : c.lineStart ≤ c.position
  /-- The token ends inside the text. -/
  token_le : c.token.stop ≤ text.length

theorem Cursor.Sound.inRange {c : Cursor text} (h : c.Sound) : c.InRange :=
  ⟨c.position_le, h.lineStart_le, h.token_le.trans c.position_le⟩

/-- A digit is at least the digit zero. -/
theorem zero_le_of_isDigit {d : UInt8} (h : isDigit d = true) : '0'.toNat ≤ d.toNat := by
  have hClass : ByteClass.of d = .digit := beq_iff_eq.1 h
  unfold ByteClass.of at hClass
  split at hClass
  · rename_i hRange
    exact UInt8.le_iff_toNat_le.1 hRange.1
  · repeat' split at hClass
    all_goals cases hClass

end ScriptCheck.Source

namespace ScriptCheck.Grammar

open Source Production

variable {text : List UInt8} {α : Type} {most : Nat}

/-! ## Sound readers -/

/-- At most `most` levels are open, and the cursor is sound. -/
structure Reader.Sound (most : Nat) (r : Reader text) : Prop where
  depth_le : r.depth ≤ most
  cursor : r.cursor.Sound

theorem Act.sound {r r' : Reader text} (h : Act most r r') (hr : r.Sound most) :
    r'.Sound most := by
  cases h with
  | read _ => exact ⟨hr.depth_le, hr.cursor.read _⟩
  | enter h => exact ⟨h, hr.cursor⟩
  | leave _ => exact ⟨(Nat.sub_le _ _).trans hr.depth_le, hr.cursor⟩

/-- **Acts keep the limit.** -/
theorem Acts.sound {r r' : Reader text} (h : Acts most r r') (hr : r.Sound most) :
    r'.Sound most := by
  induction h with
  | refl => exact hr
  | tail _ hAct ih => exact hAct.sound ih

theorem sound_start (limit : NestingLimit) (text : List UInt8) :
    (Reader.start text).Sound limit.levels :=
  ⟨Nat.zero_le _, (Cursor.sound_start text).skipGap⟩

theorem Reader.Sound.entry {r : Reader text} (h : r.Sound most) (part : Part) :
    (part.entry r).Sound most := by
  cases part with
  | program => exact ⟨Nat.zero_le _, h.cursor⟩
  | _ => exact h

/-! ## Steps from outside -/

/-- A step of whoever holds a reader. -/
inductive ReadStep where
  | program
  | statement
  | expression
  | name
  | number
  /-- A step of the cursor alone. -/
  | scan (step : ScanStep)

/-- Whether the step may be made. -/
def ReadStep.Allowed (r : Reader text) : ReadStep → Prop
  | scan step => step.Allowed r.cursor
  | _ => True

/-- The reader behind a production, whether it succeeds or fails. -/
def Production.after (p : Production text α) (r : Reader text) : Reader text :=
  match p r with
  | .ok _ r' => r'
  | .error _ r' => r'

/-- The reader behind a step. -/
def Reader.perform (limit : NestingLimit) (r : Reader text) : ReadStep → Reader text
  | .program => (Grammar.program limit).after r
  | .statement => (Grammar.statement limit).after r
  | .expression => (Grammar.expression limit).after r
  | .name => Production.name.after r
  | .number => Production.number.after r
  | .scan step => { r with cursor := r.cursor.scan step }

/-- One step that may be made leads from `r` to `r'`. -/
def Read (limit : NestingLimit) (r r' : Reader text) : Prop :=
  ∃ step : ReadStep, step.Allowed r ∧ r.perform limit step = r'

/-- Any number of steps. -/
abbrev Reads (limit : NestingLimit) : Reader text → Reader text → Prop :=
  Relation.ReflTransGen (Read limit)

theorem after_discard (p : Production text α) (r : Reader text) :
    Production.after (discard p) r = p.after r := by
  unfold Production.after
  rw [run_discard]
  cases p r <;> rfl

theorem Production.after_eq (p : Production text Unit) (r : Reader text) :
    p.after r = Ending.reader (p r) := by
  unfold Production.after
  cases p r <;> rfl

theorem Part.sound_after {limit : NestingLimit} {r : Reader text} (h : r.Sound limit.levels)
    (part : Part) : ((part.production limit).after r).Sound limit.levels := by
  rw [Production.after_eq]
  exact (part.keeps limit r).acts.sound (h.entry part)

/-- **A primitive that is ready keeps a reader sound.** -/
theorem Primitive.sound_after {limit : NestingLimit} {p : Primitive} {q : Reader text}
    (hReady : p.Ready limit q) (hq : q.Sound limit.levels) :
    (Production.after p.production q).Sound limit.levels := by
  rw [Production.after_eq]
  cases hMoves : p.movesLevels with
  | false =>
    have hKeeps : Keeps limit.levels 0 0 q (p.production q) := p.keeps hMoves q
    exact hKeeps.acts.sound hq
  | true =>
    cases p with
    | leaveAll => exact ⟨Nat.zero_le _, hq.cursor⟩
    | enter => exact ⟨hReady.enter rfl, hq.cursor⟩
    | leave =>
      rw [Primitive.production, leave_of_pos (hReady.leave rfl)]
      exact ⟨(Nat.sub_le _ _).trans hq.depth_le, hq.cursor⟩
    | _ => cases hMoves

/-- **One step keeps the limit**, also one that fails. -/
theorem Reader.Sound.perform {limit : NestingLimit} {r : Reader text} (h : r.Sound limit.levels)
    {step : ReadStep} (hAllowed : step.Allowed r) : (r.perform limit step).Sound limit.levels := by
  cases step with
  | program => exact Part.sound_after h .program
  | statement => exact Part.sound_after h .statement
  | expression => exact Part.sound_after h .expression
  | name => exact Primitive.sound_after (Primitive.ready_of_steady (p := .name) rfl r) h
  | number =>
    rw [Reader.perform, ← after_discard]
    exact Primitive.sound_after (Primitive.ready_of_steady (p := .number) rfl r) h
  | scan step => exact ⟨h.depth_le, h.cursor.scan hAllowed⟩

/-- **Any number of steps keeps the limit.** -/
theorem Reads.sound {limit : NestingLimit} {r r' : Reader text} (h : Reads limit r r')
    (hr : r.Sound limit.levels) : r'.Sound limit.levels := by
  induction h with
  | refl => exact hr
  | tail _ hRead ih =>
    obtain ⟨step, hAllowed, rfl⟩ := hRead
    exact ih.perform hAllowed

/-! ## Ranges -/

/-- A name or number is noted from where it starts. -/
theorem token_read {c : Cursor text} {t : Terminal} (h : t = .name ∨ t = .number)
    (hFits : t.Fits c.rest) : (c.read t).token = ⟨c.position, t.length c.rest⟩ := by
  rcases h with rfl | rfl
  · exact Cursor.token_takeToken hFits.length_le
  · exact Cursor.token_takeToken hFits.length_le

/-- A primitive that notes a token has read a name or a number. -/
theorem Primitive.ok_of_readsToken {p : Primitive} (h : p.readsToken = true) {r r' : Reader text}
    (hp : p.production r = .ok () r') :
    ∃ t : Terminal, (t = .name ∨ t = .number) ∧ t.Fits r.cursor.rest ∧
      r' = { r with cursor := r.cursor.read t } := by
  cases p with
  | name =>
    obtain ⟨hTest, rfl⟩ := readsTerminal_name.ok hp
    exact ⟨.name, .inl rfl, starts_name _ hTest, rfl⟩
  | number =>
    obtain ⟨hTest, rfl⟩ := readsTerminal_number.ok hp
    exact ⟨.number, .inr rfl, starts_number _ hTest, rfl⟩
  | _ => cases h

/-- Started from `q`, the primitive keeps the limit, takes nothing from less than it, and takes no
stretch of the text that ends behind the text. -/
structure PrimitiveInRange (limit : NestingLimit) (p : Primitive) (q : Reader text) : Prop where
  depth_le : q.depth ≤ limit.levels
  depth_after_le : (Production.after p.production q).depth ≤ limit.levels
  /-- A level is opened only below the limit. -/
  enter : p = .enter → q.depth < limit.levels
  /-- A level is closed only where one is open. -/
  leave : p = .leave → 0 < q.depth
  /-- Wherever it gets on the way, the cursor is in range. -/
  cursor : ∀ n, (q.cursor.advance n).InRange
  /-- A name or number is noted from where it starts to a place behind. -/
  token : p.readsToken = true → ∀ q', p.production q = .ok () q' →
    q'.cursor.token.start = q.cursor.position ∧ q.cursor.position < q'.cursor.token.stop ∧
      q'.cursor.token.stop ≤ q'.cursor.position
  /-- A digit counts from the digit zero. -/
  digits : p = .number → ∀ d ∈ q.cursor.rest.takeWhile isDigit, '0'.toNat ≤ d.toNat

/-- **A primitive that is ready stays in range.** -/
theorem Reader.Sound.inRange {limit : NestingLimit} {p : Primitive} {q : Reader text}
    (hq : q.Sound limit.levels) (hReady : p.Ready limit q) : PrimitiveInRange limit p q where
  depth_le := hq.depth_le
  depth_after_le := (Primitive.sound_after hReady hq).depth_le
  enter := hReady.enter
  leave := hReady.leave
  cursor n := (hq.cursor.advance n).inRange
  token hToken q' hOk := by
    obtain ⟨t, ht, hFits, rfl⟩ := Primitive.ok_of_readsToken hToken hOk
    refine ⟨by rw [token_read ht hFits], ?_, (hq.cursor.read t).token_le⟩
    rw [token_read ht hFits]
    exact Nat.lt_add_of_pos_right hFits.length_pos
  digits _ d hd := zero_le_of_isDigit (List.mem_takeWhile_imp hd)

/-- All that is met in a part is in range. -/
theorem Reader.Sound.inRange_of_meets {limit : NestingLimit} {r q : Reader text} {p : Primitive}
    {part : Part} (hr : r.Sound limit.levels) (h : Meets limit (part.routine limit) r p q) :
    PrimitiveInRange limit p q := by
  obtain ⟨rfl | hActs, hReady⟩ := Part.ready h
  · exact hr.inRange hReady
  · exact (hActs.sound (hr.entry part)).inRange hReady

/-! ## What is kept -/

/-- A program that is read to its end leaves no level open. -/
theorem program_ok {limit : NestingLimit} {r r' : Reader text} (h : program limit r = .ok () r') :
    r'.depth = 0 ∧ r'.cursor.position = text.length := by
  rw [run_program] at h
  obtain ⟨hDepth, hEnd, -⟩ := leads_statements.ok rfl trivial h
  have hLength := r'.cursor.position_add_length_rest
  rw [hEnd] at hLength
  exact ⟨hDepth, hLength⟩

/-- **Levels and ranges are kept.**  Let any productions and steps of the cursor have led to `r`,
whether they have succeeded or failed.  Then no more levels are open than the limit has, which are
512 at most, and every place is in range.  Each part of the grammar that is read from there is
carried out by its routine, and all that this meets is in range: a level is closed only where one is
open, and opened only below the limit.  A name or a number that is read by itself is in range too.
A statement or an expression leaves the levels as they are if it succeeds, and if it fails no fewer,
up to the limit.  A program that is read to its end leaves none. -/
theorem reader_levels_disciplined {limit : NestingLimit} {r : Reader text}
    (h : Reads limit (.start text) r) :
    (r.depth ≤ limit.levels ∧ limit.levels ≤ 512 ∧ ∀ n, (r.cursor.advance n).InRange) ∧
    (∀ part : Part, (∃ n, Runs limit (part.routine limit) r n (part.production limit r)) ∧
      ∀ p q, Meets limit (part.routine limit) r p q → PrimitiveInRange limit p q) ∧
    (∀ p ∈ [Primitive.name, Primitive.number], PrimitiveInRange limit p r) ∧
    (∀ p ∈ [statement limit, expression limit],
      match p r with
      | .ok _ r' => r'.depth = r.depth
      | .error _ r' => r.depth ≤ r'.depth ∧ r'.depth ≤ limit.levels) ∧
    ∀ r', program limit r = .ok () r' → r'.depth = 0 ∧ r'.cursor.position = text.length := by
  have hr : r.Sound limit.levels := Reads.sound h (sound_start limit text)
  have hPart : ∀ part : Part,
      (∃ n, Runs limit (part.routine limit) r n (part.production limit r)) ∧
        ∀ p q, Meets limit (part.routine limit) r p q → PrimitiveInRange limit p q := by
    intro part
    obtain ⟨n, -, hRuns⟩ := part.exists_runs limit r
    exact ⟨⟨n, hRuns⟩, fun p q => hr.inRange_of_meets⟩
  have hToken : ∀ p ∈ [Primitive.name, Primitive.number], PrimitiveInRange limit p r := by
    intro p hp
    simp only [List.mem_cons, List.not_mem_nil, or_false] at hp
    rcases hp with rfl | rfl
    · exact hr.inRange (Primitive.ready_of_steady rfl r)
    · exact hr.inRange (Primitive.ready_of_steady rfl r)
  refine ⟨⟨hr.depth_le, limit.levels_le, fun n => (hr.cursor.advance n).inRange⟩, hPart, hToken,
    ?_, fun r' => program_ok⟩
  intro p hp
  have hKeeps : Keeps limit.levels 0 0 r (p r) := by
    simp only [List.mem_cons, List.not_mem_nil, or_false] at hp
    rcases hp with rfl | rfl
    · exact Part.keeps limit .statement r
    · exact Part.keeps limit .expression r
  cases hRun : p r with
  | ok u r' =>
    rw [hRun] at hKeeps
    exact hKeeps.2
  | error e r' =>
    rw [hRun] at hKeeps
    exact ⟨hKeeps.2.1, (hKeeps.1.sound hr).depth_le⟩

/-- `((1;` fails under a limit of three with two levels open.  The expression that is tried from
behind the semicolon opens the last one, closes it again and leaves these two. -/
theorem reader_levels_disciplined_leaked :
    let text := "((1;2".toUTF8.data.toList
    let r := ((Reader.start text).perform (.clamp 3) .program).perform (.clamp 3) (.scan .bump)
    r.depth = 2 ∧ ∃ q r', Meets (.clamp 3) (Part.routine (.clamp 3) .expression) r .leave q ∧
      0 < q.depth ∧ q.depth = 3 ∧ expression (.clamp 3) r = .ok () r' ∧ r'.depth = 2 := by
  intro text r
  have hReads : Reads (.clamp 3) (.start text) r :=
    .tail (.single ⟨.program, trivial, rfl⟩) ⟨.scan .bump, trivial, rfl⟩
  obtain ⟨-, hParts, -, hExpression, -⟩ := reader_levels_disciplined hReads
  have hDepth : r.depth = 2 := by decide +kernel
  cases hRun : expression (.clamp 3) r with
  | error e r' =>
    have hOk : (match expression (.clamp 3) r with
        | .ok _ _ => true
        | .error _ _ => false) = true := by
      decide +kernel
    rw [hRun] at hOk
    cases hOk
  | ok u r' =>
    obtain ⟨q, hMeets, hLevel⟩ := meets_leave hRun
    have hLeft := hExpression (expression (.clamp 3)) (by simp)
    rw [hRun] at hLeft
    exact ⟨hDepth, q, r', hMeets, ((hParts .expression).2 _ _ hMeets).leave rfl,
      hLevel.trans (by rw [hDepth]), rfl, hLeft.trans hDepth⟩

end ScriptCheck.Grammar
