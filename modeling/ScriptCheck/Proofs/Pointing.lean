import ScriptCheck.Checker
import ScriptCheck.Proofs.Discipline

/-!
# Where diagnostics point

Every terminal is read together with the gap behind it.  So a reader that starts behind the first
gap never stands in front of another, whichever productions are called and however they end; and an
error, which is built where the reader stands, points at a byte of the language or at the end of the
text.

* `OutsideGap` — a place of a text where no gap starts, said of its bytes; the cursors that stand
  there are those that `Cursor.skipGap` leaves alone (`outsideGap_iff`).
* `Call`, `Reader.callAll` — the productions that whoever holds a reader may call, in any order and
  number, whether they succeed or fail.
* `Reader.Settled` — the reader keeps the limit and stands outside gaps; one call keeps that
  (`Reader.Settled.after_call`), and so does any number of them (`Reader.Settled.callAll`).
* `diagnostics_outside_gaps` — **diagnostics never point into a gap.**
-/

namespace ScriptCheck.Source

variable {text : List UInt8}

/-! ## Places outside gaps -/

/-- No gap starts at `position`: the text ends there, or goes on with a byte that is no space and
does not start a comment. -/
def OutsideGap (text : List UInt8) (position : Nat) : Prop :=
  position = text.length ∨ ∃ b, text[position]? = some b ∧ ¬ Space b ∧
    ¬ [slash, slash] <+: text.drop position

/-- A gap is empty if and only if the text does not start with a space or a comment. -/
theorem gapLength_cons_eq_zero_iff {b : UInt8} {s : List UInt8} :
    gapLength (b :: s) = 0 ↔ ¬ Space b ∧ ¬ [slash, slash] <+: b :: s := by
  rw [← isSpace_iff, ← List.isPrefixOf_iff_prefix, ← startsComment, gapLength, gapLengthFrom_cons,
    if_neg Bool.false_ne_true]
  by_cases hSpace : isSpace b = true
  · simp [hSpace]
  · by_cases hComment : startsComment (b :: s) = true
    · simp [hSpace, hComment]
    · simp [hSpace, hComment]

/-- The cursors outside gaps are those that passing over a gap does not move. -/
theorem outsideGap_iff {c : Cursor text} : OutsideGap text c.position ↔ c.skipGap = c := by
  have hSkip : c.skipGap = c ↔ gapLength c.rest = 0 := by
    constructor
    · intro h
      have hPosition := congrArg Cursor.position h
      rw [Cursor.skipGap, Cursor.position_advance] at hPosition
      have hLe := gapLength_le_length c.rest
      have hLength := c.position_add_length_rest
      omega
    · intro h
      rw [Cursor.skipGap, h]
      rfl
  rw [hSkip, OutsideGap, ← c.atEnd_iff, ← List.head?_drop, ← c.rest_eq, Cursor.atEnd]
  cases c.rest with
  | nil => simp [gapLength, gapLengthFrom]
  | cons b s => simp [gapLength_cons_eq_zero_iff]

/-- Whatever terminal is read, the gap behind it is passed too. -/
theorem Cursor.skipGap_read (c : Cursor text) (t : Terminal) : (c.read t).skipGap = c.read t := by
  cases t with
  | byte => exact Cursor.skipGap_skipGap _
  | word bytes => exact Cursor.skipGap_skipGap _
  | name => exact Cursor.skipGap_skipGap _
  | number => exact Cursor.skipGap_skipGap _

end ScriptCheck.Source

namespace ScriptCheck

open Source

/-- The error points at the end of `text` and quotes nothing, or it points at a byte that is no
space and does not start a comment. -/
def SyntaxError.PointsInto (e : SyntaxError) (text : List UInt8) : Prop :=
  (e.offset = text.length ∧ e.snippet = "") ∨ ∃ b, text[e.offset]? = some b ∧
    ¬ Space b ∧ ¬ [slash, slash] <+: text.drop e.offset

/-- An error that is built outside a gap points there. -/
theorem Source.Cursor.pointsInto_error {text : List UInt8} {c : Cursor text}
    (h : c.skipGap = c) (cause : Cause) : (c.error cause).PointsInto text := by
  refine (outsideGap_iff.2 h).imp_left fun hEnd => ⟨hEnd, ?_⟩
  have hRest : c.rest = [] := List.isEmpty_iff.1 (c.atEnd_iff.2 hEnd)
  rw [Cursor.error, hRest]
  rfl

namespace Grammar

open Production

variable {text : List UInt8} {limit : NestingLimit} {most : Nat}

/-! ## Calls -/

/-- A production that whoever holds a reader may call. -/
inductive Call where
  | program
  | statement
  | expression
  | name
  | number
  deriving DecidableEq, Repr

/-- What is called. -/
def Call.production (limit : NestingLimit) : Call → Production text Unit
  | program => Grammar.program limit
  | statement => Grammar.statement limit
  | expression => Grammar.expression limit
  | name => Production.name
  | number => discard Production.number

/-- The reader behind calls, one after the other, whether they succeed or fail. -/
def Reader.callAll (limit : NestingLimit) (r : Reader text) (calls : List Call) : Reader text :=
  calls.foldl (fun r call => (call.production limit).after r) r

/-! ## Acts and gaps -/

theorem Act.skipGap_eq {r r' : Reader text} (h : Act most r r')
    (hr : r.cursor.skipGap = r.cursor) : r'.cursor.skipGap = r'.cursor := by
  cases h with
  | read _ => exact Cursor.skipGap_read _ _
  | enter _ => exact hr
  | leave _ => exact hr

/-- **Acts lead from outside a gap to outside a gap.** -/
theorem Acts.skipGap_eq {r r' : Reader text} (h : Acts most r r')
    (hr : r.cursor.skipGap = r.cursor) : r'.cursor.skipGap = r'.cursor := by
  induction h with
  | refl => exact hr
  | tail _ hAct ih => exact hAct.skipGap_eq ih

/-- The reader keeps the limit and does not stand before a gap. -/
structure Reader.Settled (limit : NestingLimit) (r : Reader text) : Prop where
  sound : r.Sound limit.levels
  skipGap_eq : r.cursor.skipGap = r.cursor

theorem Reader.settled_start (limit : NestingLimit) (text : List UInt8) :
    (Reader.start text).Settled limit :=
  ⟨sound_start limit text, Cursor.skipGap_skipGap _⟩

theorem Reader.Settled.acts {r r' : Reader text} (h : r.Settled limit)
    (hActs : Acts limit.levels r r') : r'.Settled limit :=
  ⟨hActs.sound h.sound, hActs.skipGap_eq h.skipGap_eq⟩

theorem Reader.Settled.entry {r : Reader text} (h : r.Settled limit) (part : Part) :
    (part.entry r).Settled limit := by
  refine ⟨h.sound.entry part, ?_⟩
  cases part <;> exact h.skipGap_eq

/-- A call keeps its levels; a program does so once all levels are closed. -/
theorem Reader.Settled.keeps {r : Reader text} (h : r.Settled limit) (call : Call) :
    ∃ r₀ : Reader text, r₀.Settled limit ∧
      Keeps limit.levels 0 0 r₀ (call.production limit r) := by
  cases call with
  | program => exact ⟨_, h.entry .program, Part.keeps limit .program r⟩
  | statement => exact ⟨_, h.entry .statement, Part.keeps limit .statement r⟩
  | expression => exact ⟨_, h.entry .expression, Part.keeps limit .expression r⟩
  | name => exact ⟨r, h, Primitive.keeps (p := .name) rfl r⟩
  | number => exact ⟨r, h, Primitive.keeps (p := .number) rfl r⟩

/-- **One call keeps a reader outside gaps**, also one that fails. -/
theorem Reader.Settled.after_call {r : Reader text} (h : r.Settled limit) (call : Call) :
    ((call.production limit).after r).Settled limit := by
  obtain ⟨r₀, hr₀, hKeeps⟩ := h.keeps call
  rw [Production.after_eq]
  exact hr₀.acts hKeeps.acts

/-- **Any number of calls keeps a reader outside gaps.** -/
theorem Reader.Settled.callAll {r : Reader text} (h : r.Settled limit) (calls : List Call) :
    (r.callAll limit calls).Settled limit := by
  induction calls generalizing r with
  | nil => exact h
  | cons call calls ih => exact ih (h.after_call call)

/-- The error of a call points outside gaps. -/
theorem Reader.Settled.pointsInto {r r' : Reader text} {call : Call} {e : SyntaxError}
    (h : r.Settled limit) (hCall : call.production limit r = .error e r') :
    e.PointsInto text := by
  obtain ⟨r₀, hr₀, hKeeps⟩ := h.keeps call
  rw [hCall] at hKeeps
  obtain ⟨hActs, -, cause, rfl⟩ := hKeeps
  exact Cursor.pointsInto_error (hr₀.acts hActs).skipGap_eq cause

/-! ## Diagnostics -/

/-- **Diagnostics never point into a gap.**  Let any productions have been called on a new reader,
with whatever outcome.  Then the reader stands at the end of the text or at a byte that is no space
and starts no comment, so that passing over a gap does not move it; and the next call that fails
points there or at a later place of this kind.  So does every error that a check reports. -/
theorem diagnostics_outside_gaps (limit : NestingLimit) (text : List UInt8) (calls : List Call) :
    let r := (Reader.start text).callAll limit calls
    OutsideGap text r.cursor.position ∧ r.cursor.skipGap = r.cursor ∧
      (∀ (call : Call) e r', call.production limit r = .error e r' → e.PointsInto text) ∧
      ∀ checker : Checker, ∀ e ∈ (checker.check text).lastError?, e.PointsInto text := by
  intro r
  have hr : r.Settled limit := (Reader.settled_start limit text).callAll calls
  refine ⟨outsideGap_iff.2 hr.skipGap_eq, hr.skipGap_eq, fun _ _ _ => hr.pointsInto, ?_⟩
  intro checker e he
  have hError : (check checker.limit text).error? = some e := he
  rw [check] at hError
  cases hProgram : program checker.limit (Reader.start text) with
  | ok u r' =>
    rw [hProgram] at hError
    cases hError
  | error e' r' =>
    rw [hProgram] at hError
    obtain rfl : e' = e := Option.some.inj hError
    have hCall : Call.production checker.limit .program (Reader.start text) = .error e' r' :=
      hProgram
    exact (Reader.settled_start checker.limit text).pointsInto hCall

end Grammar

end ScriptCheck
