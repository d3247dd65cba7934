import ScriptCheck.Checker
import ScriptCheck.Proofs.Exchange

/-!
# What a diagnostic rests on and what it leaves open

The offset of an error cuts the text in two.  Neither part surprises.

* `error_stays` — **the error is settled where it is reported.**  Whatever is put behind the failing
  byte, the same error is found at the same place.  If that byte is a slash, the byte behind it
  counts too, since two slashes would start a comment.
* `text_before_error_completable` — **the text before the error is sound.**  Unless the nesting
  limit was met, some text continues it to a program.

For the second the text behind the error is exchanged for a line feed, which ends a comment and
does not lengthen a name, and for a text that closes all that is open
(`State.completion`).
-/

namespace ScriptCheck.Grammar

open Source

variable {text : List UInt8} {limit : NestingLimit}

/-! ## Behind the error -/

/-- How many bytes of `s` settle an error at `offset`: those up to the byte there and, if it is a
slash, one more. -/
def settledBy (s : List UInt8) (offset : Nat) : Nat :=
  if s[offset]? = some slash then offset + 2 else offset + 1

/-- A failure inside the bytes that two texts share is a failure of both. -/
theorem Fails.exchange {a u v : List UInt8} {cause : Cause} {c : Cursor (a ++ u)}
    (h : Fails limit (Config.start (a ++ u)) cause c) (hKept : CommentsKept a u v c.position) :
    ∃ d, Fails limit (Config.start (a ++ v)) cause d ∧ d.position = c.position ∧
      d.line = c.line ∧ d.column = c.column := by
  obtain ⟨st, hRun, hMove⟩ := h
  obtain ⟨d, hRun', hd⟩ := hRun.exchange hKept
  refine ⟨d, ⟨st, hRun', ?_⟩, hd, ?_⟩
  · rw [rest_eq_append hKept.1.le] at hMove
    have hStay : ∀ t st', st.move limit (a.drop c.position ++ u) ≠ .read t st' := by simp [hMove]
    rw [rest_eq_append (hd.trans_le hKept.1.le), hd, move_append_stay hKept.drop_ne_nil hStay,
      hMove]
  · refine (hRun.exact (Config.exact_start _)).same_line (hRun'.exact (Config.exact_start _)) hd ?_
    rw [List.take_append_of_le_length hKept.1.le, List.take_append_of_le_length hKept.1.le]

/-- The bytes that settle an error settle also which comments start up to it. -/
theorem commentsKept_of_length_eq {a u : List UInt8} {offset : Nat}
    (h : a.length = settledBy (a ++ u) offset) (v : List UInt8) : CommentsKept a u v offset := by
  have hLt : offset < a.length := by
    rw [h, settledBy]
    split <;> omega
  refine commentsKept_of_settles ⟨by simpa using hLt, fun hSlash => ?_⟩ u v
  rw [List.head?_drop] at hSlash
  rw [settledBy, List.getElem?_append_left hLt, if_pos hSlash] at h
  rw [List.length_drop]
  omega

/-- **The error is settled where it is reported.**  If a check finds an error, then so does the
check of every text that starts with the same bytes up to the failing one (and with one more if that
is a slash), and the two errors have the same cause, offset, line and column. -/
theorem error_stays (checker : Checker) {s : List UInt8} {e : SyntaxError}
    (h : (checker.check s).lastError? = some e) (hLe : settledBy s e.offset ≤ s.length)
    (t : List UInt8) :
    ∃ e', (checker.check (s.take (settledBy s e.offset) ++ t)).lastError? = some e' ∧
      e'.cause = e.cause ∧ e'.offset = e.offset ∧ e'.line = e.line ∧ e'.column = e.column := by
  obtain ⟨a, u, rfl, ha⟩ : ∃ a u, s = a ++ u ∧ a.length = settledBy s e.offset :=
    ⟨s.take _, s.drop _, (List.take_append_drop _ s).symm, List.length_take_of_le hLe⟩
  rw [List.take_left' ha]
  obtain ⟨cause, c, hFails, rfl⟩ := check_error?_eq_some_iff.1 h
  obtain ⟨d, hFails', hPosition, hLine, hColumn⟩ :=
    hFails.exchange (commentsKept_of_length_eq ha t)
  exact ⟨d.error cause, check_error?_eq_some_iff.2 ⟨cause, d, hFails', rfl⟩, rfl, hPosition, hLine,
    hColumn⟩

/-- `x=/1;` fails at the slash, and still does when its last byte is another slash. -/
theorem error_stays_slash :
    ∃ e, ((Checker.new .standard).check ([0x78, 0x3d, 0x2f, 0x31] ++ [0x2f])).lastError? = some e ∧
      e.cause = .invalidNumber ∧ e.offset = 2 ∧ e.line = 1 ∧ e.column = 3 :=
  error_stays (Checker.new .standard) (s := [0x78, 0x3d, 0x2f, 0x31, 0x3b])
    (e := ⟨.invalidNumber, 2, 1, 3, "/1;"⟩) (by decide +kernel) (by decide) [0x2f]

/-! ## Before the error -/

/-- What closes `n` brackets and the statement around them. -/
def closing (n : Nat) : List UInt8 := List.replicate n ')'.toUInt8 ++ [';'.toUInt8]

/-- A text that completes a program from a state on. -/
def State.completion : State → List UInt8
  | between => []
  | target _ => 'x'.toUInt8 :: '='.toUInt8 :: '1'.toUInt8 :: closing 0
  | equals _ => '='.toUInt8 :: '1'.toUInt8 :: closing 0
  | within .expression opened _ => '1'.toUInt8 :: closing opened.length
  | within .operand opened _ => '1'.toUInt8 :: closing opened.length
  | within .callee opened _ => closing opened.length
  | within .behind opened _ => closing opened.length
  | within .argument opened _ => closing opened.length

/-- Whether there is room for the completion, and a bracket to close among arguments. -/
def State.Completable (limit : NestingLimit) : State → Prop
  | between => True
  | target _ => 0 < limit.levels
  | equals _ => 0 < limit.levels
  | within .expression opened _ => opened.length < limit.levels
  | within .argument opened _ => opened ≠ []
  | within _ _ _ => True

theorem beyondGap_closing (n : Nat) : beyondGap (closing n) = closing n := by
  cases n <;> rfl

/-- A completion does not start with a gap. -/
theorem beyondGap_completion (st : State) : beyondGap st.completion = st.completion := by
  cases st with
  | between | target | equals => rfl
  | within stage opened declares =>
    cases stage with
    | expression | operand => rfl
    | callee | behind | argument => exact beyondGap_closing opened.length

theorem accepts_closing (opened : List Bracket) (declares : Bool) {c : Cursor text}
    (hc : c.rest = closing opened.length) :
    ∃ d, Accepts limit (.within .behind opened declares, c) d := by
  induction opened generalizing c with
  | nil =>
    have hRest : (c.read .byte).rest = [] := by
      rw [Cursor.rest_read, hc]
      rfl
    refine ⟨c.read .byte, .between, .single (.read ?_), ?_⟩
    · rw [hc]
      cases declares <;> rfl
    · rw [hRest]
      rfl
  | cons bracket opened ih =>
    have hRest : (c.read .byte).rest = closing opened.length := by
      rw [Cursor.rest_read, hc]
      exact beyondGap_closing opened.length
    obtain ⟨d, hAccepts⟩ := ih hRest
    refine ⟨d, Accepts.head ?_ hAccepts⟩
    cases bracket with
    | group => exact .single (.read (by rw [hc]; rfl))
    | call =>
      have hArgument : Step limit (.within .behind (.call :: opened) declares, c)
          (.within .argument (.call :: opened) declares, c) := .goto (by rw [hc]; rfl)
      exact .tail (.single hArgument) (.read (by rw [hc]; rfl))

theorem accepts_one (opened : List Bracket) (declares : Bool) {c : Cursor text}
    (hc : c.rest = '1'.toUInt8 :: closing opened.length) :
    ∃ d, Accepts limit (.within .operand opened declares, c) d := by
  have hRest : (c.read .number).rest = closing opened.length := by
    rw [Cursor.rest_read, hc]
    cases opened <;> rfl
  obtain ⟨d, hAccepts⟩ := accepts_closing opened declares hRest
  exact ⟨d, Accepts.head (.single (.read (by rw [hc]; rfl))) hAccepts⟩

theorem accepts_expression {opened : List Bracket} (hRoom : opened.length < limit.levels)
    (declares : Bool) {c : Cursor text} (hc : c.rest = '1'.toUInt8 :: closing opened.length) :
    ∃ d, Accepts limit (.within .expression opened declares, c) d := by
  obtain ⟨d, hAccepts⟩ := accepts_one opened declares hc
  exact ⟨d, Accepts.head (.single (.goto (if_pos hRoom))) hAccepts⟩

theorem accepts_equals (hRoom : 0 < limit.levels) (declares : Bool) {c : Cursor text}
    (hc : c.rest = '='.toUInt8 :: '1'.toUInt8 :: closing 0) :
    ∃ d, Accepts limit (.equals declares, c) d := by
  have hRest : (c.read .byte).rest = '1'.toUInt8 :: closing 0 := by
    rw [Cursor.rest_read, hc]
    rfl
  have hRoom' : ([] : List Bracket).length < limit.levels := hRoom
  obtain ⟨d, hAccepts⟩ := accepts_expression hRoom' declares hRest
  exact ⟨d, Accepts.head (.single (.read (by rw [hc]; rfl))) hAccepts⟩

/-- The completion of a state completes it. -/
theorem accepts_completion {st : State} (h : st.Completable limit) {c : Cursor text}
    (hc : c.rest = st.completion) : ∃ d, Accepts limit (st, c) d := by
  cases st with
  | between =>
    refine ⟨c, .between, .refl, ?_⟩
    rw [hc]
    rfl
  | target declares =>
    have hRest : (c.read .name).rest = '='.toUInt8 :: '1'.toUInt8 :: closing 0 := by
      rw [Cursor.rest_read, hc]
      rfl
    obtain ⟨d, hAccepts⟩ := accepts_equals h declares hRest
    exact ⟨d, Accepts.head (.single (.read (by rw [hc]; rfl))) hAccepts⟩
  | equals declares => exact accepts_equals h declares hc
  | within stage opened declares =>
    cases stage with
    | expression => exact accepts_expression h declares hc
    | operand => exact accepts_one opened declares hc
    | callee =>
      obtain ⟨d, hAccepts⟩ := accepts_closing opened declares hc
      refine ⟨d, Accepts.head (.single (.goto ?_)) hAccepts⟩
      rw [hc]
      cases opened <;> rfl
    | behind => exact accepts_closing opened declares hc
    | argument =>
      obtain ⟨bracket, outer, rfl⟩ := List.exists_cons_of_ne_nil h
      have hRest : (c.read .byte).rest = closing outer.length := by
        rw [Cursor.rest_read, hc]
        exact beyondGap_closing outer.length
      obtain ⟨d, hAccepts⟩ := accepts_closing outer declares hRest
      exact ⟨d, Accepts.head (.single (.read (by rw [hc]; rfl))) hAccepts⟩

/-- Arguments are read only inside a bracket. -/
theorem opened_of_argument {s : List UInt8} {st : State} {opened : List Bracket} {declares : Bool}
    (h : (st.move limit s).next? = some (.within .argument opened declares)) : opened ≠ [] := by
  cases hMove : st.move limit s with
  | goto next =>
    rw [hMove] at h
    cases h
    cases State.change_of_move hMove with
    | endArgument => exact List.cons_ne_nil _ _
  | read t next =>
    rw [hMove] at h
    cases h
    cases State.reading_of_move hMove with
    | openCall | comma => exact List.cons_ne_nil _ _
  | fail | accept =>
    rw [hMove] at h
    cases h

/-- A state that a run arrives at can be completed, unless the limit is met right there. -/
theorem Reaches.completable {s : List UInt8} {st : State} {c : Cursor text}
    (h : Reaches limit (Config.start text) (st, c)) (hRoom : 1 ≤ limit.levels)
    (hLimit : st.move limit s ≠ .fail (.nestingTooDeep limit.levels)) : st.Completable limit := by
  cases st with
  | between => trivial
  | target declares => exact hRoom
  | equals declares => exact hRoom
  | within stage opened declares =>
    cases stage with
    | expression =>
      show opened.length < limit.levels
      by_contra hFull
      exact hLimit (if_neg hFull)
    | argument =>
      rcases h.cases_tail with hStart | ⟨b, -, hStep⟩
      · cases hStart
      · cases hStep with
        | goto hMove | read hMove => exact opened_of_argument (by rw [hMove]; rfl)
    | operand | callee | behind => trivial

/-- **Any arrival can be completed.**  If a run comes to the end of the known bytes, and does not
meet the limit there, then some text behind these bytes makes a program of them. -/
theorem exists_completion {a u : List UInt8} {st : State} {c : Cursor (a ++ u)}
    (h : Reaches limit (Config.start (a ++ u)) (st, c)) (hc : c.position = a.length)
    (hRoom : 1 ≤ limit.levels) {cause : Cause} (hFail : st.move limit c.rest = .fail cause)
    (hCause : cause ≠ .nestingTooDeep limit.levels) :
    ∃ y d, Accepts limit (Config.start (a ++ lineFeed :: y)) d := by
  obtain ⟨st₁, hBehind, hLineFeed⟩ := h.lineFeed hc
  have hLimit : st₁.move limit c.rest ≠ .fail (.nestingTooDeep limit.levels) := by
    intro hLimit
    have hFails : Fails limit (st₁, c) cause c := ⟨st, hBehind, hFail⟩
    exact hCause (hFails.unique ⟨st₁, .refl, hLimit⟩).1
  obtain ⟨d, hRun, hRest⟩ := hLineFeed st₁.completion
  obtain ⟨d', hAccepts⟩ := accepts_completion (hRun.completable hRoom hLimit)
    (hRest.trans (beyondGap_completion st₁))
  exact ⟨st₁.completion, d', Accepts.head hRun hAccepts⟩

/-- **The text before an error is sound.**  If a check finds an error that is none of depth, and the
limit allows any expression at all, then the text before the error can be continued to a program. -/
theorem text_before_error_completable (checker : Checker) (hRoom : 1 ≤ checker.limit.levels)
    {s : List UInt8} {e : SyntaxError} (h : (checker.check s).lastError? = some e)
    (hForm : e.isLimit = false) :
    ∃ t, (checker.check (s.take e.offset ++ t)).lastError? = none := by
  obtain ⟨cause, c, ⟨st, hRun, hFail⟩, rfl⟩ := check_error?_eq_some_iff.1 h
  have hCause : cause ≠ .nestingTooDeep checker.limit.levels := by
    rintro rfl
    cases hForm
  obtain ⟨a, u, rfl, ha⟩ : ∃ a u, s = a ++ u ∧ a.length = c.position :=
    ⟨s.take _, s.drop _, (List.take_append_drop _ s).symm, List.length_take_of_le c.position_le⟩
  obtain ⟨y, d, hAccepts⟩ := exists_completion hRun ha.symm hRoom hFail hCause
  refine ⟨lineFeed :: y, ?_⟩
  rw [List.take_left' (by exact ha)]
  exact check_error?_eq_none_iff.2 ⟨d, hAccepts⟩

/-- `x=(1//` ends in a comment, where the closing bracket is missed. -/
theorem text_before_error_completable_comment :
    ∃ t, ((Checker.new .standard).check ([0x78, 0x3d, 0x28, 0x31, 0x2f, 0x2f] ++ t)).lastError? =
      none :=
  text_before_error_completable (Checker.new .standard) (by decide)
    (s := [0x78, 0x3d, 0x28, 0x31, 0x2f, 0x2f]) (e := ⟨.expected ')', 6, 1, 7, ""⟩)
    (by decide +kernel) rfl

end ScriptCheck.Grammar
