import ScriptCheck.Proofs.Discipline
import ScriptCheck.Proofs.Pieces

/-!
# Reading on

Whoever holds a reader may have a program read from wherever the reader stands, with levels that
earlier failures left open and with the token that was read last.  None of that is looked at: the
text that is left is read like a text of its own.

* `SyntaxError.behind` — an error of the text that is left, counted from the start of the whole
  text.  Only in the line of the place does the column count what stands before the place.
* `resumed_like_fresh` — **reading on is reading the rest afresh**: with the same outcome, and with
  the error, the place and the line moved by what was passed.

A program is a run of the automaton from whatever place it is read (`program_cases`), and a run is
carried over from the one text to the other (`Reaches.of_rest_eq`).  What it counts on the way is a
matter of the bytes passed (`Cursor.Exact.line_from`, `Cursor.Sound.column_from`).
-/

namespace ScriptCheck

open Source

variable {text : List UInt8}

/-- An error of the text that is left at `p`, as an error of the whole text: an error in the first
line is one in the line of `p`, and has the bytes of that line before it. -/
def SyntaxError.behind (e : SyntaxError) (p : Cursor text) : SyntaxError :=
  { e with
    offset := e.offset + p.position
    line := e.line + (p.line - 1)
    column := if e.line = 1 then e.column + (p.column - 1) else e.column }

namespace Source

/-! ## Lines of a text in two parts -/

theorem lineAfter_append (a b : List UInt8) :
    lineAfter (a ++ b) = lineAfter b + (lineAfter a - 1) := by
  rw [lineAfter, lineAfter, lineAfter, List.count_append]
  omega

theorem lineAfter_eq_one_iff {b : List UInt8} : lineAfter b = 1 ↔ lineFeed ∉ b := by
  rw [lineAfter, ← List.count_eq_zero]
  omega

/-- The last line feed is looked for in the second part first. -/
theorem lineStartAfter_append_of_mem (a : List UInt8) {b : List UInt8} (h : lineFeed ∈ b) :
    lineStartAfter (a ++ b) = lineStartAfter b + a.length := by
  obtain ⟨b₁, b₂, rfl⟩ := List.append_of_mem h
  rw [← List.append_assoc, lineStartAfter_append_lineFeed, lineStartAfter_append_lineFeed,
    List.length_append]
  omega

theorem lineStartAfter_append_of_not_mem (a : List UInt8) {b : List UInt8} (h : lineFeed ∉ b) :
    lineStartAfter (a ++ b) = lineStartAfter a := by
  induction b using List.reverseRecOn with
  | nil => rw [List.append_nil]
  | append_singleton b x ih =>
    rw [List.mem_append, List.mem_singleton, not_or] at h
    rw [← List.append_assoc, lineStartAfter_concat, if_neg (Ne.symm h.2), ih h.1]

/-! ## Places of a text from a place on -/

section

variable {p d : Cursor text} {c : Cursor (text.drop p.position)}

theorem Cursor.position_from (h : d.rest = c.rest) : d.position = c.position + p.position := by
  have hc := c.position_add_length_rest
  have hd := d.position_add_length_rest
  have hp := p.position_le
  rw [h] at hd
  rw [List.length_drop] at hc
  omega

/-- The bytes passed are those before `p` and those passed since. -/
theorem Cursor.take_from (h : d.rest = c.rest) :
    text.take d.position = text.take p.position ++ (text.drop p.position).take c.position := by
  rw [position_from h, Nat.add_comm, List.take_add]

theorem Cursor.Exact.line_from (hp : p.Exact) (hc : c.Exact) (hd : d.Exact)
    (h : d.rest = c.rest) : d.line = c.line + (p.line - 1) := by
  rw [hd.line_eq, hc.line_eq, hp.line_eq, take_from h, lineAfter_append]

/-- The column starts anew as soon as a line feed has been passed. -/
theorem Cursor.Sound.column_from (hp : p.Sound) (hc : c.Exact) (hd : d.Exact)
    (h : d.rest = c.rest) :
    d.column = if c.line = 1 then c.column + (p.column - 1) else c.column := by
  have hLe := hp.lineStart_le
  have hStart := hd.lineStart_eq
  have hPosition := position_from h
  rw [take_from h] at hStart
  rw [Cursor.column, Cursor.column, Cursor.column, hc.line_eq, hc.lineStart_eq]
  generalize hSince : (text.drop p.position).take c.position = since at hStart
  by_cases hFeed : lineFeed ∈ since
  · have hLength : (text.take p.position).length = p.position :=
      List.length_take_of_le p.position_le
    rw [lineStartAfter_append_of_mem _ hFeed, hLength] at hStart
    rw [if_neg (lineAfter_eq_one_iff.not.2 (not_not.2 hFeed))]
    omega
  · have hZero : lineStartAfter since = 0 := lineStartAfter_append_of_not_mem [] hFeed
    rw [lineStartAfter_append_of_not_mem _ hFeed, ← hp.exact.lineStart_eq] at hStart
    rw [if_pos (lineAfter_eq_one_iff.2 hFeed)]
    omega

/-- The same error is built in the text that is left and in the whole text. -/
theorem Cursor.Sound.error_from (hp : p.Sound) (hc : c.Exact) (hd : d.Exact)
    (h : d.rest = c.rest) (cause : Cause) : d.error cause = (c.error cause).behind p := by
  rw [Cursor.error, h, hp.exact.line_from hc hd h, hp.column_from hc hd h, position_from h]
  rfl

end

end Source

namespace Grammar

variable {limit : NestingLimit}

/-- **Reading on is reading the rest afresh.**  Let any productions and steps of the cursor have led
to `r`, at a place where no gap starts, and let any number of levels be open there.  A program read
from there succeeds exactly if the text that is left is read successfully from its start.  Otherwise
both fail with the same error, counted from the start of the one text or of the other.  Both stop in
the same place. -/
theorem resumed_like_fresh {r : Reader text} (h : Reads limit (.start text) r) (depth : Nat)
    (hSpace : ∀ b ∈ r.cursor.peek?, ¬ Space b)
    (hComment : startsComment r.cursor.rest = false) :
    match program limit { r with depth := depth },
      program limit (.start (text.drop r.cursor.position)) with
    | .ok _ resumed, .ok _ fresh =>
      resumed.cursor.position = fresh.cursor.position + r.cursor.position ∧
        resumed.cursor.line = fresh.cursor.line + (r.cursor.line - 1)
    | .error e resumed, .error e' fresh =>
      e = e'.behind r.cursor ∧
        resumed.cursor.position = fresh.cursor.position + r.cursor.position ∧
        resumed.cursor.line = fresh.cursor.line + (r.cursor.line - 1)
    | _, _ => False := by
  have hr : r.cursor.Sound := (Reads.sound h (sound_start limit text)).cursor
  -- the rest starts with no gap, so a fresh reader stands at its first byte
  have hRest : (Reader.start (text.drop r.cursor.position)).cursor.rest = r.cursor.rest := by
    rw [← r.cursor.rest_eq]
    exact (Config.rest_start r.cursor.rest).trans (beyondGap_eq_self hSpace hComment)
  rcases program_cases limit (.start (text.drop r.cursor.position)) with
    ⟨fresh, hFresh, st, hRun, hMove⟩ | ⟨cause, fresh, hFresh, st, hRun, hMove⟩
  all_goals
    obtain ⟨d, hRun', hd⟩ := hRun.of_rest_eq hRest.symm
    have hExact := hRun.exact (Config.exact_start _)
    have hExact' := hRun'.exact hr.exact
  · obtain ⟨resumed, hResumed, rfl⟩ :=
      program_of_accepts (r := { r with depth := depth }) ⟨st, hRun', hd ▸ hMove⟩
    rw [hResumed, hFresh]
    exact ⟨Cursor.position_from hd, hr.exact.line_from hExact hExact' hd⟩
  · obtain ⟨resumed, hResumed, rfl⟩ :=
      program_of_fails (r := { r with depth := depth }) ⟨st, hRun', hd ▸ hMove⟩
    rw [hResumed, hFresh]
    exact ⟨hr.error_from hExact hExact' hd cause, Cursor.position_from hd,
      hr.exact.line_from hExact hExact' hd⟩

/-- A line feed and `((1;((2 3` fail under a limit of three with two levels open.  Read on from
behind the semicolon, `((2 3` has three levels again, and its fifth byte is found where it stands in
the second line. -/
theorem resumed_like_fresh_leaked :
    let s : List UInt8 := [0x0a, 0x28, 0x28, 0x31, 0x3b, 0x28, 0x28, 0x32, 0x20, 0x33]
    let r := ((Reader.start s).perform (.clamp 3) .program).perform (.clamp 3) (.scan .bump)
    r.depth = 2 ∧ r.cursor.position = 5 ∧
      ∃ resumed, program (.clamp 3) r = .error ⟨.expected ')', 9, 2, 9, "3"⟩ resumed := by
  intro s r
  have hReads : Reads (.clamp 3) (.start s) r :=
    .tail (.single ⟨.program, trivial, rfl⟩) ⟨.scan .bump, trivial, rfl⟩
  have hResumed := resumed_like_fresh hReads r.depth (by decide +kernel) (by decide +kernel)
  have hFresh : (check (.clamp 3) (s.drop r.cursor.position)).error? =
      some ⟨.expected ')', 4, 1, 5, "3"⟩ := by
    decide +kernel
  have hMoved : SyntaxError.behind ⟨.expected ')', 4, 1, 5, "3"⟩ r.cursor =
      ⟨.expected ')', 9, 2, 9, "3"⟩ := by
    decide +kernel
  refine ⟨by decide +kernel, by decide +kernel, ?_⟩
  rw [check] at hFresh
  cases hRest : program (.clamp 3) (.start (s.drop r.cursor.position)) with
  | ok u fresh =>
    rw [hRest] at hFresh
    cases hFresh
  | error e fresh =>
    rw [hRest] at hFresh hResumed
    obtain rfl := Option.some.inj hFresh
    cases hr : program (.clamp 3) r with
    | ok u resumed =>
      rw [hr] at hResumed
      exact hResumed.elim
    | error e resumed =>
      rw [hr] at hResumed
      exact ⟨resumed, by rw [hResumed.1, hMoved]⟩

end Grammar

end ScriptCheck
