import ScriptCheck.Proofs.FileRuns
import ScriptCheck.Proofs.History
import ScriptCheck.View.Viewer

/-!
# Messages are complete

No message of a checker is ever cut, whatever the checker is used for, because every error of a
check is brief.  So nothing that shows a message shows a part of it only.

* `Checker.Complete` — the stored message is complete; each use of the checker keeps that
  (`Complete.use`), and so do all of them (`Complete.useAll`).
* `lines_checkFiles` — a run over files reports in one line on each file that it could read.
* `diagnostics_never_truncated` — **no history of a checker cuts a message**: not in the checker,
  not in the reports of a run, not in the viewer.
-/

namespace ScriptCheck

open Text

namespace Checker

/-- The stored message is that of the error remembered, if there is one, and is not cut. -/
structure Complete (c : Checker) : Prop where
  truncated_eq : c.message.truncated = false
  text_le : c.message.text.utf8ByteSize ≤ mostMessageBytes
  text_eq : ∀ e ∈ c.lastError?, c.message.text = e.message

theorem complete_new (limit : NestingLimit) : (new limit).Complete :=
  ⟨rfl, Nat.zero_le _, by simp [new]⟩

/-- A check leaves a complete message behind. -/
theorem Complete.check {c : Checker} (h : c.Complete) (text : List UInt8) :
    (c.check text).Complete := by
  unfold Checker.check record
  cases hError : (Grammar.check c.limit text).error? with
  | none => exact ⟨h.truncated_eq, h.text_le, by simp⟩
  | some e =>
    have hBrief : e.Brief := Grammar.brief_of_check hError
    have hMessage := hBrief.ofString_message
    refine ⟨?_, ?_, ?_⟩
    · simp [hMessage]
    · simpa [hMessage] using hBrief.message_le
    · simp [hMessage]

theorem Complete.use {c : Checker} (h : c.Complete) (u : Use) : (c.use u).2.Complete := by
  cases u with
  | check text | exec text => exact h.check text
  | edit change => exact ⟨h.truncated_eq, h.text_le, h.text_eq⟩

theorem Complete.useAll {c : Checker} (h : c.Complete) (us : List Use) :
    (c.useAll us).2.Complete := by
  induction us generalizing c with
  | nil => exact h
  | cons u us ih => exact ih (h.use u)

end Checker

/-! ## Runs over files -/

namespace Command

/-- What a run reports on no file that it reads: why it stopped, or a summary. -/
def Closing (read : ReadFile) (line : String) : Prop :=
  (∃ file failure, read file = .error failure ∧ line = failure.report file) ∨
    ∃ count failures, line = summary count failures

theorem lines_checkFiles (read : ReadFile) (c : Checker) (files : List String) :
    ∃ closing, (∀ line ∈ closing, Closing read line) ∧
      (checkFiles read c files).lines =
        (readFiles read files).map (fun f => verdictLine f.1 (Grammar.check c.limit f.2)) ++
          closing := by
  rcases files_cases read files with hFiles | ⟨file, failure, more, hFiles, hFile⟩
  · obtain ⟨p, hReported, hRun⟩ := checkFiles_of_readFiles c none hFiles
    rw [hRun, hReported.lines_eq]
    refine ⟨_, fun line hLine => ?_, rfl⟩
    split at hLine
    · rw [List.mem_singleton.1 hLine]
      exact .inr ⟨_, _, rfl⟩
    · cases hLine
  · obtain ⟨p, hReported, hRun⟩ := checkFiles_of_unread c none hFiles hFile
    rw [hRun, hReported.lines_eq]
    refine ⟨_, fun line hLine => ?_, rfl⟩
    rw [List.mem_singleton.1 hLine]
    exact .inl ⟨_, _, hFile, rfl⟩

end Command

/-! ## The diagnostic pane -/

/-- A message that is not cut is not called truncated. -/
theorem View.truncated_notMem_diagnosticLines (file : String) (e : SyntaxError) (text : String) :
    ∀ line ∈ diagnosticLines file (some e) ⟨text, false⟩,
      ⟨" (truncated)", labelStyle⟩ ∉ line := by
  -- the style of labels occurs in the pane only on the labels
  have hPlain : labelStyle ≠ Style.plain := by decide
  have hKind : labelStyle ≠ (Style.ink Palette.error).strong := by decide
  have hNear : labelStyle ≠ Style.ink Palette.secondary := by decide
  simp [diagnosticLines, errorLines, labelled, hPlain, hKind, hNear]

/-! ## All messages -/

open Command View in
/-- **No message is ever cut.**  Whatever a checker was used for, its message is the whole message
of the last error it found, with at most 59 bytes.  So a run over files with such a checker has one
line for each file that it reads, and apart from these only the reason why it stopped or its
summary; and a viewer that shows an error has the whole message of that error and does not call it
truncated. -/
theorem diagnostics_never_truncated (limit : NestingLimit) (us : List Use) :
    let c := ((Checker.new limit).useAll us).2
    let errors := (us.filterMap Use.text?).filterMap fun text => (Grammar.check limit text).error?
    c.message.truncated = false ∧
      c.message.text = errors.getLast?.elim "" SyntaxError.message ∧
      c.message.text.utf8ByteSize ≤ 59 ∧
      (∀ (read : ReadFile) (files : List String), ∃ closing,
        (∀ line ∈ closing, Closing read line) ∧
          (checkFiles read c files).lines =
            (readFiles read files).map (fun f => verdictLine f.1 (Grammar.check limit f.2)) ++
              closing) ∧
      ∀ (file source : String) (e : SyntaxError), (Viewer.ofChecker file source c).error? = some e →
        (Viewer.ofChecker file source c).message = ⟨e.message, false⟩ ∧
          ∀ line ∈ diagnosticLines file (some e) (Viewer.ofChecker file source c).message,
            ⟨" (truncated)", labelStyle⟩ ∉ line := by
  intro c errors
  have hComplete : c.Complete := (Checker.complete_new limit).useAll us
  have hRemembers : Remembers limit us c := (Remembers.new limit).useAll us
  have hText : c.message.text = errors.getLast?.elim "" SyntaxError.message := by
    rw [hRemembers.message_eq]
    cases hLast : errors.getLast? with
    | none => rfl
    | some e =>
      obtain ⟨text, -, hError⟩ := List.mem_filterMap.1 (List.mem_of_getLast? hLast)
      exact congrArg Bounded.text (Grammar.brief_of_check hError).ofString_message
  refine ⟨hComplete.truncated_eq, hText, hComplete.text_le, ?_, ?_⟩
  · intro read files
    rw [← hRemembers.limit_eq]
    exact lines_checkFiles read c files
  · intro file source e hError
    have hMessage : c.message = ⟨e.message, false⟩ := by
      rw [← hComplete.text_eq e hError, ← hComplete.truncated_eq]
    refine ⟨hMessage, ?_⟩
    show ∀ line ∈ diagnosticLines file (some e) c.message, _
    rw [hMessage]
    exact truncated_notMem_diagnosticLines file e e.message

end ScriptCheck
