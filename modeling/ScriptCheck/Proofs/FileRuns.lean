import ScriptCheck.Command.Report
import ScriptCheck.Proofs.Brevity

/-!
# Runs over files

One checker serves all files of a run, and a file that cannot be read ends the run.  This file says
what a run over any files leaves behind, whatever the checker went through before.

* `readFiles` — the files that are read, each with its content.  Either these are all files, or one
  that cannot be read comes next (`files_cases`).
* `Reported` — what a run has noted about the files read so far.  One file more keeps that
  (`Reported.add`), and so does any number of them (`Reported.addAll`).
* `checkFiles_of_readFiles`, `checkFiles_of_unread` — the two ways in which a run ends.
* `files_checked_alone` — **every file is reported on as if it were checked alone**, up to the first
  that cannot be read, and the exit status tells which way the run went.
-/

namespace ScriptCheck.Command

/-! ## The files that are read -/

/-- The files up to the first that cannot be read, with their content. -/
def readFiles (read : ReadFile) : List String → List (String × List UInt8)
  | [] => []
  | file :: files =>
    match read file with
    | .ok content => (file, content) :: readFiles read files
    | .error _ => []

section

variable {read : ReadFile} {file : String} (files : List String)

theorem readFiles_cons_ok {content : List UInt8} (h : read file = .ok content) :
    readFiles read (file :: files) = (file, content) :: readFiles read files := by
  rw [readFiles, h]

theorem readFiles_cons_error {failure : ReadFailure} (h : read file = .error failure) :
    readFiles read (file :: files) = [] := by
  rw [readFiles, h]

end

/-- Each of these files is read, and has the content that stands beside it. -/
theorem read_of_mem_readFiles (read : ReadFile) (files : List String) :
    ∀ f ∈ readFiles read files, read f.1 = .ok f.2 := by
  induction files with
  | nil => exact fun f hf => absurd hf List.not_mem_nil
  | cons file files ih =>
    cases hRead : read file with
    | error failure => simp [readFiles_cons_error files hRead]
    | ok content =>
      rw [readFiles_cons_ok files hRead]
      exact List.forall_mem_cons.2 ⟨hRead, ih⟩

/-- The files of a run are all read, or some are read up to one that is not. -/
theorem files_cases (read : ReadFile) (files : List String) :
    files = (readFiles read files).map Prod.fst ∨
      ∃ file failure more, files = (readFiles read files).map Prod.fst ++ file :: more ∧
        read file = .error failure := by
  induction files with
  | nil => exact .inl rfl
  | cons file files ih =>
    cases hRead : read file with
    | error failure =>
      rw [readFiles_cons_error files hRead]
      exact .inr ⟨file, failure, files, rfl, hRead⟩
    | ok content =>
      rw [readFiles_cons_ok files hRead]
      refine ih.imp (congrArg (file :: ·)) ?_
      rintro ⟨stop, failure, more, hFiles, hStop⟩
      exact ⟨stop, failure, more, congrArg (file :: ·) hFiles, hStop⟩

/-! ## What a run notes -/

/-- What is reported on a file whose check gave the verdict `v`. -/
def verdictLine (file : String) (v : Grammar.Verdict) : String :=
  match v.error? with
  | none => file ++ ": ok"
  | some e => file ++ ": " ++ e.display

/-- Whatever the checker went through, its report on a file is one line. -/
theorem fileReport_check (c : Checker) (file : String) (content : List UInt8) :
    fileReport file (c.check content) = [verdictLine file (Grammar.check c.limit content)] := by
  have hError : (c.check content).lastError? = (Grammar.check c.limit content).error? := rfl
  unfold fileReport verdictLine
  rw [hError]
  cases hCheck : (Grammar.check c.limit content).error? with
  | none => rfl
  | some e =>
    have hMessage : (c.check content).message = ⟨e.message, false⟩ := by
      rw [← (Grammar.brief_of_check hCheck).ofString_message, Checker.check, Checker.record, hCheck]
      rfl
    simp [hMessage]

namespace Progress

/-- What a run under `limit` has noted when it has read the files `seen`, if the last file before it
was `last?`. -/
structure Reported (limit : NestingLimit) (last? : Option (String × List UInt8))
    (seen : List (String × List UInt8)) (p : Progress) : Prop where
  limit_eq : p.checker.limit = limit
  lines_eq : p.lines = seen.map fun f => verdictLine f.1 (Grammar.check limit f.2)
  failures_eq : p.failures = seen.countP fun f => (Grammar.check limit f.2).error?.isSome
  last?_eq : p.last? = seen.getLast?.or last?

section

variable {limit : NestingLimit} {last? : Option (String × List UInt8)}
  {seen : List (String × List UInt8)} {p : Progress}

theorem reported_start (checker : Checker) (last? : Option (String × List UInt8)) :
    (start checker last?).Reported checker.limit last? [] :=
  ⟨rfl, rfl, rfl, rfl⟩

/-- **One file more is noted as if it were alone.** -/
theorem Reported.add (h : p.Reported limit last? seen) (file : String) (content : List UInt8) :
    (p.add file content).Reported limit last? (seen ++ [(file, content)]) where
  limit_eq := h.limit_eq
  lines_eq := by
    have hReport := fileReport_check p.checker file content
    rw [h.limit_eq] at hReport
    simp [Progress.add, hReport, h.lines_eq]
  failures_eq := by
    have hError : (p.checker.check content).lastError? = (Grammar.check limit content).error? := by
      rw [← h.limit_eq]
      rfl
    simp only [Progress.add, hError, h.failures_eq, List.countP_append, List.countP_singleton]
    split <;> rfl
  last?_eq := by simp [Progress.add]

/-- **Any number of files is noted as if each were alone**, and the run goes on behind them. -/
theorem Reported.addAll (h : p.Reported limit last? seen) {read : ReadFile}
    {more : List (String × List UInt8)} (hMore : ∀ f ∈ more, read f.1 = .ok f.2)
    (files : List String) :
    ∃ q : Progress, q.Reported limit last? (seen ++ more) ∧
      p.addAll read (more.map Prod.fst ++ files) = q.addAll read files := by
  induction more generalizing seen p with
  | nil => exact ⟨p, by simpa using h, rfl⟩
  | cons f more ih =>
    obtain ⟨hRead, hRest⟩ := List.forall_mem_cons.1 hMore
    obtain ⟨q, hq, hRun⟩ := ih (h.add f.1 f.2) hRest
    refine ⟨q, by simpa using hq, ?_⟩
    simp [Progress.addAll, hRead, hRun]

end

end Progress

/-! ## How a run ends -/

section

variable {read : ReadFile} {files : List String} (checker : Checker)
  (last? : Option (String × List UInt8))

/-- A run that reads all its files ends with a summary, if there are two or more. -/
theorem checkFiles_of_readFiles (hFiles : files = (readFiles read files).map Prod.fst) :
    ∃ p : Progress, p.Reported checker.limit last? (readFiles read files) ∧
      checkFiles read checker files last? =
        ⟨if p.failures = 0 then .valid else .invalid,
          p.lines ++ (if 1 < files.length then [summary files.length p.failures] else []),
          p.checker, p.last?⟩ := by
  obtain ⟨p, hReported, hRun⟩ :=
    (Progress.reported_start checker last?).addAll (read_of_mem_readFiles read files) []
  refine ⟨p, hReported, ?_⟩
  rw [List.append_nil, ← hFiles] at hRun
  simp [checkFiles, hRun, Progress.addAll]

/-- A run that comes to a file it cannot read ends there. -/
theorem checkFiles_of_unread {file : String} {failure : ReadFailure} {more : List String}
    (hFiles : files = (readFiles read files).map Prod.fst ++ file :: more)
    (hFile : read file = .error failure) :
    ∃ p : Progress, p.Reported checker.limit last? (readFiles read files) ∧
      checkFiles read checker files last? =
        ⟨.failed, p.lines ++ [failure.report file], p.checker, p.last?⟩ := by
  obtain ⟨p, hReported, hRun⟩ :=
    (Progress.reported_start checker last?).addAll (read_of_mem_readFiles read files)
      (file :: more)
  refine ⟨p, hReported, ?_⟩
  rw [← hFiles] at hRun
  simp [checkFiles, hRun, Progress.addAll, hFile]

end

/-- The line on a file, with the words of the report. -/
theorem verdictLine_eq (file : String) (v : Grammar.Verdict) :
    verdictLine file v = file ++ ": " ++ v.error?.elim "ok" SyntaxError.display := by
  unfold verdictLine
  cases v.error? with
  | none =>
    rw [Option.elim_none, String.append_assoc]
    rfl
  | some e => rfl

/-- **Every file is reported on as if it were checked alone.**  Whatever the checker went through
before: the run fails with status 2 if and only if some file cannot be read.  Then the reports are
those on the files before the first such file, and the reason why it cannot be read.  Otherwise
there is a report on every file and, behind two or more, a summary, and the status tells whether all
of them are programs.  The last file is the last that was read, or that of before if none was. -/
theorem files_checked_alone (read : ReadFile) (checker : Checker) (files : List String)
    (last? : Option (String × List UInt8)) :
    let outcome := checkFiles read checker files last?
    let seen := readFiles read files
    let error? := fun f : String × List UInt8 =>
      ((Checker.new checker.limit).check f.2).lastError?
    let reports := seen.map fun f => f.1 ++ ": " ++ (error? f).elim "ok" SyntaxError.display
    (outcome.status.code = 2 ↔ ∃ file ∈ files, ∃ failure, read file = .error failure) ∧
    (∀ f ∈ seen, read f.1 = .ok f.2) ∧ outcome.last? = seen.getLast?.or last? ∧
    ((files = seen.map Prod.fst ∧
        outcome.status.code = (if ∀ f ∈ seen, error? f = none then 0 else 1) ∧
        outcome.lines = reports ++ if 1 < files.length then
          ["Checked " ++ Nat.repr files.length ++ " file(s), " ++
            Nat.repr (seen.countP fun f => (error? f).isSome) ++ " with errors."] else []) ∨
      ∃ file failure more, files = seen.map Prod.fst ++ file :: more ∧
        read file = .error failure ∧ outcome.status.code = 2 ∧
        outcome.lines = reports ++ [match failure with
          | .notFound => "Error: File '" ++ file ++ "' not found"
          | .refused reason => "Error: cannot read '" ++ file ++ "': " ++ reason]) := by
  intro outcome seen error? reports
  have hSeen : ∀ f ∈ seen, read f.1 = .ok f.2 := read_of_mem_readFiles read files
  have hReports : seen.map (fun f => verdictLine f.1 (Grammar.check checker.limit f.2)) = reports :=
    List.map_congr_left fun f _ => verdictLine_eq f.1 _
  rcases files_cases read files with hFiles | ⟨file, failure, more, hFiles, hFile⟩
  · obtain ⟨p, hReported, hRun⟩ := checkFiles_of_readFiles checker last? hFiles
    have hFailures : p.failures = seen.countP fun f => (error? f).isSome := hReported.failures_eq
    have hNone : p.failures = 0 ↔ ∀ f ∈ seen, error? f = none := by
      rw [hFailures, List.countP_eq_zero]
      simp
    have hCode : outcome.status.code = if ∀ f ∈ seen, error? f = none then 0 else 1 := by
      simp only [outcome, hRun, hNone]
      split <;> rfl
    refine ⟨?_, hSeen, ?_, .inl ⟨hFiles, hCode, ?_⟩⟩
    · constructor
      · intro hFailed
        rw [hCode] at hFailed
        split at hFailed <;> cases hFailed
      · rintro ⟨file, hMem, failure, hFile⟩
        rw [hFiles] at hMem
        obtain ⟨f, hf, rfl⟩ := List.mem_map.1 hMem
        cases (hSeen f hf).symm.trans hFile
    · simp only [outcome, hRun, hReported.last?_eq, seen]
    · simp only [outcome, hRun, hReported.lines_eq, summary, hFailures, ← hReports, seen]
  · obtain ⟨p, hReported, hRun⟩ := checkFiles_of_unread checker last? hFiles hFile
    have hCode : outcome.status.code = 2 := by
      simp only [outcome, hRun]
      rfl
    refine ⟨?_, hSeen, ?_, .inr ⟨file, failure, more, hFiles, hFile, hCode, ?_⟩⟩
    · refine ⟨fun _ => ⟨file, ?_, failure, hFile⟩, fun _ => hCode⟩
      rw [hFiles]
      exact List.mem_append_right _ List.mem_cons_self
    · simp only [outcome, hRun, hReported.last?_eq, seen]
    · simp only [outcome, hRun, hReported.lines_eq, ← hReports, seen]
      cases failure <;> rfl

end ScriptCheck.Command
