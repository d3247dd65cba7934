import ScriptCheck.Checker
import ScriptCheck.Command.Folder
import ScriptCheck.Command.Options

/-!
# Checking files

One checker checks file after file and reports on each in a line of its own.  A file that cannot be
read ends the run at once.  After two or more files a summary follows.
-/

namespace ScriptCheck.Command

/-- How a run ends. -/
inductive ExitStatus where
  /-- Every file is a program. -/
  | valid
  /-- Some file is not. -/
  | invalid
  /-- The arguments are wrong, or a file cannot be read. -/
  | failed
  deriving DecidableEq, Repr

/-- The number that the run gives back to the system. -/
def ExitStatus.code : ExitStatus → UInt32
  | valid => 0
  | invalid => 1
  | failed => 2

/-! ## Reports -/

/-- The report on `file` from a checker that has just checked it. -/
def fileReport (file : String) (checker : Checker) : List String :=
  match checker.lastError? with
  | none => [file ++ ": ok"]
  | some e =>
    (file ++ ": " ++ e.display) ::
      if checker.message.truncated then
        [file ++ ": (diagnostic truncated to " ++ Nat.repr checker.message.text.utf8ByteSize ++
          " bytes)"]
      else []

/-- The line after the reports on `count` files of which `failures` are no programs. -/
def summary (count failures : Nat) : String :=
  "Checked " ++ Nat.repr count ++ " file(s), " ++ Nat.repr failures ++ " with errors."

/-! ## Runs -/

/-- A run between two files. -/
structure Progress where
  checker : Checker
  /-- What was reported so far. -/
  lines : List String
  /-- How many files were no programs. -/
  failures : Nat
  /-- The last file and its content. -/
  last? : Option (String × List UInt8)

namespace Progress

/-- The run before its first file.  The last file is that of an earlier run, if there was one. -/
def start (checker : Checker) (last? : Option (String × List UInt8) := none) : Progress :=
  ⟨checker, [], 0, last?⟩

/-- Checks one more file. -/
def add (p : Progress) (file : String) (content : List UInt8) : Progress :=
  let checker := p.checker.check content
  { checker := checker
    lines := p.lines ++ fileReport file checker
    failures := if checker.lastError?.isSome then p.failures + 1 else p.failures
    last? := some (file, content) }

/-- Checks files up to the first that cannot be read, which it gives with the reason. -/
def addAll (read : ReadFile) (p : Progress) :
    List String → Progress × Option (String × ReadFailure)
  | [] => (p, none)
  | file :: files =>
    match read file with
    | .ok content => (p.add file content).addAll read files
    | .error failure => (p, some (file, failure))

end Progress

/-- What a run leaves behind. -/
structure Outcome where
  status : ExitStatus
  lines : List String
  checker : Checker
  last? : Option (String × List UInt8)

/-- Checks all files with `checker`, after a run whose last file was `last?`. -/
def checkFiles (read : ReadFile) (checker : Checker) (files : List String)
    (last? : Option (String × List UInt8) := none) : Outcome :=
  match (Progress.start checker last?).addAll read files with
  | (p, some (file, failure)) => ⟨.failed, p.lines ++ [failure.report file], p.checker, p.last?⟩
  | (p, none) =>
    ⟨if p.failures = 0 then .valid else .invalid,
      p.lines ++ (if 1 < files.length then [summary files.length p.failures] else []),
      p.checker, p.last?⟩

/-! ## The whole command -/

/-- The name of the program where it tells how to use it. -/
def programName : String := "ejs"

/-- How to use the program. -/
def usage : List String :=
  ["Usage: " ++ programName ++ " [--view] [--max-depth N] <file>...",
    "",
    "Options:",
    "  --view           Show the last file in the terminal viewer",
    "  --max-depth N    Maximum expression nesting (default " ++
      Nat.repr NestingLimit.standard.levels ++ ", at most " ++ Nat.repr NestingLimit.most ++ ")"]

/-- What is reported about wrong arguments. -/
def usageReport (e : UsageError) : List String := ("Error: " ++ e.message) :: "" :: usage

/-- Runs the command on its arguments, up to the viewer: the exit status and the reported lines. -/
def run (read : ReadFile) (args : List String) : ExitStatus × List String :=
  match Options.ofArguments args with
  | .error e => (.failed, usageReport e)
  | .ok options =>
    let outcome := checkFiles read (.new options.limit) options.files
    (outcome.status, outcome.lines)

end ScriptCheck.Command
