import ScriptCheck.Command.Report
import ScriptCheck.View.Viewer

/-!
# The command line

This file reads files, prints reports and runs the viewer on the terminal.  What it prints is
decided elsewhere.
-/

namespace ScriptCheck

open Command View

/-- The failure that the system tells by its number; some of its numbers come negated. -/
def failureOfCode (code : UInt32) (details : String) : ReadFailure :=
  match min code.toNat (UInt32.size - code.toNat) with
  | 20 => .notDirectory
  | 21 => .isDirectory
  | 36 => .nameTooLong
  | n => .refused (details ++ " (os error " ++ Nat.repr n ++ ")")

/-- Why the system did not read a file. -/
def failureOf : IO.Error → ReadFailure
  | .noFileOrDirectory _ _ _ => .notFound
  | .inappropriateType _ code details | .permissionDenied _ code details
  | .invalidArgument _ code details => failureOfCode code details
  | e => .refused (toString e)

/-- Reads a file from disk. -/
def readFromDisk (file : String) : IO (Except ReadFailure (List UInt8)) := do
  try
    return .ok (← IO.FS.readBinFile file).toList
  catch e => return .error (failureOf e)

/-- The size of the screen that the viewer draws on. -/
def screenSize : Nat × Nat := (80, 25)

/-- Shows frames and takes keys, a line at a time, until a key quits or the input ends. -/
partial def runViewer (input output : IO.FS.Stream) (viewer : Viewer) : IO Unit := do
  let (frame, settled) := viewer.draw screenSize.1 screenSize.2
  for row in frame do
    output.putStrLn (String.ofList (row.map Cell.symbol))
  unless settled.quit do
    let line ← input.getLine
    unless line.isEmpty do
      runViewer input output ((line.toList.map Key.char).foldl Viewer.press settled)

end ScriptCheck

open ScriptCheck Command View in
/-- Checks the files named by the arguments. -/
def main (args : List String) : IO UInt32 := do
  match Options.ofArguments args with
  | .error e =>
    (usageReport e).forM fun line => IO.eprintln line
    return ExitStatus.failed.code
  | .ok options =>
    let contents ← options.files.mapM fun file => return (file, ← readFromDisk file)
    let read : ReadFile := fun file => (contents.lookup file).getD (.error .notFound)
    let outcome := checkFiles read (.new options.limit) options.files
    outcome.lines.forM fun line => IO.eprintln line
    match options.view && outcome.status != .failed, outcome.last? with
    | true, some (file, content) =>
      runViewer (← IO.getStdin) (← IO.getStdout)
        (.ofChecker file (Text.Utf8.lossy content) outcome.checker)
    | _, _ => pure ()
    return outcome.status.code
