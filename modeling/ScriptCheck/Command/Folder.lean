/-!
# Folders

A folder holds files and directories by name.  Reading a path walks through it part by part, the
way a file system does: each part must be a name in a directory, and the path must end at a file.
-/

namespace ScriptCheck.Command

/-- Why a file cannot be read. -/
inductive ReadFailure where
  /-- There is no such file. -/
  | notFound
  /-- The system refuses, for the reason it gives. -/
  | refused (reason : String)
  deriving DecidableEq, Repr

namespace ReadFailure

/-- The path ends at a directory. -/
def isDirectory : ReadFailure := refused "Is a directory (os error 21)"

/-- The path goes on behind a file. -/
def notDirectory : ReadFailure := refused "Not a directory (os error 20)"

/-- A part of the path, or all of it, is too long. -/
def nameTooLong : ReadFailure := refused "File name too long (os error 36)"

/-- No file can have this name. -/
def nulInName : ReadFailure := refused "file name contained an unexpected NUL byte"

/-- The line that reports the failure. -/
def report (file : String) : ReadFailure → String
  | notFound => "Error: File '" ++ file ++ "' not found"
  | refused reason => "Error: cannot read '" ++ file ++ "': " ++ reason

end ReadFailure

/-- A function that reads files. -/
abbrev ReadFile := String → Except ReadFailure (List UInt8)

/-- What a name in a folder stands for. -/
inductive Entry where
  | file (content : List UInt8)
  | directory

/-- Paths from the folder, each with what it stands for, newest first. -/
structure Folder where
  entries : List (List String × Entry)

/-- A place on the way through a folder. -/
inductive Place where
  | file (content : List UInt8)
  /-- The directory with this path, innermost name first. -/
  | directory (path : List String)
  /-- A directory outside the folder. -/
  | outside

namespace Folder

/-- The most bytes in a name. -/
def mostNameBytes : Nat := 255

/-- The most bytes in a path. -/
def mostPathBytes : Nat := 4095

/-- The parts of a path. -/
def parts (path : String) : List String := path.splitOn "/"

/-- Where a path leads from the folder: its names, without the parts that stay in place and without
the names that are left again. -/
def names (path : String) : List String :=
  ((parts path).foldl
    (fun names part =>
      if part = "" ∨ part = "." then names else if part = ".." then names.tail else part :: names)
    []).reverse

/-- Puts an entry at `path`, in place of what was there. -/
def put (f : Folder) (path : String) (entry : Entry) : Folder :=
  ⟨(names path, entry) :: f.entries⟩

/-- The folder into which the given files (some content) and directories (none) were put, one after
the other. -/
def ofList (entries : List (String × Option (List UInt8))) : Folder :=
  entries.foldl (fun f (path, content) => f.put path (content.elim .directory .file)) ⟨[]⟩

/-- The place called `name` in the directory with path `path`. -/
def child (f : Folder) (path : List String) (name : String) : Except ReadFailure Place :=
  let wanted := (name :: path).reverse
  match f.entries.lookup wanted with
  | some (.file content) => .ok (.file content)
  | some .directory => .ok (.directory (name :: path))
  | none =>
    if f.entries.any fun e => wanted.isPrefixOf e.1 then .ok (.directory (name :: path))
    else .error .notFound

/-- The place around a directory. -/
def parent : List String → Place
  | [] => .outside
  | _ :: outer => .directory outer

/-- One step along a path.  Of what is outside the folder, no name is found. -/
def step (f : Folder) (place : Place) (part : String) : Except ReadFailure Place :=
  match place with
  | .file _ => .error .notDirectory
  | .directory path =>
    if part = "" ∨ part = "." then .ok place
    else if part = ".." then .ok (parent path)
    else if mostNameBytes < part.utf8ByteSize then .error .nameTooLong
    else f.child path part
  | .outside =>
    if part = "" ∨ part = "." ∨ part = ".." then .ok .outside
    else if mostNameBytes < part.utf8ByteSize then .error .nameTooLong
    else .error .notFound

/-- Where a path starts: outside if it starts with a slash. -/
def origin (path : String) : Place :=
  if path.toList.head? = some '/' then .outside else .directory []

/-- Reads the file at `path`. -/
def read (f : Folder) : ReadFile := fun path => do
  if path.contains '\x00' then .error .nulInName
  else if path.isEmpty then .error .notFound
  else if mostPathBytes < path.utf8ByteSize then .error .nameTooLong
  else
    match ← (parts path).foldlM f.step (origin path) with
    | .file content => .ok content
    | .directory _ | .outside => .error .isDirectory

end Folder

end ScriptCheck.Command
