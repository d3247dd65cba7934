import ScriptCheck.NestingLimit

/-!
# Options of the command line

```text
--view           show the last file in the viewer
--max-depth N    nest expressions at most N levels deep
```

Every other argument that starts with two dashes is an error, and the rest are files.  The argument
after `--max-depth` is its value, whatever it looks like.  Arguments are read from left to right,
and the first one that is wrong decides; a missing file shows only at the end.
-/

namespace ScriptCheck.Command

/-- What can be wrong with the arguments. -/
inductive UsageError where
  /-- `--max-depth` is the last argument. -/
  | missingDepth
  /-- The depth is not a number. -/
  | invalidDepth (value : String)
  /-- The depth is zero. -/
  | depthTooSmall
  /-- The depth is beyond the greatest limit. -/
  | depthTooLarge
  /-- There is no such option. -/
  | unknownOption (option : String)
  /-- No file is named. -/
  | noFile
  deriving DecidableEq, Repr

/-- The error in words. -/
def UsageError.message : UsageError → String
  | missingDepth => "--max-depth needs a value"
  | invalidDepth value => "Invalid depth '" ++ value ++ "'"
  | depthTooSmall => "Depth must be at least 1"
  | depthTooLarge => "Depth must be at most " ++ Nat.repr NestingLimit.most
  | unknownOption option => "Unknown option '" ++ option ++ "'"
  | noFile => "No input file provided"

/-! ## Depths -/

/-- The number that a run of decimal digits stands for. -/
def decimalValue (digits : List Char) : Nat :=
  digits.foldl (fun n d => n * 10 + (d.toNat - '0'.toNat)) 0

/-- A number as a depth is written: a plus sign if wanted, and at least one ASCII digit.  Numbers
beyond a 64-bit word are none. -/
def readDepth? (value : String) : Option Nat :=
  let digits := match value.toList with
    | '+' :: ds => ds
    | ds => ds
  if digits ≠ [] ∧ digits.all Char.isDigit ∧ decimalValue digits < UInt64.size then
    some (decimalValue digits)
  else none

/-- The limit that a depth stands for. -/
def depthLimit (value : String) : Except UsageError NestingLimit :=
  match readDepth? value with
  | none => .error (.invalidDepth value)
  | some 0 => .error .depthTooSmall
  | some depth =>
    if NestingLimit.most < depth then .error .depthTooLarge else .ok (.clamp depth)

/-! ## Argument lists -/

/-- What the arguments ask for. -/
structure Options where
  view : Bool
  limit : NestingLimit
  files : List String
  deriving DecidableEq, Repr

namespace Options

/-- What no argument asks for. -/
def initial : Options := ⟨false, .standard, []⟩

/-- Whether an argument looks like an option. -/
def isOption (arg : String) : Bool := ['-', '-'].isPrefixOf arg.toList

/-- Adds what the arguments ask for to what was asked for before them. -/
def add (o : Options) : List String → Except UsageError Options
  | [] => .ok o
  | arg :: rest =>
    if arg = "--view" then add { o with view := true } rest
    else if arg = "--max-depth" then
      match rest with
      | [] => .error .missingDepth
      | value :: rest => do
        let limit ← depthLimit value
        add { o with limit := limit } rest
    else if isOption arg then .error (.unknownOption arg)
    else add { o with files := o.files ++ [arg] } rest

/-- The options of an argument list, without the name of the program. -/
def ofArguments (args : List String) : Except UsageError Options := do
  let options ← add initial args
  if options.files.isEmpty then .error .noFile else .ok options

end Options

end ScriptCheck.Command
