/-!
# Syntax errors

A check stops at the first place where the text cannot go on as a program.  A `SyntaxError` says
what was missing there (`Cause`), where the place is, and which text follows it.  The wording of
every diagnostic is in this file.
-/

namespace ScriptCheck

/-- What the grammar asked for in vain. -/
inductive Cause where
  /-- A certain character. -/
  | expected (c : Char)
  /-- A letter or an underscore, to start a name. -/
  | invalidIdentifier
  /-- A digit, to start a number. -/
  | invalidNumber
  /-- Room for one more level of expressions. -/
  | nestingTooDeep (limit : Nat)
  deriving DecidableEq, Repr

namespace Cause

/-- The condition that failed, in words. -/
def condition : Cause → String
  | expected c => "expected '" ++ String.singleton c ++ "'"
  | invalidIdentifier => "expected letter or '_'"
  | invalidNumber => "expected digit"
  | nestingTooDeep limit => "nesting depth exceeds " ++ Nat.repr limit

/-- The kind of error, in words. -/
def label : Cause → String
  | expected _ => "unexpected character"
  | invalidIdentifier => "invalid identifier"
  | invalidNumber => "invalid number"
  | nestingTooDeep _ => "nesting limit"

end Cause

/-- An error with its place in the text.  Offsets and columns count bytes; lines and columns start
at one. -/
structure SyntaxError where
  cause : Cause
  offset : Nat
  line : Nat
  column : Nat
  /-- The text that follows the place, shortened. -/
  snippet : String
  deriving DecidableEq, Repr

namespace SyntaxError

/-- The diagnostic without its place. -/
def message (e : SyntaxError) : String := "[" ++ e.snippet ++ "]: " ++ e.cause.condition

/-- The diagnostic with its place. -/
def display (e : SyntaxError) : String :=
  "Syntax error at line " ++ Nat.repr e.line ++ ", column " ++ Nat.repr e.column ++ ": " ++
    e.message

/-- Whether the error is one of depth, and not of form. -/
def isLimit (e : SyntaxError) : Bool :=
  match e.cause with
  | .nestingTooDeep _ => true
  | _ => false

end SyntaxError

end ScriptCheck
