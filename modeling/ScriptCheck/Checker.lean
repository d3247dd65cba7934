import ScriptCheck.Grammar.Program
import ScriptCheck.SymbolTable
import ScriptCheck.Text.Bounded

/-!
# Checkers

A checker checks one text after another under the same nesting limit and remembers how the last
check went.  Every check starts afresh; what an earlier one left behind never changes a later
verdict.  The message of a failed check stays until the next failure, also over checks that
succeed.  The symbol table belongs to whoever holds the checker, and no check touches it.
-/

namespace ScriptCheck

/-- A nesting limit, the memory of the last check, and a symbol table. -/
structure Checker where
  symbols : SymbolTable
  limit : NestingLimit
  /-- The line where the last check stopped, zero before the first. -/
  line : Nat
  /-- The message of the last check that failed. -/
  message : Text.Bounded
  /-- The error of the last check, if it failed. -/
  lastError? : Option SyntaxError

namespace Checker

/-- A checker that has checked nothing yet. -/
def new (limit : NestingLimit) : Checker := ⟨.empty, limit, 0, .empty, none⟩

/-- Takes note of a verdict. -/
def record (c : Checker) (v : Grammar.Verdict) : Checker :=
  { c with
    line := v.line
    message := v.error?.elim c.message fun e => .ofString e.message
    lastError? := v.error? }

/-- Checks `text` and remembers the verdict, which `lastError?` then tells. -/
def check (c : Checker) (text : List UInt8) : Checker := c.record (Grammar.check c.limit text)

end Checker

end ScriptCheck
