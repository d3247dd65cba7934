/-!
# Nesting limits

Each expression inside parentheses or among call arguments is one level deeper than the expression
around it.  A limit says how many levels may be open at a time.  Whatever is asked for, a limit
never exceeds `NestingLimit.most`.
-/

namespace ScriptCheck

/-- The greatest number of levels that any limit allows. -/
def NestingLimit.most : Nat := 512

/-- The number of expression levels that may be open at a time. -/
structure NestingLimit where
  levels : Nat
  levels_le : levels ≤ NestingLimit.most
  deriving DecidableEq, Repr

namespace NestingLimit

/-- The limit nearest to the requested number of levels. -/
def clamp (requested : Nat) : NestingLimit :=
  ⟨min requested most, Nat.min_le_right requested most⟩

/-- The limit where none is asked for. -/
def standard : NestingLimit := ⟨256, by decide⟩

instance : Inhabited NestingLimit := ⟨standard⟩

end NestingLimit

end ScriptCheck
