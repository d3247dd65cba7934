import ScriptCheck.Grammar.Production
import ScriptCheck.NestingLimit

/-!
# Expressions

```text
expression = term { ("+" | "-") term }
term       = factor { ("*" | "/") factor }
factor     = number | name [ arguments ] | "(" expression ")"
arguments  = "(" { argument } ")"
argument   = expression [ "," ]
```

There is no sign in front of a factor.  Arguments need no comma between them and allow one after
the last.  A name that starts with an underscore is no factor.

Every expression takes one level from its reader, and the expressions inside it take theirs from
what is left: that number, and not the text, bounds the recursion.
-/

namespace ScriptCheck.Grammar

open Source Production

variable {text : List UInt8}

/-- Whether the text goes on with the character `c`. -/
def goesOn (c : Char) (next : Option UInt8) : Bool := next == some c.toUInt8

/-- An argument with the comma behind it, if there is one. -/
def argument (nested : Production text Unit) : Production text Unit := do
  nested
  if goesOn ',' (← peek) then expect ','

/-- An argument list, given how an expression inside it is read. -/
def arguments (nested : Production text Unit) : Production text Unit := do
  expect '('
  repeatWhile (fun next => !goesOn ')' next) (argument nested)
  expect ')'

/-- A factor, given how an expression inside it is read. -/
def factor (nested : Production text Unit) : Production text Unit := do
  let next ← peek
  if goesOn '(' next then
    expect '('
    nested
    expect ')'
  else if next.any isLetter then
    name
    if goesOn '(' (← peek) then arguments nested
  else
    discard number

/-- A term, given how an expression inside it is read. -/
def term (nested : Production text Unit) : Production text Unit := do
  factor nested
  repeatWhile (fun next => goesOn '*' next || goesOn '/' next) do
    operator
    factor nested

/-- The terms of an expression, given how an expression inside it is read. -/
def terms (nested : Production text Unit) : Production text Unit := do
  term nested
  repeatWhile (fun next => goesOn '+' next || goesOn '-' next) do
    operator
    term nested

/-- An expression for which `free` more levels may be opened.  Without a free level it fails
before it reads anything. -/
def expressionWithin (limit : NestingLimit) : (free : Nat) → Production text Unit
  | 0 => failAt (.nestingTooDeep limit.levels)
  | free + 1 => do
    enter
    terms (expressionWithin limit free)
    leave

/-- An expression: as many levels are free as the limit has above those that are open. -/
def expression (limit : NestingLimit) : Production text Unit :=
  fun r => expressionWithin limit (limit.levels - r.depth) r

end ScriptCheck.Grammar
