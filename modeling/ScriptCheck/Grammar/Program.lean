import ScriptCheck.Grammar.Expression

/-!
# Statements and programs

```text
program    = { statement }
statement  = clause ";"
clause     = "var" assignment { "," assignment } | assignment | expression
assignment = name "=" expression
```

The text alone decides which clause it is: the three letters `var` start a declaration, whatever
follows them; any other letter starts an assignment; everything else is an expression.  So a call
cannot stand alone as a statement.
-/

namespace ScriptCheck.Grammar

open Source Production

variable {text : List UInt8}

/-- The bytes of the word `var`. -/
def varWord : List UInt8 := ['v', 'a', 'r'].map Char.toUInt8

/-- An assignment. -/
def assignment (limit : NestingLimit) : Production text Unit := do
  name
  expect '='
  expression limit

/-- The assignments of a declaration, after the word `var`. -/
def declaration (limit : NestingLimit) : Production text Unit := do
  assignment limit
  repeatWhile (goesOn ',') do
    expect ','
    assignment limit

/-- A statement up to the semicolon that ends it. -/
def clause (limit : NestingLimit) : Production text Unit := do
  if ← skipWord varWord then declaration limit
  else if (← peek).any isLetter then assignment limit
  else expression limit

/-- A statement with the semicolon that ends it. -/
def statement (limit : NestingLimit) : Production text Unit := do
  clause limit
  expect ';'

/-- Statements to the end of the text.  Levels that an earlier failure left open are closed
first. -/
def program (limit : NestingLimit) : Production text Unit := do
  leaveAll
  repeatWhile Option.isSome (statement limit)

/-! ## Checking a whole text -/

/-- What a check finds out about a text. -/
structure Verdict where
  /-- The first error, if the text is no program. -/
  error? : Option SyntaxError
  /-- The line where the check stopped. -/
  line : Nat
  deriving DecidableEq, Repr

/-- Checks whether `text` is a program. -/
def check (limit : NestingLimit) (text : List UInt8) : Verdict :=
  match program limit (Reader.start text) with
  | .ok () r => ⟨none, r.cursor.line⟩
  | .error e r => ⟨some e, r.cursor.line⟩

end ScriptCheck.Grammar
