import ScriptCheck.Checker
import ScriptCheck.Proofs.Exchange

/-!
# What a checker remembers

One checker serves many checks, with changes to its symbol table in between.  This file says what
any such history leaves behind, field by field, and that it never shows in an answer.

* `Use`, `Checker.use`, `Checker.useAll` — one use of a checker with its answer, and any number.
* `Grammar.line_check` — the line where a check stops is told by its verdict and the text alone.
* `Remembers` — what a checker knows after a history: the last verdict, the last message of a
  failure, and the table that the changes alone have made.  Every use keeps it (`Remembers.use`).
* `history_independent` — **no use changes what a later one answers**, and all that is left of a
  history is what `Remembers` says.
-/

namespace ScriptCheck

open Source

/-! ## Where a check stops -/

/-- The line where a check of `text` stops: that of its error, or else the last one. -/
def Grammar.lineReached (limit : NestingLimit) (text : List UInt8) : Nat :=
  match (check limit text).error? with
  | some e => e.line
  | none => 1 + text.count lineFeed

theorem Grammar.line_check (limit : NestingLimit) (text : List UInt8) :
    (check limit text).line = lineReached limit text := by
  rcases check_cases limit text with ⟨c, ⟨st, hRun, hMove⟩, hCheck⟩ | ⟨cause, c, -, hCheck⟩
  · have hRest : c.rest = [] := (State.between_of_move hMove).2
    have hEnd : c.position = text.length := c.atEnd_iff.1 (List.isEmpty_iff.2 hRest)
    have hLine : c.line = lineAfter text := by
      rw [(hRun.exact (Config.exact_start text)).line_eq, hEnd, List.take_length]
    rw [lineReached, hCheck, hLine, lineAfter, Nat.add_comm]
  · rw [lineReached, hCheck]
    rfl

/-! ## Uses -/

/-- One use of a checker. -/
inductive Use where
  /-- Asks for the first error of a text. -/
  | check (text : List UInt8)
  /-- Asks only whether a text is a program. -/
  | exec (text : List UInt8)
  /-- Changes the symbol table in whatever way: inserts, gives a new value, empties it. -/
  | edit (change : SymbolTable → SymbolTable)

/-- What a use answers. -/
inductive Answer where
  | error? (e : Option SyntaxError)
  | valid (yes : Bool)
  | edited
  deriving DecidableEq, Repr

namespace Use

/-- The text that is checked. -/
def text? : Use → Option (List UInt8)
  | check text => some text
  | exec text => some text
  | edit _ => none

/-- The change of the symbol table. -/
def change? : Use → Option (SymbolTable → SymbolTable)
  | check _ => none
  | exec _ => none
  | edit change => some change

end Use

namespace Checker

/-- The answer to a use, and the checker after it. -/
def use (c : Checker) : Use → Answer × Checker
  | .check text => (.error? (c.check text).lastError?, c.check text)
  | .exec text => (.valid (c.check text).lastError?.isNone, c.check text)
  | .edit change => (.edited, { c with symbols := change c.symbols })

/-- The answers to uses in a row, and the checker after them. -/
def useAll (c : Checker) : List Use → List Answer × Checker
  | [] => ([], c)
  | u :: us => ((c.use u).1 :: ((c.use u).2.useAll us).1, ((c.use u).2.useAll us).2)

@[simp] theorem limit_use (c : Checker) (u : Use) : (c.use u).2.limit = c.limit := by
  cases u <;> rfl

/-- Only the limit of a checker shows in an answer. -/
theorem answer_use (c : Checker) (u : Use) : (c.use u).1 = ((new c.limit).use u).1 := by
  cases u <;> rfl

theorem answers_useAll (c : Checker) (us : List Use) :
    (c.useAll us).1 = us.map fun u => ((new c.limit).use u).1 := by
  induction us generalizing c with
  | nil => rfl
  | cons u us ih =>
    rw [useAll, List.map_cons, ← answer_use, ih, limit_use]

end Checker

/-! ## What is left of a history -/

/-- After the uses `us`, starting with nothing, a checker knows no more than this. -/
structure Remembers (limit : NestingLimit) (us : List Use) (c : Checker) : Prop where
  limit_eq : c.limit = limit
  lastError?_eq : c.lastError? =
    (us.filterMap Use.text?).getLast?.bind fun text => (Grammar.check limit text).error?
  line_eq : c.line = (us.filterMap Use.text?).getLast?.elim 0 (Grammar.lineReached limit)
  message_eq : c.message =
    ((us.filterMap Use.text?).filterMap fun text =>
      (Grammar.check limit text).error?).getLast?.elim .empty fun e => .ofString e.message
  symbols_eq : c.symbols =
    (us.filterMap Use.change?).foldl (fun table change => change table) .empty

namespace Remembers

variable {limit : NestingLimit} {us : List Use} {c : Checker}

theorem new (limit : NestingLimit) : Remembers limit [] (.new limit) := ⟨rfl, rfl, rfl, rfl, rfl⟩

/-- A check replaces the verdict, and the message if it fails. -/
theorem record {u : Use} {text : List UInt8} (h : Remembers limit us c)
    (hText : u.text? = some text) (hChange : u.change? = none) :
    Remembers limit (us ++ [u]) (c.check text) := by
  have hTexts : (us ++ [u]).filterMap Use.text? = us.filterMap Use.text? ++ [text] := by
    simp [hText]
  have hChanges : (us ++ [u]).filterMap Use.change? = us.filterMap Use.change? := by
    simp [hChange]
  refine ⟨h.limit_eq, ?_, ?_, ?_, ?_⟩
  · rw [hTexts, List.getLast?_concat, Checker.check, h.limit_eq]
    rfl
  · rw [hTexts, List.getLast?_concat, Checker.check, h.limit_eq]
    exact Grammar.line_check limit text
  · rw [hTexts, List.filterMap_append, Checker.check, Checker.record, h.limit_eq]
    cases hError : (Grammar.check limit text).error? with
    | none => simpa [hError] using h.message_eq
    | some e => simp [hError]
  · rw [hChanges]
    exact h.symbols_eq

/-- A change of the symbol table replaces nothing else. -/
theorem edit (h : Remembers limit us c) (change : SymbolTable → SymbolTable) :
    Remembers limit (us ++ [.edit change]) { c with symbols := change c.symbols } := by
  have hTexts : (us ++ [Use.edit change]).filterMap Use.text? = us.filterMap Use.text? := by
    simp [Use.text?]
  have hChanges : (us ++ [Use.edit change]).filterMap Use.change? =
      us.filterMap Use.change? ++ [change] := by
    simp [Use.change?]
  refine ⟨h.limit_eq, ?_, ?_, ?_, ?_⟩
  · rw [hTexts]
    exact h.lastError?_eq
  · rw [hTexts]
    exact h.line_eq
  · rw [hTexts]
    exact h.message_eq
  · rw [hChanges, List.foldl_append, ← h.symbols_eq]
    rfl

theorem use (h : Remembers limit us c) (u : Use) : Remembers limit (us ++ [u]) (c.use u).2 := by
  cases u with
  | check text | exec text => exact h.record rfl rfl
  | edit change => exact h.edit change

theorem useAll (h : Remembers limit us c) (more : List Use) :
    Remembers limit (us ++ more) (c.useAll more).2 := by
  induction more generalizing us c with
  | nil => rwa [List.append_nil]
  | cons u more ih =>
    rw [List.append_cons]
    exact ih (h.use u)

end Remembers

/-- **A history shows in no answer.**  Whatever a checker is used for in a row, it answers every
check like a checker that is new.  Its last error and line are those of the text checked last, its
message is that of the error found last, its limit stays, and its symbol table is the work of the
changes alone. -/
theorem history_independent (limit : NestingLimit) (us : List Use) :
    let texts := us.filterMap Use.text?
    let errors := texts.filterMap fun text => (Grammar.check limit text).error?
    let c := ((Checker.new limit).useAll us).2
    ((Checker.new limit).useAll us).1 = (us.map fun u => ((Checker.new limit).use u).1) ∧
      c.lastError? = (texts.getLast?.bind fun text => (Grammar.check limit text).error?) ∧
      c.line = texts.getLast?.elim 0 (Grammar.lineReached limit) ∧
      c.message = (errors.getLast?.elim .empty fun e => .ofString e.message) ∧
      c.limit = limit ∧
      c.symbols = (us.filterMap Use.change?).foldl (fun table change => change table) .empty := by
  have h : Remembers limit us ((Checker.new limit).useAll us).2 := (Remembers.new limit).useAll us
  exact ⟨Checker.answers_useAll _ us, h.lastError?_eq, h.line_eq, h.message_eq, h.limit_eq,
    h.symbols_eq⟩

end ScriptCheck
