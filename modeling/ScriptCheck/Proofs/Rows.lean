import ScriptCheck.Proofs.Decoding
import ScriptCheck.Proofs.Exchange
import ScriptCheck.Proofs.Highlighting
import ScriptCheck.View.SourcePane

/-!
# The rows of the source pane

The check counts lines among bytes while it passes them, the source pane cuts the decoded text into
lines.  This file brings the two together: the line of an error has a row, and the rows around it
are those of the other lines.

* `lines_append`, `length_lines`, `count_le_length_lines` — the lines of a text that is put together
  where a line ends, and how many there are.
* `rowText_highlight` — colours keep the line as it is.
* `sourceRows_eq` — **the row of the error and its caret stand between the rows of the lines before
  and behind.**
* `Grammar.line_le_of_check` — **the line of an error is a line of the decoded text, or the next
  one.**
-/

namespace ScriptCheck.View

open Source Text

/-! ## Lines -/

/-- The text ends where a line ends. -/
def Ended (cs : List Char) : Prop := cs = [] ∨ cs.getLast? = some '\n'

theorem splitLineFeeds_append_lineFeed (a b : List Char) :
    splitLineFeeds (a ++ '\n' :: b) = splitLineFeeds a ++ splitLineFeeds b := by
  induction a with
  | nil => rfl
  | cons c a ih =>
    by_cases hc : c = '\n'
    · subst hc
      rw [List.cons_append, splitLineFeeds_lineFeed, splitLineFeeds_lineFeed, ih, List.cons_append]
    · obtain ⟨p, ps, h⟩ := exists_splitLineFeeds a
      have h' : splitLineFeeds (a ++ '\n' :: b) = p :: (ps ++ splitLineFeeds b) := by
        rw [ih, h, List.cons_append]
      rw [List.cons_append, splitLineFeeds_cons hc h', splitLineFeeds_cons hc h, List.cons_append]

theorem splitLineFeeds_append {a b p : List Char} {ps : List (List Char)} (ha : '\n' ∉ a)
    (h : splitLineFeeds b = p :: ps) : splitLineFeeds (a ++ b) = (a ++ p) :: ps := by
  induction a with
  | nil => exact h
  | cons c a ih =>
    rw [List.mem_cons, not_or] at ha
    exact splitLineFeeds_cons (Ne.symm ha.1) (ih ha.2)

theorem length_splitLineFeeds (cs : List Char) :
    (splitLineFeeds cs).length = cs.count '\n' + 1 := by
  induction cs with
  | nil => rfl
  | cons c cs ih =>
    by_cases hc : c = '\n'
    · subst hc
      rw [splitLineFeeds_lineFeed, List.length_cons, ih, List.count_cons_self]
    · obtain ⟨p, ps, h⟩ := exists_splitLineFeeds cs
      rw [splitLineFeeds_cons hc h, List.count_cons_of_ne hc, ← ih, h, List.length_cons,
        List.length_cons]

theorem lines_ofList (cs : List Char) : lines (String.ofList cs) =
    ((splitLineFeeds cs).dropLast.map dropReturn ++
      ((splitLineFeeds cs).getLast?.toList).filter fun piece => !piece.isEmpty).map
        String.ofList := by
  rw [lines, String.toList_ofList]

/-- A text that is put together where a line ends has the lines of its parts. -/
theorem lines_append {a : List Char} (h : Ended a) (b : List Char) :
    lines (String.ofList (a ++ b)) = lines (String.ofList a) ++ lines (String.ofList b) := by
  rcases h with rfl | h
  · rfl
  · obtain ⟨a, rfl⟩ := List.getLast?_eq_some_iff.1 h
    obtain ⟨p, ps, hb⟩ := exists_splitLineFeeds b
    have hEmpty : splitLineFeeds [] = [[]] := rfl
    rw [List.append_assoc, List.singleton_append, lines_ofList, lines_ofList, lines_ofList,
      splitLineFeeds_append_lineFeed, splitLineFeeds_append_lineFeed, hEmpty, hb]
    simp [List.getLast?_cons]

theorem length_lines {a : List Char} (h : Ended a) :
    (lines (String.ofList a)).length = a.count '\n' := by
  rcases h with rfl | h
  · rfl
  · obtain ⟨a, rfl⟩ := List.getLast?_eq_some_iff.1 h
    have hEmpty : splitLineFeeds [] = [[]] := rfl
    rw [lines_ofList, splitLineFeeds_append_lineFeed, hEmpty]
    simp [length_splitLineFeeds]

/-- Every line feed ends a line. -/
theorem count_le_length_lines (text : String) :
    text.toList.count '\n' ≤ (lines text).length := by
  have hLength := length_splitLineFeeds text.toList
  simp only [lines, List.length_map, List.length_append, List.length_dropLast]
  omega

/-! ## The text of a row -/

/-- The characters of a row. -/
def rowText (row : Line) : List Char := row.flatMap fun s => s.text.toList

@[simp] theorem rowText_nil : rowText [] = [] := rfl

@[simp] theorem rowText_cons (s : Styled) (row : Line) :
    rowText (s :: row) = s.text.toList ++ rowText row := rfl

@[simp] theorem rowText_append (row row' : Line) :
    rowText (row ++ row') = rowText row ++ rowText row' :=
  List.flatMap_append

theorem append_splitCommentFrom (before cs : List Char) :
    (splitCommentFrom before cs).1 ++ (splitCommentFrom before cs).2 = before.reverse ++ cs := by
  induction cs generalizing before with
  | nil => rfl
  | cons c cs ih =>
    rw [splitCommentFrom]
    split
    · rfl
    · simp [ih]

/-- Colours keep the line as it is. -/
theorem rowText_highlight (line : String) : rowText (highlight line) = line.toList := by
  have hCode : rowText (highlightCode (splitComment line.toList).1) =
      (splitComment line.toList).1 := by
    rw [rowText, ← List.flatMap_map, flatMap_highlightCode]
  have hLine : (splitComment line.toList).1 ++ (splitComment line.toList).2 = line.toList :=
    append_splitCommentFrom [] line.toList
  rw [highlight, rowText_append, hCode]
  split
  · rename_i hComment
    rw [List.isEmpty_iff.1 hComment, List.append_nil] at hLine
    simpa using hLine
  · simpa using hLine

theorem rowText_lineRow (number : Nat) (line : String) :
    rowText (lineRow number line) = (gutter number).toList ++ line.toList := by
  rw [lineRow, rowText_cons, rowText_highlight]

theorem rowText_failingRow (number : Nat) (line : String) :
    rowText (failingRow number line) = (gutter number).toList ++ line.toList := by
  have hHighlight : rowText ((highlight line).map fun s => { s with style := failingStyle }) =
      rowText (highlight line) := by
    rw [rowText, List.flatMap_map, rowText]
  rw [failingRow, rowText_cons, hHighlight, rowText_highlight]

/-! ## The rows around an error -/

/-- The rows of ordinary lines, of which the first has number `first`. -/
def numberedRows (first : Nat) (ls : List String) : List Line :=
  (ls.zipIdx first).map fun (line, number) => lineRow number line

/-- The row of the line of an error, which has a number also if there is no such line. -/
def errorRow (source : String) (e : SyntaxError) : Line :=
  match (lines source)[e.line - 1]? with
  | some line => failingRow e.line line
  | none => [⟨gutter e.line, Style.ink Palette.error⟩]

@[simp] theorem length_numberedRows (first : Nat) (ls : List String) :
    (numberedRows first ls).length = ls.length := by
  simp [numberedRows]

/-- The row of the line of an error shows its number and the line, if there is one. -/
theorem rowText_errorRow (source : String) (e : SyntaxError) :
    rowText (errorRow source e) =
      (gutter e.line).toList ++ ((lines source)[e.line - 1]?.getD "").toList := by
  unfold errorRow
  cases (lines source)[e.line - 1]? with
  | none => simp
  | some line => exact rowText_failingRow e.line line

theorem rowsOfLine_of_ne {e : SyntaxError} {number : Nat} (h : e.line ≠ number) (line : String) :
    rowsOfLine (some e) number line = [lineRow number line] := by
  rw [rowsOfLine, if_neg h]

/-- Lines that are not the line of the error have one row each. -/
theorem flatMap_rowsOfLine {e : SyntaxError} (first : Nat) (ls : List String)
    (h : e.line < first ∨ first + ls.length ≤ e.line) :
    (ls.zipIdx first).flatMap (fun (line, number) => rowsOfLine (some e) number line) =
      numberedRows first ls := by
  induction ls generalizing first with
  | nil => rfl
  | cons line ls ih =>
    rw [List.length_cons] at h
    have hLine : rowsOfLine (some e) first line = [lineRow first line] :=
      rowsOfLine_of_ne (by omega) line
    rw [numberedRows, List.zipIdx_cons, List.flatMap_cons, List.map_cons,
      ih (first + 1) (by omega)]
    simp only [hLine]
    rfl

/-- **Between the rows of the lines before and behind stand the row of the error and its caret.** -/
theorem sourceRows_eq {source : String} {e : SyntaxError} (hPos : 1 ≤ e.line)
    (hLe : e.line ≤ (lines source).length + 1) :
    sourceRows source (some e) =
      numberedRows 1 ((lines source).take (e.line - 1)) ++ errorRow source e :: caretRow e ::
        numberedRows (e.line + 1) ((lines source).drop e.line) := by
  rw [sourceRows, errorRow]
  generalize lines source = ls at hLe ⊢
  have hBefore := flatMap_rowsOfLine (e := e) 1 (ls.take (e.line - 1))
    (.inr (by rw [List.length_take]; omega))
  have hBehind := flatMap_rowsOfLine (e.line + 1) (ls.drop e.line) (.inl (Nat.lt_succ_self e.line))
  cases hLine : ls[e.line - 1]? with
  | none =>
    -- the error lies behind the last line
    have hLt : ls.length < e.line := by
      have := List.getElem?_eq_none_iff.1 hLine
      omega
    rw [List.take_of_length_le (by omega)] at hBefore ⊢
    simp only [hBefore, rowsBehind, if_pos hLt, List.drop_eq_nil_of_le hLt.le]
    rfl
  | some line =>
    obtain ⟨hLt, hGet⟩ := List.getElem?_eq_some_iff.1 hLine
    have hSplit : ls = ls.take (e.line - 1) ++ line :: ls.drop e.line := by
      have hDrop := List.drop_eq_getElem_cons hLt
      rw [hGet, Nat.sub_add_cancel hPos] at hDrop
      rw [← hDrop, List.take_append_drop]
    have hNumber : 1 + (ls.take (e.line - 1)).length = e.line := by
      rw [List.length_take]
      omega
    have hError : rowsOfLine (some e) e.line line = [failingRow e.line line, caretRow e] :=
      if_pos rfl
    have hRows : (ls.zipIdx 1).flatMap (fun (line, number) => rowsOfLine (some e) number line) =
        numberedRows 1 (ls.take (e.line - 1)) ++ failingRow e.line line :: caretRow e ::
          numberedRows (e.line + 1) (ls.drop e.line) := by
      conv_lhs => rw [hSplit]
      rw [List.zipIdx_append, List.flatMap_append, hBefore, hNumber, List.zipIdx_cons,
        List.flatMap_cons, hBehind]
      simp only [hError]
      rfl
    simp only [hRows, rowsBehind, if_neg (show ¬ ls.length < e.line by omega), List.append_nil]

section Placed

variable {source : String} {e : SyntaxError}

theorem length_rowsBefore (hLe : e.line ≤ (lines source).length + 1) :
    (numberedRows 1 ((lines source).take (e.line - 1))).length = e.line - 1 := by
  rw [length_numberedRows, List.length_take]
  omega

theorem getElem?_errorRow (hPos : 1 ≤ e.line) (hLe : e.line ≤ (lines source).length + 1) :
    (sourceRows source (some e))[e.line - 1]? = some (errorRow source e) := by
  have hLength := length_rowsBefore hLe
  rw [sourceRows_eq hPos hLe, List.getElem?_append_right hLength.le, hLength, Nat.sub_self]
  rfl

theorem getElem?_caretRow (hPos : 1 ≤ e.line) (hLe : e.line ≤ (lines source).length + 1) :
    (sourceRows source (some e))[e.line]? = some (caretRow e) := by
  have hLength := length_rowsBefore hLe
  rw [sourceRows_eq hPos hLe, List.getElem?_append_right (by omega), hLength, Nat.sub_sub_self hPos]
  rfl

end Placed

end ScriptCheck.View

namespace ScriptCheck.Grammar

open Source Text

/-- The place of an error of a check, among the bytes. -/
theorem exact_of_check {limit : NestingLimit} {text : List UInt8} {e : SyntaxError}
    (h : (check limit text).error? = some e) :
    e.offset ≤ text.length ∧ e.line = lineAfter (text.take e.offset) ∧
      e.column = e.offset - lineStartAfter (text.take e.offset) + 1 := by
  obtain ⟨cause, c, ⟨st, hRun, -⟩, rfl⟩ := check_error?_eq_some_iff.1 h
  have hExact : c.Exact := hRun.exact (Config.exact_start text)
  refine ⟨c.position_le, hExact.line_eq, ?_⟩
  show c.position - c.lineStart + 1 = _
  rw [hExact.lineStart_eq]
  rfl

/-- **The line of an error is a line of the decoded text, or the next one.** -/
theorem line_le_of_check {limit : NestingLimit} {text : List UInt8} {e : SyntaxError}
    (h : (check limit text).error? = some e) :
    1 ≤ e.line ∧ e.line ≤ (lines (Utf8.lossy text)).length + 1 := by
  obtain ⟨-, hLine, -⟩ := exact_of_check h
  have hBytes : (text.take e.offset).count lineFeed ≤ text.count lineFeed :=
    (List.take_sublist e.offset text).count_le lineFeed
  have hChars : text.count lineFeed ≤ (lines (Utf8.lossy text)).length := by
    rw [← Utf8.count_lossy]
    exact View.count_le_length_lines (Utf8.lossy text)
  rw [hLine, lineAfter]
  omega

end ScriptCheck.Grammar
