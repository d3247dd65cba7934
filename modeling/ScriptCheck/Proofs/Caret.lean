import ScriptCheck.Proofs.Rows
import ScriptCheck.Proofs.Scanning
import ScriptCheck.Proofs.Significance

/-!
# Where the caret stands

The caret is placed by the column of the error, which counts bytes, behind a gutter of fixed width.
The row above it shows characters, behind a gutter that grows with the number of the line.  This
file says where the caret stands in comparison.

* `lineTail`, `PlainLine` — the bytes of the last line of a text, and whether they are all ASCII.
* `Reaches.plainLine` — **where a run stops before the end of the text, the line is ASCII up to
  there**: what is read is, and a comment is left only with its line.
* `exists_line_eq` — the row of the error starts with what is shown for the bytes before it.
* `caretIndex_caretRow`, `length_gutter` — the two sides, in numbers.
* `caret_aligned_iff` — **there is one caret row, below the row of the error, and the caret stands
  under the failing place if and only if the gutter is as many characters too wide as there are more
  bytes than characters before that place.**
* `caret_beside` — both happen: `1//é` and a line with a number of five digits.
-/

namespace ScriptCheck.Source

/-! ## The last line of the bytes passed -/

/-- The bytes of the last line of `before`. -/
def lineTail (before : List UInt8) : List UInt8 := before.drop (lineStartAfter before)

/-- The last line of `before` is ASCII. -/
def PlainLine (before : List UInt8) : Prop := ∀ b ∈ lineTail before, b.toNat < 128

theorem lineTail_concat (before : List UInt8) (b : UInt8) :
    lineTail (before ++ [b]) = if b = lineFeed then [] else lineTail before ++ [b] := by
  have hLe := lineStartAfter_le before
  unfold lineTail
  rw [lineStartAfter_concat]
  split
  · exact List.drop_eq_nil_of_le (by simp)
  · rw [List.drop_append_of_le_length hLe]

theorem plainLine_nil : PlainLine [] := by
  simp [PlainLine, lineTail]

theorem plainLine_lineFeed (before : List UInt8) : PlainLine (before ++ [lineFeed]) := by
  simp [PlainLine, lineTail_concat]

theorem PlainLine.concat {before : List UInt8} (h : PlainLine before) {b : UInt8}
    (hb : b.toNat < 128) : PlainLine (before ++ [b]) := by
  intro c hc
  rw [lineTail_concat] at hc
  split at hc
  · cases hc
  · rcases List.mem_append.1 hc with hc | hc
    · exact h c hc
    · rwa [List.mem_singleton.1 hc]

theorem PlainLine.append {before w : List UInt8} (h : PlainLine before)
    (hw : ∀ b ∈ w, b.toNat < 128) : PlainLine (before ++ w) := by
  induction w generalizing before with
  | nil => rwa [List.append_nil]
  | cons b w ih =>
    rw [List.append_cons]
    exact ih (h.concat (hw b List.mem_cons_self)) fun c hc => hw c (List.mem_cons_of_mem b hc)

theorem toNat_lt_of_isSpace {b : UInt8} (h : isSpace b = true) : b.toNat < 128 := by
  simp only [isSpace, Bool.or_eq_true, beq_iff_eq] at h
  rcases h with ((rfl | rfl) | rfl) | rfl <;> decide

/-- A gap that is followed by something leaves an ASCII line behind: spaces are ASCII, and a comment
ends with its line. -/
theorem plainLine_gap {inComment : Bool} {before s : List UInt8}
    (hRest : s.drop (gapLengthFrom 0 inComment s) ≠ [])
    (h : inComment = false → PlainLine before) :
    PlainLine (before ++ s.take (gapLengthFrom 0 inComment s)) := by
  induction s generalizing inComment before with
  | nil => simp at hRest
  | cons b s ih =>
    rw [gapLengthFrom_cons] at hRest ⊢
    by_cases hIn : inComment = true
    · rw [if_pos hIn, List.drop_succ_cons] at hRest
      rw [if_pos hIn, List.take_succ_cons, List.append_cons]
      refine ih hRest fun hEnds => ?_
      obtain rfl : b = lineFeed := by simpa using hEnds
      exact plainLine_lineFeed before
    have hBefore : PlainLine before := h (Bool.eq_false_iff.2 hIn)
    rw [if_neg hIn] at hRest ⊢
    by_cases hSpace : isSpace b = true
    · rw [if_pos hSpace, List.drop_succ_cons] at hRest
      rw [if_pos hSpace, List.take_succ_cons, List.append_cons]
      exact ih hRest fun _ => hBefore.concat (toNat_lt_of_isSpace hSpace)
    rw [if_neg hSpace] at hRest ⊢
    by_cases hStart : startsComment (b :: s) = true
    · rw [if_pos hStart, List.drop_succ_cons] at hRest
      rw [if_pos hStart, List.take_succ_cons, List.append_cons]
      exact ih hRest fun hOutside => by cases hOutside
    · rw [if_neg hStart, List.take_zero, List.append_nil]
      exact hBefore

/-- The bytes passed when `n` more of those that follow are passed. -/
theorem Cursor.take_position {text : List UInt8} {c d : Cursor text} {n : Nat}
    (hn : n ≤ c.rest.length) (h : d.rest = c.rest.drop n) :
    text.take d.position = text.take c.position ++ c.rest.take n := by
  have hc := c.position_add_length_rest
  have hd := d.position_add_length_rest
  rw [h, List.length_drop] at hd
  rw [show d.position = c.position + n by omega, List.take_add, c.rest_eq]

end ScriptCheck.Source

namespace ScriptCheck.Grammar

open Source

variable {text : List UInt8} {limit : NestingLimit} {st : State} {c : Cursor text}

theorem exists_goesOn_of_isOperator {next : Option UInt8} (h : isOperator next = true) :
    ∃ ch : Char, ch.toUInt8.toNat < 128 ∧ goesOn ch next = true := by
  simp only [isOperator, Bool.or_eq_true] at h
  rcases h with (h | h) | (h | h)
  all_goals exact ⟨_, by decide, h⟩

/-- What is read is ASCII. -/
theorem Reading.toNat_lt {s : List UInt8} {st st' : State} {t : Terminal} (h : Reading s st t st') :
    ∀ b ∈ t.bytes s, b.toNat < 128 := by
  have hByte : ∀ ch : Char, ch.toUInt8.toNat < 128 → goesOn ch s.head? = true →
      ∀ b ∈ Terminal.byte.bytes s, b.toNat < 128 := by
    intro ch hch hOn b hb
    rw [bytes_of_goesOn hOn, List.mem_singleton] at hb
    rwa [hb]
  rcases h.byte_or_word with rfl | hWord
  · cases h with
    | operator hOperator =>
      obtain ⟨ch, hch, hOn⟩ := exists_goesOn_of_isOperator hOperator
      exact hByte ch hch hOn
    | equals hOn | openGroup hOn | openCall hOn | closeCall hOn | closeGroup hOn | comma hOn
    | nextTarget hOn | finish hOn => exact hByte _ (by decide) hOn
  · intro b hb
    exact toNat_lt_of_continuesName (hWord b hb)

/-- Reading a terminal that something follows leaves an ASCII line behind. -/
theorem plainLine_read {t : Terminal} {st' : State} (h : Reading c.rest st t st')
    (hRest : (c.read t).rest ≠ []) (hLine : PlainLine (text.take c.position)) :
    PlainLine (text.take (c.read t).position) := by
  have hLe := h.fits.length_le
  have hGap := gapLength_le_length (c.rest.drop (t.length c.rest))
  rw [List.length_drop] at hGap
  rw [Cursor.rest_read, Terminal.rest, beyondGap] at hRest
  have hRead : (c.read t).rest =
      c.rest.drop (t.length c.rest + gapLength (c.rest.drop (t.length c.rest))) := by
    rw [Cursor.rest_read, Terminal.rest, beyondGap, List.drop_drop]
  rw [Cursor.take_position (by omega) hRead, List.take_add, ← List.append_assoc]
  exact plainLine_gap hRest fun _ => hLine.append h.toNat_lt

/-- **Where a run stops before the end of the text, the line is ASCII up to there.** -/
theorem Reaches.plainLine (h : Reaches limit (Config.start text) (st, c)) (hRest : c.rest ≠ []) :
    PlainLine (text.take c.position) := by
  generalize hEnd : (st, c) = b at h
  induction h generalizing st c with
  | refl =>
    obtain ⟨rfl, rfl⟩ := Prod.mk.inj hEnd
    have hStart : (Cursor.start text).skipGap.rest =
        (Cursor.start text).rest.drop (gapLength text) :=
      Config.rest_start text
    have hTake := Cursor.take_position (gapLength_le_length text) hStart
    show PlainLine (text.take (Cursor.start text).skipGap.position)
    rw [hTake]
    rw [hStart] at hRest
    exact plainLine_gap hRest fun _ => plainLine_nil
  | @tail b b' hRun hStep ih =>
    subst hEnd
    cases hStep with
    | goto hMove => exact ih hRest rfl
    | @read st₁ _ c₁ t hMove =>
      have hReading := State.reading_of_move hMove
      have hPos : 0 < c₁.rest.length :=
        Nat.lt_of_lt_of_le hReading.fits.length_pos hReading.fits.length_le
      exact plainLine_read hReading hRest (ih (List.length_pos_iff.1 hPos) rfl)

/-- Before an error that is not at the end of the text the line is ASCII, and it does not end
there. -/
theorem plainLine_of_check {e : SyntaxError} (h : (check limit text).error? = some e)
    (hRest : text.drop e.offset ≠ []) :
    PlainLine (text.take e.offset) ∧ (text.drop e.offset).head? ≠ some lineFeed := by
  obtain ⟨cause, c, ⟨st, hRun, -⟩, rfl⟩ := check_error?_eq_some_iff.1 h
  replace hRest : c.rest ≠ [] := by rwa [c.rest_eq]
  refine ⟨hRun.plainLine hRest, ?_⟩
  show (text.drop c.position).head? ≠ some lineFeed
  rw [← c.rest_eq]
  intro hHead
  obtain ⟨s, hs⟩ := List.head?_eq_some_iff.1 hHead
  have hGap := hRun.gapLength_rest
  rw [hs, gapLength_space space_lineFeed] at hGap
  omega

end ScriptCheck.Grammar

namespace ScriptCheck.View

open Source Text

/-! ## The row of the error -/

/-- The bytes end where a line ends. -/
def LineEnded (s : List UInt8) : Prop := s = [] ∨ s.getLast? = some lineFeed

theorem LineEnded.toList_lossy_append {s : List UInt8} (h : LineEnded s) (t : List UInt8) :
    (Utf8.lossy (s ++ t)).toList = (Utf8.lossy s).toList ++ (Utf8.lossy t).toList := by
  refine Utf8.toList_lossy_append ?_ t
  rcases h with rfl | h
  · rfl
  · obtain ⟨s, rfl⟩ := List.getLast?_eq_some_iff.1 h
    exact Utf8.pending_concat_ascii s (by decide)

theorem LineEnded.ended {s : List UInt8} (h : LineEnded s) : Ended (Utf8.lossy s).toList := by
  rcases h with rfl | h
  · exact .inl rfl
  · obtain ⟨s, rfl⟩ := List.getLast?_eq_some_iff.1 h
    rw [Utf8.toList_lossy_lineFeed]
    exact .inr List.getLast?_concat

/-- The lines of a text behind those of its first part. -/
theorem LineEnded.drop_lines {s : List UInt8} (h : LineEnded s) (t : List UInt8) :
    (lines (Utf8.lossy (s ++ t))).drop (s.count lineFeed) = lines (Utf8.lossy t) := by
  have hAppend := lines_append h.ended (Utf8.lossy t).toList
  rw [← h.toList_lossy_append t, String.ofList_toList, String.ofList_toList,
    String.ofList_toList] at hAppend
  have hLength := length_lines h.ended
  rw [String.ofList_toList, Utf8.count_lossy] at hLength
  rw [hAppend, ← hLength, List.drop_left]

/-- The last line of the bytes passed starts where a line ends. -/
theorem lineEnded_take (before : List UInt8) :
    LineEnded (before.take (lineStartAfter before)) := by
  rcases Nat.eq_zero_or_pos (lineStartAfter before) with hZero | hPos
  · rw [hZero]
    exact .inl rfl
  · have hByte := (lineStartAfter_spec before).1.resolve_left (Nat.ne_of_gt hPos)
    have hLe := lineStartAfter_le before
    refine .inr ?_
    rw [List.getLast?_eq_getElem?, List.length_take, Nat.min_eq_left hLe,
      List.getElem?_take_of_lt (by omega), hByte]

/-- The first line of a text of which the front holds no line feed. -/
theorem head?_lines {q : List Char} (hq : '\n' ∉ q) {p : List Char} {ps : List (List Char)}
    {cs : List Char} (h : splitLineFeeds cs = p :: ps) :
    ((lines (String.ofList (q ++ cs))).head?.getD "").toList =
      if ps = [] then q ++ p else dropReturn (q ++ p) := by
  rw [lines_ofList, splitLineFeeds_append hq h]
  cases ps with
  | nil => cases q ++ p <;> simp
  | cons p' ps => simp

theorem dropReturn_append (q : List Char) {p : List Char} (hp : p ≠ []) :
    dropReturn (q ++ p) = q ++ dropReturn p := by
  unfold dropReturn
  rw [List.getLast?_append_of_ne_nil _ hp, List.dropLast_append_of_ne_nil hp]
  split <;> rfl

/-- A line that goes on behind its first bytes starts with them, also without its ending. -/
theorem exists_head?_lines {q cs : List Char} (hq : '\n' ∉ q) (h : cs.head? ≠ some '\n') :
    ∃ more, ((lines (String.ofList (q ++ cs))).head?.getD "").toList = q ++ more := by
  obtain ⟨p, ps, hSplit⟩ := exists_splitLineFeeds cs
  rw [head?_lines hq hSplit]
  by_cases hps : ps = []
  · exact ⟨p, if_pos hps⟩
  · have hp : p ≠ [] := by
      rintro rfl
      cases cs with
      | nil =>
        obtain ⟨-, rfl⟩ := List.cons.inj hSplit
        exact hps rfl
      | cons c cs =>
        have hc : c ≠ '\n' := fun hc => h (by rw [hc]; rfl)
        have hHead := (head?_splitLineFeeds hSplit hc).2 rfl
        cases hHead
    rw [if_neg hps, dropReturn_append q hp]
    exact ⟨dropReturn p, rfl⟩

/-- The line feeds passed stand before the last line. -/
theorem lineAfter_eq_count (before : List UInt8) :
    lineAfter before = (before.take (lineStartAfter before)).count lineFeed + 1 := by
  have hFeed : (lineTail before).count lineFeed = 0 :=
    List.count_eq_zero.2 (lineStartAfter_spec before).2
  have hSplit := List.take_append_drop (lineStartAfter before) before
  rw [lineAfter, ← congrArg (List.count lineFeed) hSplit, List.count_append, ← lineTail, hFeed,
    Nat.add_zero]

/-- **The line of a place starts with what is shown for its bytes before the place**, if these bytes
are ASCII or nothing follows them. -/
theorem exists_line_eq {text : List UInt8} {offset : Nat}
    (h : text.drop offset ≠ [] → PlainLine (text.take offset) ∧
      (text.drop offset).head? ≠ some lineFeed) :
    ∃ more, ((lines (Utf8.lossy text))[lineAfter (text.take offset) - 1]?.getD "").toList =
      (Utf8.lossy (lineTail (text.take offset))).toList ++ more := by
  generalize hBefore : text.take offset = before at h ⊢
  generalize hRest : text.drop offset = rest at h
  have hText : text = before.take (lineStartAfter before) ++ (lineTail before ++ rest) := by
    rw [← List.append_assoc, lineTail, List.take_append_drop, ← hBefore, ← hRest,
      List.take_append_drop]
  have hFeed : lineFeed ∉ lineTail before := (lineStartAfter_spec before).2
  have hChars : '\n' ∉ (Utf8.lossy (lineTail before)).toList := Utf8.lineFeed_notMem_lossy hFeed
  have hLine : (lines (Utf8.lossy text))[lineAfter before - 1]? =
      (lines (Utf8.lossy (lineTail before ++ rest))).head? := by
    rw [← List.head?_drop, lineAfter_eq_count, Nat.add_sub_cancel]
    conv_lhs => rw [hText]
    rw [(lineEnded_take before).drop_lines]
  rw [hLine]
  by_cases hEnd : rest = []
  · have hNone : ([] : List Char).head? ≠ some '\n' := by simp
    obtain ⟨more, hMore⟩ := exists_head?_lines hChars hNone
    rw [List.append_nil, String.ofList_toList] at hMore
    rw [hEnd, List.append_nil]
    exact ⟨more, hMore⟩
  · obtain ⟨hPlain, hHead⟩ := h hEnd
    have hSplit := Utf8.toList_lossy_append (Utf8.pieces_of_ascii hPlain).1 rest
    obtain ⟨more, hMore⟩ := exists_head?_lines hChars (Utf8.head?_lossy_ne hHead)
    refine ⟨more, ?_⟩
    rwa [← hSplit, String.ofList_toList] at hMore

/-! ## Rows with a number and rows with a caret -/

/-- The first character of the row that is no space is a caret. -/
def IsCaretRow (row : Line) : Prop := (rowText row).find? (· != ' ') = some '^'

/-- The number of characters before the caret of a row. -/
def caretIndex (row : Line) : Nat := (rowText row).idxOf '^'

theorem length_gutter (number : Nat) :
    (gutter number).length = max gutterWidth ((Nat.repr number).length + 1) := by
  simp only [gutter, gutterWidth, String.length_ofList, List.length_append, List.length_replicate,
    String.length_toList, List.length_singleton]
  omega

theorem length_gutter_eq_iff (number : Nat) :
    (gutter number).length = gutterWidth ↔ number < 10000 := by
  have hDigits : (Nat.repr number).length ≤ 4 ↔ number < 10000 :=
    Nat.length_repr_le_iff (by decide)
  rw [length_gutter, gutterWidth, ← hDigits]
  omega

/-- A row that starts with a number is no caret row. -/
theorem not_isCaretRow {row : Line} {number : Nat} {more : List Char}
    (h : rowText row = (gutter number).toList ++ more) : ¬ IsCaretRow row := by
  obtain ⟨d, ds, hDigits⟩ : ∃ d ds, (Nat.repr number).toList = d :: ds := by
    rw [Nat.toList_repr]
    exact List.exists_cons_of_ne_nil Nat.toDigits_ne_nil
  have hd : d.isDigit := by
    refine Nat.isDigit_of_mem_toDigits (b := 10) (n := number) (by decide) (by decide) ?_
    rw [← Nat.toList_repr, hDigits]
    exact List.mem_cons_self
  have hSpace : d ≠ ' ' := by
    rintro rfl
    exact absurd hd (by decide)
  have hCaret : d ≠ '^' := by
    rintro rfl
    exact absurd hd (by decide)
  unfold IsCaretRow
  rw [h, gutter, String.toList_ofList, hDigits]
  simp [List.find?_append, hSpace, hCaret]

theorem rowText_caretRow (e : SyntaxError) :
    rowText (caretRow e) = List.replicate (gutterWidth + (e.column - 1)) ' ' ++
      '^' :: ' ' :: e.cause.condition.toList := by
  simp [caretRow, caretText]

theorem isCaretRow_caretRow (e : SyntaxError) : IsCaretRow (caretRow e) := by
  unfold IsCaretRow
  rw [rowText_caretRow]
  simp [List.find?_append]

theorem caretIndex_caretRow (e : SyntaxError) :
    caretIndex (caretRow e) = gutterWidth + (e.column - 1) := by
  unfold caretIndex
  rw [rowText_caretRow, List.idxOf_append_of_notMem (by simp)]
  simp

/-- Every row but that of the caret starts with a number. -/
theorem exists_gutter_of_ne {source : String} {e : SyntaxError} (hPos : 1 ≤ e.line)
    (hLe : e.line ≤ (lines source).length + 1) {i : Nat} {row : Line}
    (h : (sourceRows source (some e))[i]? = some row) (hi : i ≠ e.line) :
    ∃ number more, rowText row = (gutter number).toList ++ more := by
  have hNumbered : ∀ first ls, row ∈ numberedRows first ls →
      ∃ number more, rowText row = (gutter number).toList ++ more := by
    intro first ls hRow
    obtain ⟨⟨line, number⟩, -, rfl⟩ := List.mem_map.1 hRow
    exact ⟨number, line.toList, rowText_lineRow number line⟩
  have hLength := length_rowsBefore hLe
  rw [sourceRows_eq hPos hLe] at h
  rcases Nat.lt_trichotomy i (e.line - 1) with hLt | rfl | hGt
  · rw [List.getElem?_append_left (by omega)] at h
    exact hNumbered _ _ (List.mem_of_getElem? h)
  · rw [List.getElem?_append_right hLength.le, hLength, Nat.sub_self] at h
    cases h
    exact ⟨e.line, _, rowText_errorRow source e⟩
  · rw [List.getElem?_append_right (by omega), hLength,
      show i - (e.line - 1) = i - e.line - 1 + 1 + 1 by omega] at h
    exact hNumbered _ _ (List.mem_of_getElem? h)

/-! ## The caret and the failing place -/

/-- The number of characters before the failing place in its row: the gutter, and what is shown for
the bytes before the place. -/
def failingIndex (text : List UInt8) (e : SyntaxError) : Nat :=
  (gutter e.line).length + (Utf8.lossy (lineTail (text.take e.offset))).length

/-- The column counts the bytes before the place. -/
theorem length_lineTail_of_check {limit : NestingLimit} {text : List UInt8} {e : SyntaxError}
    (h : (Grammar.check limit text).error? = some e) :
    (lineTail (text.take e.offset)).length = e.column - 1 := by
  obtain ⟨hOffset, -, hColumn⟩ := Grammar.exact_of_check h
  rw [lineTail, List.length_drop, List.length_take_of_le hOffset, hColumn, Nat.add_sub_cancel]

/-- The caret stands under the failing place, but for the bytes that are not shown as a character
each and for a gutter that is wider than usual. -/
theorem caretIndex_eq_iff {limit : NestingLimit} {text : List UInt8} {e : SyntaxError}
    (h : (Grammar.check limit text).error? = some e) :
    caretIndex (caretRow e) = failingIndex text e ↔
      (gutter e.line).length - gutterWidth = (lineTail (text.take e.offset)).length -
        (Utf8.lossy (lineTail (text.take e.offset))).length := by
  have hShown := Utf8.length_lossy_le (lineTail (text.take e.offset))
  have hGutter : gutterWidth ≤ (gutter e.line).length := by
    rw [length_gutter]
    exact Nat.le_max_left _ _
  rw [caretIndex_caretRow, ← length_lineTail_of_check h, failingIndex]
  omega

/-- **Where the caret stands.**  Of the rows of a failed check exactly one is a caret row, right
below the row of the failing line, which shows its number, then the characters for the bytes before
the error, then the rest.  The caret stands under the failing place if and only if the number makes
the gutter as much wider as there are more bytes than characters.  So before the end of the text it
does on every line with a number of at most four digits, and on these lines it does if every byte
before the error is shown as one character. -/
theorem caret_aligned_iff {checker : Checker} {text : List UInt8} {e : SyntaxError}
    (h : (checker.check text).lastError? = some e) :
    let rows := sourceRows (Utf8.lossy text) (some e)
    let before := lineTail (text.take e.offset)
    let shown := Utf8.lossy before
    (rows[e.line]? = some (caretRow e) ∧
        ∀ i row, rows[i]? = some row → (IsCaretRow row ↔ i = e.line)) ∧
      (∃ row more, rows[e.line - 1]? = some row ∧
        rowText row = (gutter e.line).toList ++ shown.toList ++ more) ∧
      (caretIndex (caretRow e) = failingIndex text e ↔
        (gutter e.line).length - gutterWidth = before.length - shown.length) ∧
      (e.offset < text.length →
        (caretIndex (caretRow e) = failingIndex text e ↔ e.line < 10000)) ∧
      (e.line < 10000 →
        (caretIndex (caretRow e) = failingIndex text e ↔ shown.length = before.length)) := by
  intro rows before shown
  obtain ⟨hPos, hLe⟩ := Grammar.line_le_of_check h
  have hCaretRow := getElem?_caretRow hPos hLe
  have hAligned : caretIndex (caretRow e) = failingIndex text e ↔
      (gutter e.line).length - gutterWidth = before.length - shown.length := caretIndex_eq_iff h
  refine ⟨⟨hCaretRow, ?_⟩, ?_, hAligned, ?_, ?_⟩
  · intro i row hRow
    constructor
    · intro hCaret
      by_contra hi
      obtain ⟨number, more, hText⟩ := exists_gutter_of_ne hPos hLe hRow hi
      exact not_isCaretRow hText hCaret
    · rintro rfl
      rw [hCaretRow] at hRow
      cases hRow
      exact isCaretRow_caretRow e
  · obtain ⟨more, hMore⟩ := exists_line_eq (Grammar.plainLine_of_check h)
    rw [← (Grammar.exact_of_check h).2.1] at hMore
    refine ⟨_, more, getElem?_errorRow hPos hLe, ?_⟩
    rw [rowText_errorRow, hMore, List.append_assoc]
  · intro hInside
    have hRest : text.drop e.offset ≠ [] := by simpa using hInside
    have hShown : shown.length = before.length :=
      Utf8.length_lossy_of_ascii (Grammar.plainLine_of_check h hRest).1
    have hGutter := length_gutter e.line
    rw [hAligned, ← length_gutter_eq_iff, hShown]
    omega
  · intro hLow
    have hGutter := (length_gutter_eq_iff e.line).2 hLow
    have hShown : shown.length ≤ before.length := Utf8.length_lossy_le before
    rw [hAligned, hGutter]
    omega

/-- `x=1;`, the comment `//é` on a line of its own, and ` y=;`, which fails at the semicolon: the
caret stands under it. -/
theorem caret_aligned_iff_comment :
    let text : List UInt8 :=
      [0x78, 0x3d, 0x31, 0x3b, 0x0a, 0x2f, 0x2f, 0xc3, 0xa9, 0x0a, 0x20, 0x79, 0x3d, 0x3b]
    let e : SyntaxError := ⟨.invalidNumber, 13, 3, 4, ";"⟩
    ((Checker.new .standard).check text).lastError? = some e ∧
      (sourceRows (Utf8.lossy text) (some e))[3]? = some (caretRow e) ∧
      caretIndex (caretRow e) = failingIndex text e := by
  intro text e
  have hError : ((Checker.new .standard).check text).lastError? = some e := by decide +kernel
  obtain ⟨⟨hRow, -⟩, -, -, hInside, -⟩ := caret_aligned_iff hError
  exact ⟨hError, hRow, (hInside (by decide)).2 (by decide)⟩

/-! ## Beside the failing place -/

theorem gapLength_blankLines (n : Nat) (s : List UInt8) :
    gapLength (List.replicate n lineFeed ++ s) = n + gapLength s := by
  induction n with
  | zero => simp
  | succ n ih =>
    rw [List.replicate_succ, List.cons_append, gapLength_space space_lineFeed, ih]
    omega

theorem lineStartAfter_blankLines (n : Nat) : lineStartAfter (List.replicate n lineFeed) = n := by
  cases n with
  | zero => rfl
  | succ n => simp [List.replicate_succ', lineStartAfter_concat]

/-- A text that is only a semicolon fails there, also behind a gap. -/
theorem check_semicolon {text : List UInt8} (h : beyondGap text = [0x3b]) :
    (Grammar.check .standard text).error? =
      some ((Grammar.Config.start text).2.error .invalidNumber) := by
  have hRest : (Cursor.start text).skipGap.rest = [0x3b] := by rw [← h, Cursor.rest_skipGap]; rfl
  have hBetween : Grammar.Step .standard (Grammar.Config.start text)
      (.within .expression [] false, (Grammar.Config.start text).2) := by
    refine .goto ?_
    rw [hRest]
    rfl
  have hOperand : Grammar.Step .standard
      (.within .expression [] false, (Grammar.Config.start text).2)
      (.within .operand [] false, (Grammar.Config.start text).2) := .goto rfl
  have hFail : (Grammar.State.within .operand [] false).move .standard
      (Grammar.Config.start text).2.rest = .fail .invalidNumber := by
    rw [show (Grammar.Config.start text).2.rest = [0x3b] from hRest]
    rfl
  rw [Grammar.check_of_fails ⟨_, .tail (.single hBetween) hOperand, hFail⟩]

/-- Behind empty lines, a semicolon fails in the first column. -/
theorem exists_error_blankLines (n : Nat) :
    ∃ e, (Grammar.check .standard (List.replicate n lineFeed ++ [0x3b])).error? = some e ∧
      e.line = n + 1 ∧ e.column = 1 := by
  generalize hText : List.replicate n lineFeed ++ [0x3b] = text
  have hGap : beyondGap text = [0x3b] := by
    have hNone : gapLength [0x3b] = 0 := rfl
    rw [beyondGap, ← hText, gapLength_blankLines, hNone, Nat.add_zero]
    simp
  have hError := check_semicolon hGap
  generalize hPlace : (Grammar.Config.start text).2.error .invalidNumber = e at hError
  have hOffset : e.offset = n := by
    have hLength := (Grammar.Config.start text).2.position_add_length_rest
    rw [Grammar.Config.rest_start, hGap, ← congrArg List.length hText] at hLength
    rw [← hPlace]
    show (Grammar.Config.start text).2.position = n
    simpa using hLength
  have hBefore : text.take e.offset = List.replicate n lineFeed := by
    rw [hOffset, ← hText]
    simp
  obtain ⟨-, hLine, hColumn⟩ := Grammar.exact_of_check hError
  rw [hBefore] at hLine hColumn
  refine ⟨e, hError, ?_, ?_⟩
  · rw [hLine, lineAfter, List.count_replicate_self]
  · rw [hColumn, lineStartAfter_blankLines, hOffset, Nat.sub_self]

theorem exists_caretIndex_blankLines (n : Nat) :
    ∃ e, ((Checker.new .standard).check (List.replicate n lineFeed ++ [0x3b])).lastError? = some e ∧
      caretIndex (caretRow e) = gutterWidth ∧
      failingIndex (List.replicate n lineFeed ++ [0x3b]) e = (gutter (n + 1)).length := by
  obtain ⟨e, hError, hLine, hColumn⟩ := exists_error_blankLines n
  have hBefore := length_lineTail_of_check hError
  have hShown := Utf8.length_lossy_le
    (lineTail ((List.replicate n lineFeed ++ [0x3b]).take e.offset))
  refine ⟨e, hError, ?_, ?_⟩
  · rw [caretIndex_caretRow, hColumn, Nat.sub_self, Nat.add_zero]
  · rw [failingIndex, hLine]
    omega

/-- **The caret may stand beside the failing place.**  In `1//é`, of which the comment is not ended,
it stands one character behind the place, since `é` has two bytes.  In the line with number 10000 it
stands one character before the place, since the gutter has six characters there. -/
theorem caret_beside :
    (∃ e, ((Checker.new .standard).check [0x31, 0x2f, 0x2f, 0xc3, 0xa9]).lastError? = some e ∧
      caretIndex (caretRow e) = failingIndex [0x31, 0x2f, 0x2f, 0xc3, 0xa9] e + 1) ∧
    ∃ e, ((Checker.new .standard).check
        (List.replicate 9999 lineFeed ++ [0x3b])).lastError? = some e ∧
      caretIndex (caretRow e) + 1 =
        failingIndex (List.replicate 9999 lineFeed ++ [0x3b]) e := by
  constructor
  · refine ⟨⟨.expected ';', 5, 1, 6, ""⟩, by decide +kernel, ?_⟩
    decide +kernel
  · obtain ⟨e, hError, hCaret, hFailing⟩ := exists_caretIndex_blankLines 9999
    refine ⟨e, hError, ?_⟩
    have hGutter : (gutter (9999 + 1)).length = 6 := by decide +kernel
    rw [hCaret, hFailing, hGutter]
    rfl

end ScriptCheck.View
