import Mathlib.Data.List.SplitBy
import ScriptCheck.Proofs.Rows

/-!
# The segments of a line in its colours

A line in its colours is cut by a rule that looks at one place of the line at a time: words go as
far as they can, any other character stands alone, and from the first two slashes in a row on there
is one comment.  This file states that rule without a word on how a line is cut and shows that there
is one way only to follow it.

* `FirstComment` — the code and the comment of a line.
* `Segment`, `Segmented` — the rule for the code.
* `FirstComment.unique`, `firstComment_splitComment` — every line has one code and one comment.
* `Segment.highlightCode_append`, `exists_segment` — the code is coloured segment by segment, and as
  long as there is code there is a next segment.
* `highlightLoop`, `highlight_eq_highlightLoop` — the same colours in one pass over the characters,
  which keeps the word that is pending.
* `highlight_eq_iff_segmented` — **the colours of a line are what the rule says, and nothing is
  lost.**
-/

namespace ScriptCheck.View

/-! ## The code and the comment of a line -/

/-- `comment` is what stands in `line` from the first two slashes in a row on, and `code` is what
stands before.  A line without such slashes has the empty comment. -/
structure FirstComment (line code comment : List Char) : Prop where
  append_eq : code ++ comment = line
  starts : comment = [] ∨ ['/', '/'] <+: comment
  first : ∀ i < code.length, ¬ ['/', '/'] <+: line.drop i

theorem slashes_isPrefix_cons {c : Char} {cs : List Char} :
    ['/', '/'] <+: c :: cs ↔ c = '/' ∧ cs.head? = some '/' := by
  rw [List.cons_prefix_cons, eq_comm]
  cases cs with
  | nil => simp
  | cons d cs => simp [List.cons_prefix_cons, eq_comm]

/-- No line has two comments. -/
theorem FirstComment.length_le {line code comment code' comment' : List Char}
    (h : FirstComment line code comment) (h' : FirstComment line code' comment') :
    code'.length ≤ code.length := by
  by_contra hLt
  rw [not_le] at hLt
  have hDrop : line.drop code.length = comment := by
    rw [← h.append_eq, List.drop_left]
  rcases h.starts with hNil | hSlashes
  · -- the code is all of the line then
    have hLength := congrArg List.length (h.append_eq.trans h'.append_eq.symm)
    rw [hNil, List.append_nil, List.length_append] at hLength
    omega
  · apply h'.first _ hLt
    rw [hDrop]
    exact hSlashes

/-- The code and the comment of a line are determined by the line. -/
theorem FirstComment.unique {line code comment code' comment' : List Char}
    (h : FirstComment line code comment) (h' : FirstComment line code' comment') :
    code' = code ∧ comment' = comment := by
  apply List.append_inj (h'.append_eq.trans h.append_eq.symm)
  exact le_antisymm (h.length_le h') (h'.length_le h)

theorem append_splitComment (line : List Char) :
    (splitComment line).1 ++ (splitComment line).2 = line :=
  append_splitCommentFrom [] line

/-- Before a character that starts no comment, the cut goes where it goes without the character. -/
theorem FirstComment.cons {line code comment : List Char} (h : FirstComment line code comment)
    {c : Char} (hc : ¬ (c = '/' ∧ line.head? = some '/')) :
    FirstComment (c :: line) (c :: code) comment where
  append_eq := by rw [List.cons_append, h.append_eq]
  starts := h.starts
  first i hi := by
    cases i with
    | zero => exact fun hSlashes => hc (slashes_isPrefix_cons.1 hSlashes)
    | succ i => exact h.first i (Nat.lt_of_succ_lt_succ hi)

/-- How the cut before the first comment goes on over one more character. -/
theorem splitComment_cons (c : Char) (cs : List Char) :
    splitComment (c :: cs) = if c = '/' ∧ cs.head? = some '/' then ([], c :: cs)
      else (c :: (splitComment cs).1, (splitComment cs).2) := by
  have hCode := fst_splitComment_cons c cs
  have hAppend := append_splitComment (c :: cs)
  rw [hCode] at hAppend
  split_ifs at hCode hAppend ⊢ with hc
  · exact Prod.ext hCode hAppend
  · refine Prod.ext hCode ?_
    apply (List.append_right_inj (splitComment cs).1).1
    exact (List.cons.inj hAppend).2.trans (append_splitComment cs).symm

/-- The viewer cuts a line at its first comment. -/
theorem firstComment_splitComment (line : List Char) :
    FirstComment line (splitComment line).1 (splitComment line).2 := by
  induction line with
  | nil => exact ⟨rfl, .inl rfl, by simp [splitComment, splitCommentFrom]⟩
  | cons c cs ih =>
    rw [splitComment_cons]
    split_ifs with hc
    · exact ⟨rfl, .inr (slashes_isPrefix_cons.2 hc), by simp⟩
    · exact ih.cons hc

/-! ## The rule for the code -/

/-- Letters and digits of ASCII and underscores make up words. -/
def InWord (c : Char) : Prop :=
  ('a' ≤ c ∧ c ≤ 'z') ∨ ('A' ≤ c ∧ c ≤ 'Z') ∨ ('0' ≤ c ∧ c ≤ '9') ∨ c = '_'

/-- Between `before` and `after`, `word` is a word that goes as far as it can. -/
structure MaximalWord (before word after : List Char) : Prop where
  ne_nil : word ≠ []
  inWord : ∀ c ∈ word, InWord c
  left : ∀ c ∈ before.getLast?, ¬ InWord c
  right : ∀ c ∈ after.head?, ¬ InWord c

/-- The word starts with a digit. -/
def StartsWithDigit (word : List Char) : Prop := ∃ d ∈ word.head?, '0' ≤ d ∧ d ≤ '9'

/-- The style of a word before the character `next`: the keyword is told first, then a number, then
a function that is called. -/
structure WordStyled (word : List Char) (next : Option Char) (style : Style) : Prop where
  keyword : style = (Style.ink Palette.keyword).strong ↔ word = ['v', 'a', 'r']
  number : style = Style.ink Palette.number ↔ word ≠ ['v', 'a', 'r'] ∧ StartsWithDigit word
  function : style = Style.ink Palette.function ↔
    word ≠ ['v', 'a', 'r'] ∧ ¬ StartsWithDigit word ∧ next = some '('
  plain : style = Style.ink Palette.text ↔
    word ≠ ['v', 'a', 'r'] ∧ ¬ StartsWithDigit word ∧ next ≠ some '('

/-- `s` is a segment of a line, between what stands before and after it. -/
inductive Segment (before : List Char) (s : Styled) (after : List Char) : Prop
  /-- A word is one segment. -/
  | word (hWord : MaximalWord before s.text.toList after)
      (hStyle : WordStyled s.text.toList after.head? s.style)
  /-- A character that is in no word is one segment, and parentheses stand out. -/
  | mark (c : Char) (hText : s.text.toList = [c]) (hMark : ¬ InWord c)
      (hStyle : s.style = if c = '(' ∨ c = ')' then Style.ink Palette.primary
        else Style.ink Palette.text)

/-- Every span of `row`, which stands between `before` and `after`, is a segment where it stands. -/
def Segmented (before : List Char) (row : Line) (after : List Char) : Prop :=
  ∀ left s right, row = left ++ s :: right →
    Segment (before ++ rowText left) s (rowText right ++ after)

/-- The span of a comment, if there is one. -/
def commentRow (comment : List Char) : Line :=
  if comment = [] then [] else [⟨String.ofList comment, Style.ink Palette.comment⟩]

theorem segmented_nil (before after : List Char) : Segmented before [] after := by
  intro left s right h
  simp at h

/-- A row is segmented if its first span is a segment and the other spans are, which stand behind
it. -/
theorem segmented_cons {before after : List Char} {s : Styled} {row : Line} :
    Segmented before (s :: row) after ↔
      Segment before s (rowText row ++ after) ∧
        Segmented (before ++ s.text.toList) row after := by
  constructor
  · intro h
    constructor
    · simpa using h [] s row rfl
    · intro left t right hRow
      simpa using h (s :: left) t right (by rw [hRow, List.cons_append])
  · rintro ⟨hSegment, hRow⟩ left t right h
    cases left with
    | nil =>
      obtain ⟨rfl, rfl⟩ := List.cons.inj h
      simpa using hSegment
    | cons u left =>
      obtain ⟨rfl, rfl⟩ := List.cons.inj h
      simpa using hRow left t right rfl

/-! ## Words and styles -/

theorem isDigit_iff (c : Char) : c.isDigit = true ↔ '0' ≤ c ∧ c ≤ '9' := by
  have hClass : c.isDigit = (decide ('0' ≤ c) && decide (c ≤ '9')) := rfl
  simp [hClass]

theorem isWordChar_iff (c : Char) : isWordChar c = true ↔ InWord c := by
  have hUpper : c.isUpper = decide ('A' ≤ c ∧ c ≤ 'Z') := rfl
  have hLower : c.isLower = (decide ('a' ≤ c) && decide (c ≤ 'z')) := rfl
  have hClass : isWordChar c = (((c.isUpper || c.isLower) || c.isDigit) || c == '_') := rfl
  simp only [hClass, InWord, hUpper, hLower, Bool.or_eq_true, Bool.and_eq_true, decide_eq_true_eq,
    isDigit_iff, beq_iff_eq]
  tauto

theorem any_isDigit_iff (word : List Char) :
    word.head?.any Char.isDigit = true ↔ StartsWithDigit word := by
  cases word with
  | nil => simp [StartsWithDigit]
  | cons c word => simp [StartsWithDigit, isDigit_iff]

/-- The four styles of words differ from each other. -/
theorem wordStyles_nodup : [(Style.ink Palette.keyword).strong, Style.ink Palette.number,
    Style.ink Palette.function, Style.ink Palette.text].Nodup := by decide

/-- The rule for the style of a word leaves no choice. -/
theorem wordStyled_iff {word : List Char} {next : Option Char} {style : Style} :
    WordStyled word next style ↔ style = wordStyle word (next == some '(') := by
  have hDigit := any_isDigit_iff word
  rw [wordStyle]
  constructor
  · intro h
    split_ifs with hVar hHead hCall
    · exact h.keyword.2 hVar
    · exact h.number.2 ⟨hVar, hDigit.1 hHead⟩
    · exact h.function.2 ⟨hVar, hDigit.not.1 hHead, beq_iff_eq.1 hCall⟩
    · exact h.plain.2 ⟨hVar, hDigit.not.1 hHead, beq_iff_eq.not.1 hCall⟩
  · rintro rfl
    have hStyles := wordStyles_nodup
    split_ifs with hVar hHead hCall <;> constructor <;> grind

/-! ## Segment by segment -/

/-- Two characters next to each other that are not both of a word: one piece ends here and the next
one starts. -/
def Parted (before after : List Char) : Prop :=
  ∀ a ∈ before.getLast?, ∀ b ∈ after.head?, ¬ (InWord a ∧ InWord b)

theorem parted_nil (after : List Char) : Parted [] after := by
  simp [Parted]

theorem rowText_highlightCode (code : List Char) : rowText (highlightCode code) = code := by
  rw [rowText, ← List.flatMap_map, flatMap_highlightCode]

/-- A piece of the code stands first among the pieces. -/
theorem codePieces_append {piece rest : List Char} (hNe : piece ≠ [])
    (hChain : piece.IsChain fun a b => InWord a ∧ InWord b) (hParted : Parted piece rest) :
    codePieces (piece ++ rest) = piece :: codePieces rest := by
  have hPiece : codePieces piece = [piece] := by
    apply List.splitBy_of_isChain hNe
    simpa only [Bool.and_eq_true, isWordChar_iff] using hChain
  have hCut : codePieces (piece ++ rest) = codePieces piece ++ codePieces rest := by
    apply List.splitBy_append
    intro a ha b hb
    rw [← Bool.not_eq_true, Bool.and_eq_true, isWordChar_iff, isWordChar_iff]
    exact hParted a ha b hb
  rw [hCut, hPiece, List.singleton_append]

/-- The first piece of the code starts as the code does. -/
theorem head?_headD_codePieces (code : List Char) :
    ((codePieces code).headD []).head? = code.head? := by
  have hFlatten : (codePieces code).flatten = code := List.flatten_splitBy _ code
  have hNe : [] ∉ codePieces code := List.nil_notMem_splitBy _ code
  generalize codePieces code = pieces at hFlatten hNe
  subst hFlatten
  cases pieces with
  | nil => rfl
  | cons piece pieces =>
    obtain ⟨c, piece, rfl⟩ := List.exists_cons_of_ne_nil (List.ne_of_not_mem_cons hNe).symm
    rfl

theorem pieceStyle_congr (piece : List Char) {next next' : List Char}
    (h : next.head? = next'.head?) : pieceStyle piece next = pieceStyle piece next' := by
  cases piece with
  | nil => rfl
  | cons c piece => rw [pieceStyle, pieceStyle, h]

/-- The first piece is coloured by itself and by the character behind it. -/
theorem highlightCode_eq_cons {code piece rest : List Char}
    (h : codePieces code = piece :: codePieces rest) :
    highlightCode code = ⟨String.ofList piece, pieceStyle piece rest⟩ :: highlightCode rest := by
  rw [pieceStyle_congr piece (head?_headD_codePieces rest).symm, highlightCode, highlightCode, h]
  cases codePieces rest with
  | nil => rfl
  | cons next pieces => rfl

section Segments

variable {before rest comment : List Char} {s : Styled}

/-- Behind the code, only a slash can follow that is not of the code. -/
theorem head?_append_comment (hComment : comment = [] ∨ ['/', '/'] <+: comment) {c : Char}
    (hc : c ≠ '/') : (rest ++ comment).head? = some c ↔ rest.head? = some c := by
  cases rest with
  | cons d rest => rfl
  | nil =>
    rcases hComment with rfl | ⟨text, rfl⟩
    · rfl
    · simp [hc.symm]

theorem Segment.text_ne_nil {after : List Char} (h : Segment before s after) :
    s.text.toList ≠ [] := by
  cases h with
  | word hWord _ => exact hWord.ne_nil
  | mark c hText _ _ => simp [hText]

theorem Segment.isChain {after : List Char} (h : Segment before s after) :
    s.text.toList.IsChain fun a b => InWord a ∧ InWord b := by
  cases h with
  | word hWord _ =>
    apply List.Pairwise.isChain
    exact List.pairwise_of_forall_mem_list fun a ha b hb => ⟨hWord.inWord a ha, hWord.inWord b hb⟩
  | mark c hText _ _ =>
    rw [hText]
    exact List.isChain_singleton c

/-- A segment ends where the next one starts. -/
theorem Segment.parted (h : Segment before s (rest ++ comment)) :
    Parted (before ++ s.text.toList) rest := by
  intro a ha b hb
  rw [List.getLast?_append_of_ne_nil _ h.text_ne_nil] at ha
  cases h with
  | word hWord _ =>
    rintro ⟨-, hb'⟩
    apply hWord.right b _ hb'
    rw [List.head?_append, Option.mem_def.1 hb]
    rfl
  | mark c hText hMark _ =>
    rintro ⟨ha', -⟩
    rw [hText] at ha
    obtain rfl : c = a := by simpa using ha
    exact hMark ha'

theorem Segment.style_eq (hComment : comment = [] ∨ ['/', '/'] <+: comment)
    (h : Segment before s (rest ++ comment)) : s.style = pieceStyle s.text.toList rest := by
  cases h with
  | word hWord hStyle =>
    have hCall : ((rest ++ comment).head? == some '(') = (rest.head? == some '(') := by
      rw [Bool.eq_iff_iff, beq_iff_eq, beq_iff_eq]
      exact head?_append_comment hComment (by decide)
    obtain ⟨c, word, hText⟩ := List.exists_cons_of_ne_nil hWord.ne_nil
    have hc : isWordChar c = true := (isWordChar_iff c).2 (hWord.inWord c (by simp [hText]))
    rw [wordStyled_iff.1 hStyle, hCall, hText, pieceStyle, if_pos hc]
  | mark c hText hMark hStyle =>
    rw [hText, pieceStyle, if_neg ((isWordChar_iff c).not.2 hMark), markStyle, hStyle]
    simp only [Bool.or_eq_true, beq_iff_eq]

/-- **The code is coloured segment by segment.** -/
theorem Segment.highlightCode_append (hComment : comment = [] ∨ ['/', '/'] <+: comment)
    (h : Segment before s (rest ++ comment)) :
    highlightCode (s.text.toList ++ rest) = s :: highlightCode rest := by
  have hParted : Parted s.text.toList rest := by
    intro a ha
    apply h.parted a
    rw [List.getLast?_append_of_ne_nil _ h.text_ne_nil]
    exact ha
  rw [highlightCode_eq_cons (codePieces_append h.text_ne_nil h.isChain hParted),
    String.ofList_toList, ← h.style_eq hComment]

/-- The word characters that come next make up a word that goes as far as it can. -/
theorem maximalWord_takeWhile (hComment : comment = [] ∨ ['/', '/'] <+: comment) {c : Char}
    (hc : InWord c) {cs : List Char} (hParted : Parted before (c :: cs)) :
    MaximalWord before ((c :: cs).takeWhile isWordChar)
      ((c :: cs).dropWhile isWordChar ++ comment) where
  ne_nil := by simp [(isWordChar_iff c).2 hc]
  inWord d hd := (isWordChar_iff d).1 (List.mem_takeWhile_imp hd)
  left a ha ha' := hParted a ha c rfl ⟨ha', hc⟩
  right d hd hd' := by
    have hSlash : d ≠ '/' := by
      rintro rfl
      exact absurd hd' (by simp [InWord])
    have hStop := List.head?_dropWhile_not isWordChar (c :: cs)
    rw [(head?_append_comment hComment hSlash).1 hd] at hStop
    simp [(isWordChar_iff d).2 hd'] at hStop

/-- As long as there is code, there is a next segment. -/
theorem exists_segment (hComment : comment = [] ∨ ['/', '/'] <+: comment) {code : List Char}
    (hCode : code ≠ []) (hParted : Parted before code) :
    ∃ s rest, code = s.text.toList ++ rest ∧ Segment before s (rest ++ comment) := by
  obtain ⟨c, cs, rfl⟩ := List.exists_cons_of_ne_nil hCode
  by_cases hc : InWord c
  · have hWord := maximalWord_takeWhile hComment hc hParted
    have hCut : (c :: cs).takeWhile isWordChar ++ (c :: cs).dropWhile isWordChar = c :: cs :=
      List.takeWhile_append_dropWhile
    generalize (c :: cs).takeWhile isWordChar = word at hWord hCut
    generalize (c :: cs).dropWhile isWordChar = rest at hWord hCut
    refine ⟨⟨String.ofList word, wordStyle word ((rest ++ comment).head? == some '(')⟩, rest,
      by simp [hCut], ?_⟩
    apply Segment.word
    · rwa [String.toList_ofList]
    · rw [String.toList_ofList, wordStyled_iff]
  · refine ⟨⟨String.ofList [c], if c = '(' ∨ c = ')' then Style.ink Palette.primary
      else Style.ink Palette.text⟩, cs, by simp, ?_⟩
    exact .mark c String.toList_ofList hc rfl

end Segments

/-! ## The colours of a line -/

variable {comment : List Char}

/-- The colours of the code follow the rule. -/
theorem segmented_highlightCode (hComment : comment = [] ∨ ['/', '/'] <+: comment)
    {before code : List Char} (hParted : Parted before code) :
    Segmented before (highlightCode code) comment := by
  -- the induction is on the code that is left, and each segment takes some of it
  induction hLength : code.length using Nat.strong_induction_on generalizing before code with
  | _ n ih =>
    subst hLength
    by_cases hCode : code = []
    · subst hCode
      exact segmented_nil before comment
    obtain ⟨s, rest, rfl, hSegment⟩ := exists_segment hComment hCode hParted
    have hLt : rest.length < (s.text.toList ++ rest).length := by
      have := List.length_pos_of_ne_nil hSegment.text_ne_nil
      rw [List.length_append]
      omega
    rw [hSegment.highlightCode_append hComment, segmented_cons, rowText_highlightCode]
    exact ⟨hSegment, ih _ hLt hSegment.parted rfl⟩

/-- The rule leaves no choice. -/
theorem Segmented.highlightCode_rowText (hComment : comment = [] ∨ ['/', '/'] <+: comment)
    {before : List Char} {row : Line} (h : Segmented before row comment) :
    highlightCode (rowText row) = row := by
  induction row generalizing before with
  | nil => rfl
  | cons s row ih =>
    obtain ⟨hSegment, hRow⟩ := segmented_cons.1 h
    rw [rowText_cons, hSegment.highlightCode_append hComment, ih hRow]

theorem Segmented.text_ne_empty {before : List Char} {row : Line}
    (h : Segmented before row comment) {s : Styled} (hs : s ∈ row) : s.text ≠ "" := by
  obtain ⟨left, right, hRow⟩ := List.append_of_mem hs
  intro hText
  apply (h left s right hRow).text_ne_nil
  simp [hText]

theorem text_ne_empty_of_mem_commentRow {s : Styled} (hs : s ∈ commentRow comment) :
    s.text ≠ "" := by
  by_cases hNil : comment = []
  · simp [commentRow, hNil] at hs
  · rw [commentRow, if_neg hNil, List.mem_singleton] at hs
    simp [hs, hNil]

theorem highlight_eq_append (line : String) :
    highlight line = highlightCode (splitComment line.toList).1 ++
      commentRow (splitComment line.toList).2 := by
  simp only [highlight, commentRow, List.isEmpty_iff]

/-! ## With a pending word -/

/-- The span of a pending word, if there is one. -/
def wordRow (word : List Char) (called : Bool) : Line :=
  if word = [] then [] else [⟨String.ofList word, wordStyle word called⟩]

/-- The spans of what is left of a line while the characters of `word` are pending.  A comment takes
all that is left.  It ends the word, and so do a character that is in no word and the end of the
line. -/
def highlightLoop (word : List Char) : List Char → Line
  | [] => wordRow word false
  | c :: cs =>
    if c = '/' ∧ cs.head? = some '/' then wordRow word false ++ commentRow (c :: cs)
    else if isWordChar c then highlightLoop (word ++ [c]) cs
    else wordRow word (c == '(') ++ ⟨String.ofList [c], markStyle c⟩ :: highlightLoop [] cs

/-- A pending word is the first segment of the code that it starts. -/
theorem highlightCode_append {word rest : List Char} (hWord : ∀ c ∈ word, InWord c)
    (hRest : ∀ c ∈ rest.head?, ¬ InWord c) :
    highlightCode (word ++ rest) = wordRow word (rest.head? == some '(') ++ highlightCode rest := by
  cases word with
  | nil => rfl
  | cons c word =>
    have hChain : (c :: word).IsChain fun a b => InWord a ∧ InWord b :=
      (List.pairwise_of_forall_mem_list fun a ha b hb => ⟨hWord a ha, hWord b hb⟩).isChain
    have hParted : Parted (c :: word) rest := fun a _ b hb hBoth => hRest b hb hBoth.2
    have hc : isWordChar c = true := (isWordChar_iff c).2 (hWord c List.mem_cons_self)
    rw [highlightCode_eq_cons (codePieces_append (List.cons_ne_nil c word) hChain hParted),
      pieceStyle, if_pos hc, wordRow, if_neg (List.cons_ne_nil c word), List.singleton_append]

/-- A character that is in no word is the first segment of the code that it starts. -/
theorem highlightCode_cons {c : Char} (hc : ¬ InWord c) (rest : List Char) :
    highlightCode (c :: rest) = ⟨String.ofList [c], markStyle c⟩ :: highlightCode rest := by
  have hParted : Parted [c] rest := by
    rintro a ha b - ⟨hIn, -⟩
    obtain rfl : c = a := by simpa using ha
    exact hc hIn
  have hPieces := codePieces_append (List.cons_ne_nil c []) (List.isChain_singleton c) hParted
  rw [List.singleton_append] at hPieces
  rw [highlightCode_eq_cons hPieces, pieceStyle, if_neg ((isWordChar_iff c).not.2 hc)]

/-- **The pending word and what is left of the line are coloured together.** -/
theorem highlightLoop_eq {word : List Char} (hWord : ∀ c ∈ word, InWord c) (cs : List Char) :
    highlightLoop word cs =
      highlightCode (word ++ (splitComment cs).1) ++ commentRow (splitComment cs).2 := by
  -- an ended word is one segment before nothing or before a mark
  have hAlone : ∀ {word : List Char}, (∀ c ∈ word, InWord c) →
      highlightCode word = wordRow word false := by
    intro word hWord
    have hCode : highlightCode (word ++ []) = wordRow word false ++ [] :=
      highlightCode_append hWord (by simp)
    rwa [List.append_nil, List.append_nil] at hCode
  induction cs generalizing word with
  | nil =>
    rw [highlightLoop, ← hAlone hWord]
    simp [splitComment, splitCommentFrom, commentRow]
  | cons c cs ih =>
    rw [highlightLoop, splitComment_cons]
    by_cases hSlashes : c = '/' ∧ cs.head? = some '/'
    · rw [if_pos hSlashes, if_pos hSlashes, List.append_nil, hAlone hWord]
    rw [if_neg hSlashes, if_neg hSlashes]
    by_cases hc : isWordChar c = true
    · have hMore : ∀ d ∈ word ++ [c], InWord d := by
        refine List.forall_mem_append.2 ⟨hWord, fun d hd => ?_⟩
        rw [List.mem_singleton.1 hd]
        exact (isWordChar_iff c).1 hc
      rw [if_pos hc, ih hMore, List.append_assoc, List.singleton_append]
    · have hMark : ¬ InWord c := (isWordChar_iff c).not.1 hc
      have hNone : ∀ d ∈ ([] : List Char), InWord d := by simp
      rw [if_neg hc, ih hNone, List.nil_append,
        highlightCode_append hWord (by simpa using hMark), highlightCode_cons hMark]
      simp

/-- **A line is coloured in one pass that keeps a pending word.** -/
theorem highlight_eq_highlightLoop (line : String) :
    highlight line = highlightLoop [] line.toList := by
  rw [highlight_eq_append, highlightLoop_eq (by simp), List.nil_append]

/-! ## The rule and the colours -/

/-- **A line in its colours is cut without loss and exactly by the rule.**  The spans make up the
line and none is empty.  Spans are those of the line if and only if they are segments, each where it
stands, of the code before the first two slashes in a row, and one more span for the comment from
there on. -/
theorem highlight_eq_iff_segmented (line : String) :
    String.join ((highlight line).map Styled.text) = line ∧
    (∀ s ∈ highlight line, s.text ≠ "") ∧
    ∀ spans, highlight line = spans ↔ ∃ row comment,
      FirstComment line.toList (rowText row) comment ∧ Segmented [] row comment ∧
        spans = row ++ commentRow comment := by
  have hFirst := firstComment_splitComment line.toList
  have hSegmented := segmented_highlightCode hFirst.starts (parted_nil (splitComment line.toList).1)
  refine ⟨?_, ?_, ?_⟩
  · rw [← String.toList_inj, String.toList_join, List.flatMap_map]
    exact rowText_highlight line
  · intro s hs
    rw [highlight_eq_append, List.mem_append] at hs
    rcases hs with hCode | hComment
    · exact hSegmented.text_ne_empty hCode
    · exact text_ne_empty_of_mem_commentRow hComment
  · intro spans
    constructor
    · rintro rfl
      refine ⟨_, _, ?_, hSegmented, highlight_eq_append line⟩
      rwa [rowText_highlightCode]
    · rintro ⟨row, comment, hRow, hRule, rfl⟩
      obtain ⟨hCode, rfl⟩ := hFirst.unique hRow
      rw [highlight_eq_append, ← hCode, hRule.highlightCode_rowText hFirst.starts]

example : highlight "f(x1)//é" =
    [⟨"f", Style.ink Palette.function⟩, ⟨"(", Style.ink Palette.primary⟩,
      ⟨"x1", Style.ink Palette.text⟩, ⟨")", Style.ink Palette.primary⟩,
      ⟨"//é", Style.ink Palette.comment⟩] := by decide

end ScriptCheck.View
