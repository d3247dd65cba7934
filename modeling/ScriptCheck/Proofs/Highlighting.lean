import Mathlib.Data.List.SplitBy
import ScriptCheck.Checker
import ScriptCheck.Proofs.Comments
import ScriptCheck.Proofs.Decoding
import ScriptCheck.Text.Lines
import ScriptCheck.View.Highlight

/-!
# What the viewer calls a comment

The viewer finds comments line by line among characters, a check finds them in passing among bytes.
This file shows that both mean the same: what the viewer colours as a comment can be taken out of a
text, and a check finds the same as before.

* `withoutComments` — a text without what is coloured as a comment.
* `toList_codeOf` — on a line, that leaves the code before the first two slashes in a row.
* `encode_withoutComments` — **on the bytes, it takes the comments out in one pass.**
* `comments_checked_alike` — **the viewer and the check agree on comments.**
-/

namespace ScriptCheck.Text.Utf8

open Source

/-! ## Characters and bytes -/

/-- A byte below 128 is the code of its character. -/
theorem eq_ofNat_of_mem_utf8EncodeChar {b : UInt8} {c : Char} (h : b ∈ String.utf8EncodeChar c)
    (hb : b.toNat < 128) : c = Char.ofNat b.toNat := by
  have hCode : c.toNat = b.toNat := by
    show c.val.toNat = b.toNat
    rw [String.utf8EncodeChar] at h
    -- every byte of a longer character has its highest bit set
    repeat' split at h
    all_goals
      simp only [List.mem_cons, List.not_mem_nil, or_false] at h
      rcases h with rfl | rfl | rfl | rfl <;> rw [UInt8.toNat_ofNat'] at * <;> omega
  rw [← hCode, Char.ofNat_toNat]

theorem lineFeed_notMem {c : Char} (hc : c ≠ '\n') : lineFeed ∉ String.utf8EncodeChar c :=
  fun h => hc (eq_ofNat_of_mem_utf8EncodeChar h (by decide))

theorem slash_notMem {c : Char} (hc : c ≠ '/') : slash ∉ String.utf8EncodeChar c :=
  fun h => hc (eq_ofNat_of_mem_utf8EncodeChar h (by decide))

/-- A comment starts among the bytes where it starts among the characters. -/
theorem startsComment_encode (cs : List Char) :
    startsComment (slash :: cs.flatMap String.utf8EncodeChar) = true ↔ cs.head? = some '/' := by
  rw [startsComment_iff]
  constructor
  · rintro ⟨u, hu⟩
    cases cs with
    | nil => cases hu
    | cons c cs =>
      rw [List.flatMap_cons] at hu
      have hSlash : slash ∈ String.utf8EncodeChar c := by
        obtain ⟨b, bs, hBytes⟩ := List.exists_cons_of_ne_nil (String.utf8EncodeChar_ne_nil (c := c))
        rw [hBytes, List.cons_append] at hu
        rw [hBytes, (List.cons.inj (List.cons.inj hu).2).1]
        exact List.mem_cons_self
      by_contra hc
      exact slash_notMem (fun h => hc (by rw [h]; rfl)) hSlash
  · intro h
    obtain ⟨cs, rfl⟩ := List.head?_eq_some_iff.1 h
    exact ⟨cs.flatMap String.utf8EncodeChar, rfl⟩

/-- How the pass that takes comments out goes on over one more character. -/
theorem uncommentFrom_encode_cons (inComment : Bool) (c : Char) (cs : List Char) :
    uncommentFrom inComment ((c :: cs).flatMap String.utf8EncodeChar) =
      if c = '\n' then lineFeed :: uncommentFrom false (cs.flatMap String.utf8EncodeChar)
      else if inComment = true ∨ c = '/' ∧ cs.head? = some '/' then
        uncommentFrom true (cs.flatMap String.utf8EncodeChar)
      else String.utf8EncodeChar c ++ uncommentFrom false (cs.flatMap String.utf8EncodeChar) := by
  by_cases hLine : c = '\n'
  · subst hLine
    rw [if_pos rfl]
    exact uncommentFrom_of_shown (hidden_lineFeed inComment _)
  rw [if_neg hLine, List.flatMap_cons]
  cases inComment with
  | true => rw [if_pos (.inl rfl), uncommentFrom_true_append (lineFeed_notMem hLine)]
  | false =>
    by_cases hSlash : c = '/'
    · subst hSlash
      by_cases hHead : cs.head? = some '/'
      · rw [if_pos (.inr ⟨rfl, hHead⟩)]
        exact uncommentFrom_comment ((startsComment_encode cs).2 hHead)
      · rw [if_neg (by simp [hHead])]
        exact uncommentFrom_cons (Bool.eq_false_iff.2 ((startsComment_encode cs).not.2 hHead))
    · rw [if_neg (by simp [hSlash]), uncommentFrom_append (slash_notMem hSlash)]

end ScriptCheck.Text.Utf8

namespace ScriptCheck.View

open Source Text

/-! ## Taking out what is coloured -/

/-- Whether a text is coloured as a comment. -/
def Styled.isComment (s : Styled) : Bool := s.style.ink? == some Palette.comment

/-- A line without what is coloured as a comment. -/
def codeOf (line : String) : String :=
  String.join (((highlight line).filter fun s => !s.isComment).map Styled.text)

/-- A text without what is coloured as a comment in any of its lines. -/
def withoutComments (source : String) : String :=
  "\n".intercalate ((splitLineFeeds source.toList).map fun piece => codeOf (String.ofList piece))

/-! ## A line in its colours -/

/-- The colour of comments is used for comments only. -/
theorem ink_pieceStyle_ne (piece next : List Char) :
    (pieceStyle piece next).ink? ≠ some Palette.comment := by
  cases piece with
  | nil => simp [pieceStyle, Style.plain]
  | cons c piece =>
    rw [pieceStyle, wordStyle, markStyle]
    repeat' split
    all_goals decide

theorem highlightCode_not_isComment {code : List Char} {s : Styled} (h : s ∈ highlightCode code) :
    s.isComment = false := by
  rw [highlightCode, ← List.map_uncurry_zip_eq_zipWith] at h
  obtain ⟨⟨piece, next⟩, -, rfl⟩ := List.mem_map.1 h
  exact beq_eq_false_iff_ne.2 (ink_pieceStyle_ne piece next)

/-- The pieces make up the code. -/
theorem flatMap_highlightCode (code : List Char) :
    ((highlightCode code).map Styled.text).flatMap String.toList = code := by
  have hLe : (codePieces code).length ≤ ((codePieces code).tail ++ [[]]).length := by
    rw [List.length_append, List.length_tail, List.length_singleton]
    omega
  have hPieces : ((highlightCode code).map Styled.text).map String.toList = codePieces code := by
    rw [highlightCode, List.map_zipWith, List.map_zipWith]
    simp only [String.toList_ofList]
    rw [← List.map_uncurry_zip_eq_zipWith]
    exact List.map_fst_zip hLe
  rw [List.flatMap_def, hPieces]
  exact List.flatten_splitBy _ code

theorem toList_codeOf (line : List Char) :
    (codeOf (String.ofList line)).toList = (splitComment line).1 := by
  have hCode : (highlightCode (splitComment line).1).filter (fun s => !s.isComment) =
      highlightCode (splitComment line).1 :=
    List.filter_eq_self.2 fun s hs => by rw [highlightCode_not_isComment hs]; rfl
  have hLine : (highlight (String.ofList line)).filter (fun s => !s.isComment) =
      highlightCode (splitComment line).1 := by
    rw [highlight, String.toList_ofList, List.filter_append, hCode]
    split
    · exact List.append_nil _
    · rw [List.filter_cons_of_neg (by simp [Styled.isComment, Style.ink]), List.filter_nil,
        List.append_nil]
  rw [codeOf, String.toList_join, hLine, flatMap_highlightCode]

/-! ## Lines and characters -/

theorem fst_splitCommentFrom (before cs : List Char) :
    (splitCommentFrom before cs).1 = before.reverse ++ (splitComment cs).1 := by
  induction cs generalizing before with
  | nil => simp [splitComment, splitCommentFrom]
  | cons c cs ih =>
    rw [splitComment, splitCommentFrom, splitCommentFrom]
    split
    · simp
    · rw [ih, ih [c], List.reverse_cons, List.append_assoc]
      rfl

/-- The code of a line, character by character. -/
theorem fst_splitComment_cons (c : Char) (cs : List Char) :
    (splitComment (c :: cs)).1 =
      if c = '/' ∧ cs.head? = some '/' then [] else c :: (splitComment cs).1 := by
  rw [splitComment, splitCommentFrom]
  by_cases h : c = '/' ∧ cs.head? = some '/'
  · rw [if_pos h, if_pos (by simp [h])]
    rfl
  · rw [if_neg h, if_neg (by simpa using h), fst_splitCommentFrom]
    rfl

theorem splitLineFeeds_lineFeed (cs : List Char) :
    splitLineFeeds ('\n' :: cs) = [] :: splitLineFeeds cs := rfl

theorem splitLineFeeds_cons {c : Char} {cs p : List Char} {ps : List (List Char)} (hc : c ≠ '\n')
    (h : splitLineFeeds cs = p :: ps) : splitLineFeeds (c :: cs) = (c :: p) :: ps := by
  rw [splitLineFeeds, List.foldr_cons, ← splitLineFeeds, if_neg hc, h]

theorem exists_splitLineFeeds (cs : List Char) : ∃ p ps, splitLineFeeds cs = p :: ps := by
  induction cs with
  | nil => exact ⟨[], [], rfl⟩
  | cons c cs ih =>
    by_cases hc : c = '\n'
    · exact ⟨[], splitLineFeeds cs, hc ▸ rfl⟩
    · obtain ⟨p, ps, h⟩ := ih
      exact ⟨c :: p, ps, splitLineFeeds_cons hc h⟩

/-- The first line starts like the text, unless it is empty. -/
theorem head?_splitLineFeeds {cs p : List Char} {ps : List (List Char)}
    (h : splitLineFeeds cs = p :: ps) {c : Char} (hc : c ≠ '\n') :
    p.head? = some c ↔ cs.head? = some c := by
  cases cs with
  | nil =>
    obtain ⟨rfl, -⟩ := List.cons.inj h
    exact Iff.rfl
  | cons a cs =>
    by_cases ha : a = '\n'
    · rw [ha] at h
      obtain ⟨rfl, -⟩ := List.cons.inj h
      simp [ha, hc.symm]
    · obtain ⟨q, qs, hq⟩ := exists_splitLineFeeds cs
      rw [splitLineFeeds_cons ha hq] at h
      obtain ⟨rfl, -⟩ := List.cons.inj h
      exact Iff.rfl

/-! ## In one pass -/

/-- Taking the comments out in one pass leaves the code of each line.  Inside a comment, nothing is
left of the first line. -/
theorem uncommentFrom_encode (inComment : Bool) {cs p : List Char} {ps : List (List Char)}
    (h : splitLineFeeds cs = p :: ps) :
    uncommentFrom inComment (cs.flatMap String.utf8EncodeChar) =
      (['\n'].intercalate ((if inComment then [] else (splitComment p).1) ::
        ps.map fun q => (splitComment q).1)).flatMap String.utf8EncodeChar := by
  induction cs generalizing inComment p ps with
  | nil =>
    obtain ⟨rfl, rfl⟩ := List.cons.inj h
    cases inComment <;> rfl
  | cons c cs ih =>
    obtain ⟨q, qs, hq⟩ := exists_splitLineFeeds cs
    rw [Utf8.uncommentFrom_encode_cons]
    by_cases hLine : c = '\n'
    · -- the line ends here, and with it the comment if there is one
      rw [hLine, splitLineFeeds_lineFeed, hq] at h
      obtain ⟨rfl, rfl⟩ := List.cons.inj h
      have hFirst : (if inComment then [] else (splitComment []).1) = [] := by
        cases inComment <;> rfl
      rw [if_pos hLine, ih false hq, hFirst, List.map_cons, List.intercalate_cons_cons,
        List.nil_append, List.flatMap_append]
      rfl
    rw [splitLineFeeds_cons hLine hq] at h
    obtain ⟨rfl, rfl⟩ := List.cons.inj h
    have hHead : q.head? = some '/' ↔ cs.head? = some '/' := head?_splitLineFeeds hq (by decide)
    simp only [if_neg hLine, fst_splitComment_cons, hHead]
    by_cases hHidden : inComment = true ∨ c = '/' ∧ cs.head? = some '/'
    · -- nothing more is left of the line
      have hFirst : (if inComment = true then [] else
          if c = '/' ∧ cs.head? = some '/' then [] else c :: (splitComment q).1) = [] := by
        rcases hHidden with hIn | hStart
        · rw [if_pos hIn]
        · rw [if_pos hStart, ite_self]
      rw [if_pos hHidden, hFirst]
      exact ih true hq
    · rw [not_or] at hHidden
      rw [if_neg (not_or.2 hHidden), if_neg hHidden.1, if_neg hHidden.2,
        List.intercalate_cons_cons_left, List.flatMap_cons]
      exact congrArg (String.utf8EncodeChar c ++ ·) (ih false hq)

/-- **On the bytes, the comments are taken out in one pass.** -/
theorem encode_withoutComments (source : String) :
    Utf8.encode (withoutComments source) = uncommentFrom false (Utf8.encode source) := by
  obtain ⟨p, ps, h⟩ := exists_splitLineFeeds source.toList
  rw [Utf8.encode_eq, Utf8.encode_eq, uncommentFrom_encode false h, withoutComments,
    String.toList_intercalate, h, List.map_map]
  simp only [Function.comp_def, toList_codeOf]
  rfl

/-! ## The viewer and the check -/

/-- **The viewer and the check agree on comments.**  Without what the viewer colours as a comment,
a text is a program if and only if it is one with it.  If it is none, the check fails for the same
cause in the same line and, except at the end of the text, in the same column. -/
theorem comments_checked_alike (checker : Checker) (source : String) :
    let before := (checker.check (Utf8.encode source)).lastError?
    let after := (checker.check (Utf8.encode (withoutComments source))).lastError?
    (before = none ∧ after = none) ∨
      ∃ e e', before = some e ∧ after = some e' ∧ e'.cause = e.cause ∧ e'.line = e.line ∧
        (e'.column = e.column ∨ e.offset = (Utf8.encode source).length ∧
          e'.offset = (Utf8.encode (withoutComments source)).length) := by
  intro before after
  have hAfter : after =
      (Grammar.check checker.limit (uncommentFrom false (Utf8.encode source))).error? := by
    rw [← encode_withoutComments]
    rfl
  rw [hAfter, encode_withoutComments]
  rcases Grammar.check_uncommentFrom checker.limit (Utf8.encode source) with
    hBoth | ⟨cause, c, d, hError, hError', hBeside⟩
  · exact .inl hBoth
  refine .inr ⟨_, _, hError, hError', rfl, hBeside.line_eq, ?_⟩
  by_cases hEnd : c.rest = []
  · have hEnd' : d.rest = [] := by
      rw [hBeside.rest_eq, hEnd]
      rfl
    exact .inr ⟨c.atEnd_iff.1 (List.isEmpty_iff.2 hEnd), d.atEnd_iff.1 (List.isEmpty_iff.2 hEnd')⟩
  · exact .inl (hBeside.column_eq hEnd)

end ScriptCheck.View
