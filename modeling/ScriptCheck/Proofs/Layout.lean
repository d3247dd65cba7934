import ScriptCheck.Checker
import ScriptCheck.Proofs.Derivation
import ScriptCheck.Proofs.Exchange

/-!
# Layouts

A text is lexemes with gaps between them.  This file shows that a check sees the lexemes only: two
texts made of the same lexemes, with whatever gaps, are both programs or both fail for the same
cause in the same lexeme.

* `Lexeme` — a word, digits, or one other byte.  They are coarser than the terminals: the word
  `var` is also read where it only starts a longer word.
* `Layout` — gaps around lexemes.  Gaps are free, except that neighbours which would become one
  lexeme or a comment are kept apart.
* `Aligned` — places in two layouts that correspond; a move from one is a move from the other and
  leads to such places again (`Aligned.move_eq`, `Aligned.read`).
* `layouts_checked_alike` — **layout does not matter.**
-/

namespace ScriptCheck.Grammar

open Source

variable {limit : NestingLimit}

/-! ## Lexemes -/

/-- A lexeme. -/
inductive Lexeme where
  /-- A letter or an underscore, and letters, digits and underscores behind it. -/
  | word (first : UInt8) (more : List UInt8) (hFirst : Letter first ∨ first = '_'.toUInt8)
      (hMore : ∀ b ∈ more, NameByte b)
  /-- Digits, at least one. -/
  | digits (first : UInt8) (more : List UInt8) (hFirst : Digit first) (hMore : ∀ b ∈ more, Digit b)
  /-- Any other byte that is no space. -/
  | mark (b : UInt8) (hSpace : ¬ Space b) (hName : ¬ NameByte b)

namespace Lexeme

/-- How the lexeme is spelled. -/
def bytes : Lexeme → List UInt8
  | word first more _ _ => first :: more
  | digits first more _ _ => first :: more
  | mark b _ _ => [b]

theorem bytes_ne_nil (x : Lexeme) : x.bytes ≠ [] := by
  cases x <;> exact List.cons_ne_nil _ _

/-- Whether the lexeme is the slash. -/
def IsSlash (x : Lexeme) : Prop := x.bytes = [slash]

/-- Whether two lexemes without a gap between them would be read as one, or as a comment. -/
def Joins : Lexeme → Lexeme → Prop
  | word .., word .. => True
  | word .., digits .. => True
  | digits .., digits .. => True
  | x, y => x.IsSlash ∧ y.IsSlash

end Lexeme

/-! ## Layouts -/

/-- Spaces and comments that end with a line feed. -/
inductive Filler : List UInt8 → Prop
  | nil : Filler []
  | space {b : UInt8} {g : List UInt8} (hb : Space b) (h : Filler g) : Filler (b :: g)
  | comment {body g : List UInt8} (hBody : lineFeed ∉ body) (h : Filler g) :
      Filler (slash :: slash :: (body ++ lineFeed :: g))

/-- Whether `gap` may stand between the lexeme `previous`, if there is one, and `x`. -/
structure FitsBetween (previous : Option Lexeme) (gap : List UInt8) (x : Lexeme) : Prop where
  filler : Filler gap
  apart : ∀ p ∈ previous, p.Joins x → gap ≠ []
  noSlash : ∀ p ∈ previous, p.IsSlash → gap.head? ≠ some slash

/-- Whether `gap` may stand between the lexeme `previous`, if there is one, and the end of the text.
Only there a comment may lack its line feed. -/
structure FitsBehind (previous : Option Lexeme) (gap : List UInt8) : Prop where
  closes : Gap gap []
  noSlash : ∀ p ∈ previous, p.IsSlash → gap.head? ≠ some slash

/-- Gaps before, between and behind lexemes.  The lexeme `previous` stands before the first gap. -/
inductive Layout : Option Lexeme → List Lexeme → Type
  | last {previous : Option Lexeme} (gap : List UInt8) (h : FitsBehind previous gap) :
      Layout previous []
  | lexeme {previous : Option Lexeme} {xs : List Lexeme} (gap : List UInt8) (x : Lexeme)
      (h : FitsBetween previous gap x) (rest : Layout (some x) xs) : Layout previous (x :: xs)

namespace Layout

/-- One space before every lexeme. -/
def spaced {previous : Option Lexeme} : (xs : List Lexeme) → Layout previous xs
  | [] => .last [] ⟨.nil [], by simp⟩
  | x :: xs => .lexeme [0x20] x ⟨.space (by decide) .nil, by simp, by simp [slash]⟩ (spaced xs)

instance {previous : Option Lexeme} {xs : List Lexeme} : Inhabited (Layout previous xs) :=
  ⟨spaced xs⟩

/-- The text of a layout. -/
def render {previous : Option Lexeme} {xs : List Lexeme} : Layout previous xs → List UInt8
  | last gap _ => gap
  | lexeme gap x _ rest => gap ++ (x.bytes ++ rest.render)

/-- Where the lexeme of index `i` starts in the text. -/
def offsetOf {previous : Option Lexeme} {xs : List Lexeme} : Layout previous xs → Nat → Nat
  | last gap _, _ => gap.length
  | lexeme gap _ _ _, 0 => gap.length
  | lexeme gap x _ rest, i + 1 => gap.length + x.bytes.length + rest.offsetOf i

/-- Offsets in two layouts of the same lexemes that correspond: both are as far into the same
lexeme, or both are the end of the text. -/
def SamePlace {previous : Option Lexeme} {xs : List Lexeme} (l l' : Layout previous xs)
    (n n' : Nat) : Prop :=
  (∃ i x k, xs[i]? = some x ∧ k < x.bytes.length ∧ n = l.offsetOf i + k ∧ n' = l'.offsetOf i + k) ∨
    (n = l.render.length ∧ n' = l'.render.length)

end Layout

/-! ## What ends a lexeme -/

theorem Filler.gap {g : List UInt8} (h : Filler g) (t : List UInt8) : Gap (g ++ t) t := by
  induction h with
  | nil => exact .nil t
  | space hb _ ih => exact .space hb ih
  | @comment body g hBody _ ih =>
    have hLine : Gap (lineFeed :: (g ++ t)) t := .space space_lineFeed ih
    simpa using Gap.comment hBody (by simp) hLine

namespace Lexeme

/-- Whether a text that follows the lexeme lets it end: it does not go on with the lexeme's bytes,
nor does it make a comment of a slash. -/
def EndsBefore (t : List UInt8) : Lexeme → Prop
  | word .. => ∀ b ∈ t.head?, continuesName b = false
  | digits .. => ∀ b ∈ t.head?, isDigit b = false
  | mark b _ _ => b = slash → t.head? ≠ some slash

/-- What every byte of the lexeme is. -/
def Holds (b : UInt8) : Lexeme → Prop
  | word .. => continuesName b = true
  | digits .. => isDigit b = true
  | mark .. => ¬ Space b ∧ continuesName b = false

theorem holds_of_mem {x : Lexeme} {b : UInt8} (h : b ∈ x.bytes) : x.Holds b := by
  cases x with
  | word first more hFirst hMore =>
    refine continuesName_iff.2 ?_
    rcases List.mem_cons.1 h with rfl | h
    · exact hFirst.imp id .inr
    · exact hMore b h
  | digits first more hFirst hMore =>
    refine isDigit_iff.2 ?_
    rcases List.mem_cons.1 h with rfl | h
    · exact hFirst
    · exact hMore b h
  | mark c hSpace hName =>
    obtain rfl := List.mem_singleton.1 h
    exact ⟨hSpace, Bool.eq_false_iff.2 fun hb => hName (continuesName_iff.1 hb)⟩

theorem endsBefore_of_head {x : Lexeme} {t : List UInt8}
    (h : ∀ b ∈ t.head?, continuesName b = false) (hSlash : x.IsSlash → t.head? ≠ some slash) :
    x.EndsBefore t := by
  cases x with
  | word => exact h
  | digits =>
    intro b hb
    exact isDigit_eq_false (h b hb)
  | mark b =>
    intro hb
    exact hSlash (by simp [IsSlash, bytes, hb])

/-- A lexeme ends before another that it does not join. -/
theorem endsBefore_bytes {x y : Lexeme} (h : ¬ x.Joins y) (t : List UInt8) :
    x.EndsBefore (y.bytes ++ t) := by
  obtain ⟨b, w, hy⟩ := List.exists_cons_of_ne_nil y.bytes_ne_nil
  have hb : y.Holds b := holds_of_mem (hy ▸ List.mem_cons_self)
  have hHead : ∀ c ∈ (y.bytes ++ t).head?, b = c := by simp [hy]
  cases x with
  | word =>
    cases y with
    | word | digits => exact absurd trivial h
    | mark =>
      intro c hc
      rw [← hHead c hc]
      exact hb.2
  | digits =>
    cases y with
    | word first more hFirst hMore =>
      obtain rfl : first = b := (List.cons.inj hy).1
      intro c hc
      rw [← hHead c hc]
      exact isDigit_of_startsName (startsName_iff.2 hFirst)
    | digits => exact absurd trivial h
    | mark =>
      intro c hc
      rw [← hHead c hc]
      exact isDigit_eq_false hb.2
  | mark a =>
    rintro rfl hSlash
    obtain rfl : b = slash := hHead slash hSlash
    cases y with
    | word => exact absurd (show continuesName slash = true from hb) (by decide)
    | digits => exact absurd (show isDigit slash = true from hb) (by decide)
    | mark c => exact h ⟨rfl, by rw [IsSlash, hy, (List.cons.inj hy).2]⟩

end Lexeme

/-- What follows a lexeme in a layout lets it end. -/
theorem Layout.endsBefore {x : Lexeme} {xs : List Lexeme} (l : Layout (some x) xs) :
    x.EndsBefore l.render := by
  cases l with
  | last gap h => exact Lexeme.endsBefore_of_head h.closes.head_not_continuesName (h.noSlash x rfl)
  | lexeme gap y h rest =>
    rw [Layout.render]
    by_cases hGap : gap = []
    · rw [hGap, List.nil_append]
      exact Lexeme.endsBefore_bytes (fun hJoins => h.apart x rfl hJoins hGap) _
    · obtain ⟨b, g, rfl⟩ := List.exists_cons_of_ne_nil hGap
      have hCloses : Gap (b :: g) [] := by simpa using h.filler.gap []
      exact Lexeme.endsBefore_of_head hCloses.head_not_continuesName (h.noSlash x rfl)

/-! ## Reading inside a lexeme -/

section Inside

variable {x : Lexeme} {w u u' : List UInt8}

theorem Lexeme.Holds.not_space {b : UInt8} (h : x.Holds b) : ¬ Space b := by
  have hName : continuesName b = true → ¬ Space b := by
    intro hb hSpace
    simp [not_continuesName_of_isSpace (isSpace_iff.2 hSpace)] at hb
  cases x with
  | word => exact hName h
  | digits => exact hName (continuesName_of_isDigit h)
  | mark => exact h.1

/-- No gap starts inside a lexeme. -/
theorem beyondGap_inside (hw : w ≠ []) (hSuffix : w <:+ x.bytes) (hEnds : x.EndsBefore u) :
    beyondGap (w ++ u) = w ++ u := by
  obtain ⟨b, w, rfl⟩ := List.exists_cons_of_ne_nil hw
  have hb : x.Holds b := Lexeme.holds_of_mem (hSuffix.subset List.mem_cons_self)
  refine beyondGap_eq_self (by simpa using hb.not_space) ?_
  rw [Bool.eq_false_iff]
  intro hStart
  obtain ⟨v, hv⟩ := startsComment_iff.1 hStart
  obtain ⟨rfl, hSecond⟩ := List.cons.inj hv
  cases x with
  | word => exact absurd (show continuesName slash = true from hb) (by decide)
  | digits => exact absurd (show isDigit slash = true from hb) (by decide)
  | mark a =>
    -- the first slash is all of the lexeme, so the second one follows it
    obtain ⟨rfl, rfl⟩ : slash = a ∧ w = [] := by
      simpa [Lexeme.bytes, List.suffix_cons_iff] using hSuffix
    have hu : u = slash :: v := hSecond
    exact hEnds rfl (by simp [hu])

/-- A name in a lexeme ends with it at the latest. -/
theorem nameLength_inside (hSuffix : w <:+ x.bytes) (hEnds : x.EndsBefore u)
    (hStarts : ∃ b ∈ w.head?, startsName b = true) : nameLength (w ++ u) = nameLength w := by
  obtain ⟨b, hHead, hb⟩ := hStarts
  obtain ⟨w, rfl⟩ := List.head?_eq_some_iff.1 hHead
  have hHolds : x.Holds b := Lexeme.holds_of_mem (hSuffix.subset List.mem_cons_self)
  cases x with
  | word =>
    rw [List.cons_append, nameLength_cons hb, nameLength_cons hb, takeWhile_append_stop hEnds]
  | digits =>
    have hDigit : isDigit b = true := hHolds
    simp [isDigit_of_startsName hb] at hDigit
  | mark =>
    have hName := hHolds.2
    simp [continuesName_of_startsName hb] at hName

/-- A number in a lexeme ends with it at the latest. -/
theorem takeWhile_isDigit_inside (hSuffix : w <:+ x.bytes) (hEnds : x.EndsBefore u)
    (hStarts : ∃ b ∈ w.head?, isDigit b = true) :
    (w ++ u).takeWhile isDigit = w.takeWhile isDigit := by
  obtain ⟨b, hHead, hb⟩ := hStarts
  obtain ⟨w, rfl⟩ := List.head?_eq_some_iff.1 hHead
  have hHolds : x.Holds b := Lexeme.holds_of_mem (hSuffix.subset List.mem_cons_self)
  cases x with
  | word => exact takeWhile_append_stop fun c hc => isDigit_eq_false (hEnds c hc)
  | digits => exact takeWhile_append_stop hEnds
  | mark =>
    have hName := hHolds.2
    simp [continuesName_of_isDigit hb] at hName

/-- The word `var` ends inside the lexeme where it starts. -/
theorem varWord_inside (hw : w ≠ []) (hSuffix : w <:+ x.bytes) (hEnds : x.EndsBefore u) :
    varWord <+: w ++ u ↔ varWord <+: w := by
  constructor
  · intro h
    have hStarts : ∃ b ∈ w.head?, startsName b = true := by
      have hFits := starts_name _ (any_startsName (any_isLetter_of_varWord h))
      obtain ⟨b, w, rfl⟩ := List.exists_cons_of_ne_nil hw
      exact hFits
    have hLe : varWord.length ≤ w.length := by
      have hName := length_varWord_le h
      rw [nameLength_inside hSuffix hEnds hStarts] at hName
      exact hName.trans (Terminal.Fits.length_le (t := .name) hStarts)
    exact List.prefix_of_prefix_length_le h (List.prefix_append w u) hLe
  · intro h
    exact h.trans (List.prefix_append w u)

/-- A terminal that starts inside a lexeme ends there, whatever follows. -/
theorem length_inside (hw : w ≠ []) (hSuffix : w <:+ x.bytes) (hEnds : x.EndsBefore u)
    {t : Terminal} (hWord : ∀ bytes, t = .word bytes → bytes = varWord) (hFits : t.Fits (w ++ u)) :
    t.length (w ++ u) = t.length w ∧ t.length w ≤ w.length := by
  cases t with
  | byte => exact ⟨rfl, List.length_pos_iff.2 hw⟩
  | word bytes =>
    obtain rfl := hWord bytes rfl
    exact ⟨rfl, ((varWord_inside hw hSuffix hEnds).1 hFits.2).length_le⟩
  | name =>
    have hStarts : Terminal.Fits .name w := by
      obtain ⟨b, w, rfl⟩ := List.exists_cons_of_ne_nil hw
      exact hFits
    exact ⟨nameLength_inside hSuffix hEnds hStarts, hStarts.length_le⟩
  | number =>
    have hStarts : Terminal.Fits .number w := by
      obtain ⟨b, w, rfl⟩ := List.exists_cons_of_ne_nil hw
      exact hFits
    exact ⟨congrArg List.length (takeWhile_isDigit_inside hSuffix hEnds hStarts), hStarts.length_le⟩

/-- Inside a lexeme it does not matter for a move what follows the lexeme. -/
theorem move_inside (hw : w ≠ []) (hSuffix : w <:+ x.bytes) (hEnds : x.EndsBefore u)
    (hEnds' : x.EndsBefore u') (st : State) : st.move limit (w ++ u) = st.move limit (w ++ u') := by
  refine State.move_congr (head?_append_of_ne_nil hw u u') fun _ => ?_
  rw [Bool.eq_iff_iff, List.isPrefixOf_iff_prefix, List.isPrefixOf_iff_prefix,
    varWord_inside hw hSuffix hEnds, varWord_inside hw hSuffix hEnds']

end Inside

theorem Layout.beyondGap_last {previous : Option Lexeme} {gap : List UInt8}
    (h : FitsBehind previous gap) : beyondGap (Layout.last gap h).render = [] :=
  h.closes.beyondGap_eq

/-- The first gap of a layout leads to its first lexeme. -/
theorem Layout.beyondGap_lexeme {previous : Option Lexeme} {gap : List UInt8} {x : Lexeme}
    {xs : List Lexeme} (h : FitsBetween previous gap x) (rest : Layout (some x) xs) :
    beyondGap (Layout.lexeme gap x h rest).render = x.bytes ++ rest.render := by
  rw [Layout.render, (h.filler.gap _).beyondGap_eq]
  exact beyondGap_inside x.bytes_ne_nil (List.suffix_refl _) rest.endsBefore

/-! ## Corresponding places -/

/-- `Aligned l l' r r'`: what is left of the two texts is `r` and `r'`, and both times the same part
of the same lexeme is the next that is left. -/
inductive Aligned : {previous : Option Lexeme} → {xs : List Lexeme} → Layout previous xs →
    Layout previous xs → List UInt8 → List UInt8 → Prop
  | finished {previous : Option Lexeme} {xs : List Lexeme} (l l' : Layout previous xs) :
      Aligned l l' [] []
  | inside {previous : Option Lexeme} {xs : List Lexeme} {gap gap' : List UInt8} {x : Lexeme}
      (h : FitsBetween previous gap x) (h' : FitsBetween previous gap' x)
      (rest rest' : Layout (some x) xs) {w : List UInt8} (hw : w ≠ []) (hSuffix : w <:+ x.bytes) :
      Aligned (.lexeme gap x h rest) (.lexeme gap' x h' rest') (w ++ rest.render)
        (w ++ rest'.render)
  | later {previous : Option Lexeme} {xs : List Lexeme} {gap gap' : List UInt8} {x : Lexeme}
      (h : FitsBetween previous gap x) (h' : FitsBetween previous gap' x)
      {rest rest' : Layout (some x) xs} {r r' : List UInt8} (hRest : Aligned rest rest' r r') :
      Aligned (.lexeme gap x h rest) (.lexeme gap' x h' rest') r r'

namespace Aligned

variable {previous : Option Lexeme} {xs : List Lexeme} {l l' : Layout previous xs}
  {r r' : List UInt8}

/-- Behind their first gaps two layouts are aligned. -/
theorem beyond (l l' : Layout previous xs) :
    Aligned l l' (beyondGap l.render) (beyondGap l'.render) := by
  cases l with
  | last gap h =>
    cases l' with
    | last gap' h' =>
      rw [Layout.beyondGap_last, Layout.beyondGap_last]
      exact .finished _ _
  | lexeme gap x h rest =>
    cases l' with
    | lexeme gap' _ h' rest' =>
      rw [Layout.beyondGap_lexeme, Layout.beyondGap_lexeme]
      exact .inside h h' rest rest' x.bytes_ne_nil (List.suffix_refl _)

/-- At corresponding places the same is done. -/
theorem move_eq (h : Aligned l l' r r') (st : State) : st.move limit r = st.move limit r' := by
  induction h with
  | finished l l' => rfl
  | inside h h' rest rest' hw hSuffix =>
    exact move_inside hw hSuffix rest.endsBefore rest'.endsBefore st
  | later h h' _ ih => exact ih

/-- A terminal leads from corresponding places to corresponding places. -/
theorem read (h : Aligned l l' r r') {st st' : State} {t : Terminal}
    (hRead : st.move limit r = .read t st') : Aligned l l' (t.rest r) (t.rest r') := by
  have hRead' : st.move limit r' = .read t st' := h.move_eq st ▸ hRead
  have hWord : ∀ bytes, t = .word bytes → bytes = varWord := by
    rintro bytes rfl
    exact State.move_word hRead
  induction h with
  | finished l l' =>
    have hFits := State.move_fits hRead
    exact absurd (hFits.length_pos.trans_le hFits.length_le) (Nat.lt_irrefl 0)
  | @inside _ xs gap gap' x h h' rest rest' w hw hSuffix =>
    obtain ⟨hLength, hLe⟩ :=
      length_inside hw hSuffix rest.endsBefore hWord (State.move_fits hRead)
    obtain ⟨hLength', -⟩ :=
      length_inside hw hSuffix rest'.endsBefore hWord (State.move_fits hRead')
    rw [Terminal.rest, Terminal.rest, hLength, hLength', List.drop_append_of_le_length hLe,
      List.drop_append_of_le_length hLe]
    -- the lexeme is read to its end, or only the word `var` at its front
    by_cases hLeft : w.drop (t.length w) = []
    · rw [hLeft, List.nil_append, List.nil_append]
      exact .later h h' (beyond rest rest')
    · have hSuffix' : w.drop (t.length w) <:+ x.bytes := (List.drop_suffix _ _).trans hSuffix
      rw [beyondGap_inside hLeft hSuffix' rest.endsBefore,
        beyondGap_inside hLeft hSuffix' rest'.endsBefore]
      exact .inside h h' rest rest' hLeft hSuffix'
  | later h h' _ ih => exact .later h h' (ih hRead hRead')

/-- **One move.**  What is done in one layout is done in the other. -/
theorem step {st st' : State} {c d : Cursor l.render} {c' : Cursor l'.render}
    (h : Aligned l l' c.rest c'.rest) (hStep : Step limit (st, c) (st', d)) :
    ∃ d', Step limit (st, c') (st', d') ∧ Aligned l l' d.rest d'.rest := by
  cases hStep with
  | goto hGoto => exact ⟨c', .goto (h.move_eq st ▸ hGoto), h⟩
  | @read _ _ _ t hRead =>
    refine ⟨c'.read t, .read (h.move_eq st ▸ hRead), ?_⟩
    rw [Cursor.rest_read, Cursor.rest_read]
    exact h.read hRead

/-- **A whole run.**  What is reached in one layout is reached in the other. -/
theorem reaches {st st' : State} {c d : Cursor l.render} {c' : Cursor l'.render}
    (h : Aligned l l' c.rest c'.rest) (hRun : Reaches limit (st, c) (st', d)) :
    ∃ d', Reaches limit (st, c') (st', d') ∧ Aligned l l' d.rest d'.rest := by
  generalize hEnd : (st', d) = b at hRun
  induction hRun generalizing st' d with
  | refl =>
    obtain ⟨rfl, rfl⟩ := Prod.mk.inj hEnd
    exact ⟨c', .refl, h⟩
  | @tail b b' _ hStep ih =>
    subst hEnd
    obtain ⟨d₁, hRun', hAligned⟩ := ih rfl
    obtain ⟨d', hStep', hAligned'⟩ := hAligned.step hStep
    exact ⟨d', hRun'.tail hStep', hAligned'⟩

theorem length_le (h : Aligned l l' r r') :
    r.length ≤ l.render.length ∧ r'.length ≤ l'.render.length := by
  induction h with
  | finished l l' => exact ⟨Nat.zero_le _, Nat.zero_le _⟩
  | inside h h' rest rest' hw hSuffix =>
    have hLe := hSuffix.length_le
    simp only [Layout.render, List.length_append]
    omega
  | later h h' hRest ih =>
    simp only [Layout.render, List.length_append]
    omega

/-- Corresponding places have corresponding offsets. -/
theorem samePlace (h : Aligned l l' r r') {n n' : Nat} (hn : n + r.length = l.render.length)
    (hn' : n' + r'.length = l'.render.length) : Layout.SamePlace l l' n n' := by
  induction h generalizing n n' with
  | finished l l' => exact .inr ⟨hn, hn'⟩
  | @inside _ xs gap gap' x h h' rest rest' w hw hSuffix =>
    have hLe := hSuffix.length_le
    have hPos := List.length_pos_iff.2 hw
    simp only [Layout.render, List.length_append] at hn hn'
    refine .inl ⟨0, x, x.bytes.length - w.length, rfl, by omega, ?_, ?_⟩
    · rw [Layout.offsetOf]
      omega
    · rw [Layout.offsetOf]
      omega
  | @later _ xs gap gap' x h h' rest rest' r r' hRest ih =>
    have hLe := hRest.length_le
    simp only [Layout.render, List.length_append] at hn hn'
    obtain ⟨m, rfl⟩ : ∃ m, n = gap.length + x.bytes.length + m :=
      ⟨n - (gap.length + x.bytes.length), by omega⟩
    obtain ⟨m', rfl⟩ : ∃ m', n' = gap'.length + x.bytes.length + m' :=
      ⟨n' - (gap'.length + x.bytes.length), by omega⟩
    rcases ih (show m + r.length = _ by omega) (show m' + r'.length = _ by omega) with
      ⟨i, y, k, hy, hk, hm, hm'⟩ | ⟨hm, hm'⟩
    · refine .inl ⟨i + 1, y, k, hy, hk, ?_, ?_⟩
      · rw [Layout.offsetOf, hm]
        omega
      · rw [Layout.offsetOf, hm']
        omega
    · refine .inr ⟨?_, ?_⟩
      · simp only [Layout.render, List.length_append]
        omega
      · simp only [Layout.render, List.length_append]
        omega

end Aligned

/-- **Layout does not matter.**  Two layouts of the same lexemes are both programs, or both fail for
the same cause at corresponding places. -/
theorem layouts_checked_alike (checker : Checker) {xs : List Lexeme} (l l' : Layout none xs) :
    ((checker.check l.render).lastError? = none ∧ (checker.check l'.render).lastError? = none) ∨
      ∃ e e', (checker.check l.render).lastError? = some e ∧
        (checker.check l'.render).lastError? = some e' ∧ e.cause = e'.cause ∧
        l.SamePlace l' e.offset e'.offset := by
  have hStart : Aligned l l' (Config.start l.render).2.rest (Config.start l'.render).2.rest := by
    rw [Config.rest_start, Config.rest_start]
    exact .beyond l l'
  rcases check_cases checker.limit l.render with ⟨c, ⟨st, hRun, hMove⟩, hCheck⟩ |
    ⟨cause, c, ⟨st, hRun, hMove⟩, hCheck⟩
  · obtain ⟨c', hRun', hAligned⟩ := hStart.reaches hRun
    refine .inl ⟨congrArg Verdict.error? hCheck, check_error?_eq_none_iff.2 ⟨c', st, hRun', ?_⟩⟩
    rw [← hAligned.move_eq st, hMove]
  · obtain ⟨c', hRun', hAligned⟩ := hStart.reaches hRun
    have hFails : Fails checker.limit (Config.start l'.render) cause c' := by
      refine ⟨st, hRun', ?_⟩
      rw [← hAligned.move_eq st, hMove]
    exact .inr ⟨c.error cause, c'.error cause, congrArg Verdict.error? hCheck,
      check_error?_eq_some_iff.2 ⟨cause, c', hFails, rfl⟩, rfl,
      hAligned.samePlace c.position_add_length_rest c'.position_add_length_rest⟩

end ScriptCheck.Grammar
