import Mathlib.Logic.Relation
import ScriptCheck.Grammar.Program
import ScriptCheck.Proofs.Terminals

/-!
# The grammar, declared

What a program is, said without a reader.  A phrase is a relation between two texts: the text that
starts with the phrase, and what is left of it behind the phrase.  Every terminal takes the longest
gap behind it along, and names and numbers are as long as they can be; apart from that the relations
choose freely where the productions commit themselves.

* `Spelled`, `Mark`, `Identifier`, `Number` — the terminals.
* `Derives` — expressions and their parts.  An expression at level `k` exists only up to the depth
  `d`; whether a name is called or two arguments follow each other is left open.
* `Statement`, `Program` — statements, whose kind the text decides, and sequences of them.
* `mark_iff`, `identifier_iff`, `number_iff`, `spelled_iff` — each terminal stands where its first
  bytes say so, and leaves what reading it leaves.
-/

namespace ScriptCheck.Grammar

open Source

/-! ## Terminals -/

/-- A capital or small letter of the alphabet. -/
def Letter (b : UInt8) : Prop :=
  ('A'.toUInt8 ≤ b ∧ b ≤ 'Z'.toUInt8) ∨ ('a'.toUInt8 ≤ b ∧ b ≤ 'z'.toUInt8)

/-- A decimal digit. -/
def Digit (b : UInt8) : Prop := '0'.toUInt8 ≤ b ∧ b ≤ '9'.toUInt8

/-- A byte that may stand in a name. -/
def NameByte (b : UInt8) : Prop := Letter b ∨ Digit b ∨ b = '_'.toUInt8

/-- The bytes `w` and the longest gap behind them lead from `s` to `t`. -/
def Spelled (w s t : List UInt8) : Prop := ∃ u, s = w ++ u ∧ LongestGap u t

/-- The character `ch` leads from `s` to `t`. -/
def Mark (ch : Char) (s t : List UInt8) : Prop := Spelled [ch.toUInt8] s t

/-- An identifier leads from `s` to `t`: a letter or an underscore and all the letters, digits and
underscores behind it. -/
def Identifier (s t : List UInt8) : Prop :=
  ∃ b w u, (Letter b ∨ b = '_'.toUInt8) ∧ (∀ c ∈ w, NameByte c) ∧ (∀ c ∈ u.head?, ¬ NameByte c) ∧
    s = b :: w ++ u ∧ LongestGap u t

/-- A number leads from `s` to `t`: all the digits there are, at least one. -/
def Number (s t : List UInt8) : Prop :=
  ∃ b w u, Digit b ∧ (∀ c ∈ w, Digit c) ∧ (∀ c ∈ u.head?, ¬ Digit c) ∧ s = b :: w ++ u ∧
    LongestGap u t

/-- The text `s` starts with a letter. -/
def LetterLed (s : List UInt8) : Prop := ∃ b ∈ s.head?, Letter b

/-! ## Expressions -/

/-- The kinds of phrase in an expression, with the level of the expression they belong to. -/
inductive Phrase where
  | expression (k : Nat)
  /-- The terms of an expression behind its first. -/
  | moreTerms (k : Nat)
  | term (k : Nat)
  /-- The factors of a term behind its first. -/
  | moreFactors (k : Nat)
  | factor (k : Nat)
  /-- The arguments that are left of a call, and its closing bracket. -/
  | arguments (k : Nat)

/-- `Derives d phrase s t`: the phrase leads from `s` to `t`, if expressions may nest `d` deep. -/
inductive Derives (d : Nat) : Phrase → List UInt8 → List UInt8 → Prop
  | expression {k : Nat} {s t u : List UInt8} (hk : k ≤ d) (hTerm : Derives d (.term k) s t)
      (hMore : Derives d (.moreTerms k) t u) : Derives d (.expression k) s u
  | noTerm {k : Nat} (s : List UInt8) : Derives d (.moreTerms k) s s
  | addTerm {k : Nat} {s t u v : List UInt8} (hSign : Mark '+' s t ∨ Mark '-' s t)
      (hTerm : Derives d (.term k) t u) (hMore : Derives d (.moreTerms k) u v) :
      Derives d (.moreTerms k) s v
  | term {k : Nat} {s t u : List UInt8} (hFactor : Derives d (.factor k) s t)
      (hMore : Derives d (.moreFactors k) t u) : Derives d (.term k) s u
  | noFactor {k : Nat} (s : List UInt8) : Derives d (.moreFactors k) s s
  | mulFactor {k : Nat} {s t u v : List UInt8} (hSign : Mark '*' s t ∨ Mark '/' s t)
      (hFactor : Derives d (.factor k) t u) (hMore : Derives d (.moreFactors k) u v) :
      Derives d (.moreFactors k) s v
  | number {k : Nat} {s t : List UInt8} (h : Number s t) : Derives d (.factor k) s t
  | name {k : Nat} {s t : List UInt8} (hLed : LetterLed s) (h : Identifier s t) :
      Derives d (.factor k) s t
  | call {k : Nat} {s t u v : List UInt8} (hLed : LetterLed s) (hName : Identifier s t)
      (hOpen : Mark '(' t u) (h : Derives d (.arguments (k + 1)) u v) : Derives d (.factor k) s v
  | group {k : Nat} {s t u v : List UInt8} (hOpen : Mark '(' s t)
      (h : Derives d (.expression (k + 1)) t u) (hClose : Mark ')' u v) : Derives d (.factor k) s v
  | close {k : Nat} {s t : List UInt8} (h : Mark ')' s t) : Derives d (.arguments k) s t
  | argument {k : Nat} {s t u : List UInt8} (h : Derives d (.expression k) s t)
      (hMore : Derives d (.arguments k) t u) : Derives d (.arguments k) s u
  | argumentComma {k : Nat} {s t u v : List UInt8} (h : Derives d (.expression k) s t)
      (hComma : Mark ',' t u) (hMore : Derives d (.arguments k) u v) : Derives d (.arguments k) s v

/-! ## Statements and programs -/

/-- An assignment leads from `s` to `t`. -/
inductive Assignment (d : Nat) : List UInt8 → List UInt8 → Prop
  | mk {s t u v : List UInt8} (hName : Identifier s t) (hEquals : Mark '=' t u)
      (h : Derives d (.expression 1) u v) : Assignment d s v

/-- Assignments with commas between them lead from `s` to `t`. -/
inductive Assignments (d : Nat) : List UInt8 → List UInt8 → Prop
  | last {s t : List UInt8} (h : Assignment d s t) : Assignments d s t
  | comma {s t u v : List UInt8} (h : Assignment d s t) (hComma : Mark ',' t u)
      (hMore : Assignments d u v) : Assignments d s v

/-- A statement leads from `s` to `t`.  The text decides which kind it is: the bytes of `var`,
whatever follows them, another letter, or anything else. -/
inductive Statement (d : Nat) : List UInt8 → List UInt8 → Prop
  | declaration {s t u v : List UInt8} (hVar : Spelled varWord s t) (h : Assignments d t u)
      (hEnd : Mark ';' u v) : Statement d s v
  | assignment {s t u : List UInt8} (hVar : ¬ varWord <+: s) (hLed : LetterLed s)
      (h : Assignment d s t) (hEnd : Mark ';' t u) : Statement d s u
  | expression {s t u : List UInt8} (hVar : ¬ varWord <+: s) (hLed : ¬ LetterLed s)
      (h : Derives d (.expression 1) s t) (hEnd : Mark ';' t u) : Statement d s u

/-- A program: a gap and then statements to the end of the text. -/
def Program (d : Nat) (s : List UInt8) : Prop :=
  ∃ t, LongestGap s t ∧ Relation.ReflTransGen (Statement d) t []

/-! ## What the readers test -/

theorem isLetter_iff {b : UInt8} : isLetter b = true ↔ Letter b := by
  unfold isLetter Letter ByteClass.of
  simp only [UInt8.le_iff_toNat_le, Char.toUInt8]
  repeat' split
  all_goals simp [ByteClass.rank] at *
  all_goals omega

theorem isDigit_iff {b : UInt8} : isDigit b = true ↔ Digit b := by
  unfold isDigit Digit ByteClass.of
  simp only [UInt8.le_iff_toNat_le, Char.toUInt8]
  repeat' split
  all_goals simp at *
  all_goals omega

theorem startsName_iff {b : UInt8} : startsName b = true ↔ Letter b ∨ b = '_'.toUInt8 := by
  rw [startsName, Bool.or_eq_true, isLetter_iff, beq_iff_eq]

theorem continuesName_iff {b : UInt8} : continuesName b = true ↔ NameByte b := by
  rw [NameByte, ← isLetter_iff, ← isDigit_iff, continuesName, Bool.or_eq_true, beq_iff_eq,
    ← or_assoc]
  refine or_congr_left ?_
  unfold isAlphanumeric isLetter isDigit
  cases ByteClass.of b <;> simp [ByteClass.rank]

theorem letterLed_iff {s : List UInt8} : s.head?.any isLetter = true ↔ LetterLed s := by
  rw [Option.any_eq_true, LetterLed]
  simp only [isLetter_iff, Option.mem_def]

theorem goesOn_iff {ch : Char} {s : List UInt8} :
    goesOn ch s.head? = true ↔ [ch.toUInt8] <+: s := by
  cases s with
  | nil => simp [goesOn]
  | cons b s =>
    rw [goesOn, List.head?_cons, List.cons_prefix_cons, beq_iff_eq, Option.some_inj]
    exact ⟨fun h => ⟨h.symm, List.nil_prefix⟩, fun h => h.1.symm⟩

/-! ## Terminals stand where their first bytes say -/

theorem spelled_iff {w s t : List UInt8} :
    Spelled w s t ↔ w <+: s ∧ t = beyondGap (s.drop w.length) := by
  constructor
  · rintro ⟨u, rfl, hGap⟩
    refine ⟨List.prefix_append w u, ?_⟩
    rw [List.drop_left]
    exact longestGap_iff.1 hGap
  · rintro ⟨⟨u, rfl⟩, ht⟩
    refine ⟨u, rfl, ?_⟩
    rw [List.drop_left] at ht
    exact longestGap_iff.2 ht

theorem mark_iff {ch : Char} {s t : List UInt8} :
    Mark ch s t ↔ goesOn ch s.head? = true ∧ t = Terminal.byte.rest s := by
  rw [Mark, spelled_iff, goesOn_iff]
  rfl

/-- All of a run is taken, and no more. -/
theorem takeWhile_run {p : UInt8 → Bool} {w u : List UInt8} (hw : ∀ c ∈ w, p c = true)
    (hu : ∀ c ∈ u.head?, ¬ p c = true) : (w ++ u).takeWhile p = w := by
  rw [takeWhile_append_stop fun c hc => Bool.eq_false_iff.2 (hu c hc)]
  exact List.takeWhile_eq_self_iff.2 hw

theorem dropWhile_run (p : UInt8 → Bool) (s : List UInt8) :
    ∀ c ∈ (s.dropWhile p).head?, ¬ p c = true := by
  intro c hc
  have hNot := List.head?_dropWhile_not p s
  rw [hc] at hNot
  simpa using hNot

theorem drop_length_takeWhile (p : UInt8 → Bool) (s : List UInt8) :
    s.drop (s.takeWhile p).length = s.dropWhile p := by
  have hDrop : (s.takeWhile p ++ s.dropWhile p).drop (s.takeWhile p).length = s.dropWhile p :=
    List.drop_left
  rwa [List.takeWhile_append_dropWhile] at hDrop

theorem identifier_iff {s t : List UInt8} :
    Identifier s t ↔ s.head?.any startsName = true ∧ t = Terminal.name.rest s := by
  constructor
  · rintro ⟨b, w, u, hb, hw, hu, rfl, hGap⟩
    have hStart : startsName b = true := startsName_iff.2 hb
    have hRun : (w ++ u).takeWhile continuesName = w :=
      takeWhile_run (fun c hc => continuesName_iff.2 (hw c hc))
        fun c hc h => hu c hc (continuesName_iff.1 h)
    refine ⟨by simpa using hStart, ?_⟩
    rw [Terminal.rest, Terminal.length, List.cons_append, nameLength_cons hStart, hRun,
      List.drop_succ_cons, List.drop_left]
    exact longestGap_iff.1 hGap
  · rintro ⟨hs, ht⟩
    obtain ⟨b, hHead, hStart⟩ := (Option.any_eq_true _ _).1 hs
    obtain ⟨s, rfl⟩ := List.head?_eq_some_iff.1 hHead
    refine ⟨b, s.takeWhile continuesName, s.dropWhile continuesName, startsName_iff.1 hStart,
      fun c hc => continuesName_iff.1 (List.mem_takeWhile_imp hc),
      fun c hc h => dropWhile_run _ s c hc (continuesName_iff.2 h), ?_, ?_⟩
    · rw [List.cons_append, List.takeWhile_append_dropWhile]
    · rw [Terminal.rest, Terminal.length, nameLength_cons hStart, List.drop_succ_cons,
        drop_length_takeWhile] at ht
      exact longestGap_iff.2 ht

theorem number_iff {s t : List UInt8} :
    Number s t ↔ s.head?.any isDigit = true ∧ t = Terminal.number.rest s := by
  constructor
  · rintro ⟨b, w, u, hb, hw, hu, rfl, hGap⟩
    have hRun : (b :: w ++ u).takeWhile isDigit = b :: w := by
      refine takeWhile_run (fun c hc => isDigit_iff.2 ?_) fun c hc h => hu c hc (isDigit_iff.1 h)
      rcases List.mem_cons.1 hc with rfl | hc
      · exact hb
      · exact hw c hc
    refine ⟨by simpa using isDigit_iff.2 hb, ?_⟩
    rw [Terminal.rest, Terminal.length, hRun, List.drop_left]
    exact longestGap_iff.1 hGap
  · rintro ⟨hs, ht⟩
    obtain ⟨b, hHead, hDigit⟩ := (Option.any_eq_true _ _).1 hs
    obtain ⟨s, rfl⟩ := List.head?_eq_some_iff.1 hHead
    refine ⟨b, s.takeWhile isDigit, s.dropWhile isDigit, isDigit_iff.1 hDigit,
      fun c hc => isDigit_iff.1 (List.mem_takeWhile_imp hc),
      fun c hc h => dropWhile_run _ s c hc (isDigit_iff.2 h), ?_, ?_⟩
    · rw [List.cons_append, List.takeWhile_append_dropWhile]
    · rw [Terminal.rest, Terminal.length, List.takeWhile_cons, if_pos hDigit, List.length_cons,
        List.drop_succ_cons, drop_length_takeWhile] at ht
      exact longestGap_iff.2 ht

end ScriptCheck.Grammar
