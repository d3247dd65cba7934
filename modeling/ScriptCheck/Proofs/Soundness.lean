import ScriptCheck.Proofs.Derivation
import ScriptCheck.Proofs.Simulation

/-!
# What the productions read

A production that succeeds has read a phrase of its kind.

* `repeatWhile_backward` — the one induction over the rounds of a repetition, from its end to its
  start.
* `factor_derives` to `expressionWithin_derives` — expressions, by induction on the free levels.
* `statement_derives`, `program_of_check` — **what a check accepts is a program.**
-/

namespace ScriptCheck.Grammar

open Source Production

variable {text : List UInt8} {limit : NestingLimit} {d k : Nat}

/-! ## What the productions read -/

theorem expect_mark {ch : Char} {r r' : Reader text} (h : expect ch r = .ok () r') :
    Mark ch r.cursor.rest r'.cursor.rest := by
  obtain ⟨hTest, rfl⟩ := (readsTerminal_expect ch).ok h
  exact mark_iff.2 ⟨hTest, r.cursor.rest_read .byte⟩

theorem name_identifier {r r' : Reader text} (h : name r = .ok () r') :
    Identifier r.cursor.rest r'.cursor.rest := by
  obtain ⟨hTest, rfl⟩ := readsTerminal_name.ok h
  exact identifier_iff.2 ⟨hTest, r.cursor.rest_read .name⟩

theorem number_number {r r' : Reader text} (h : discard number r = .ok () r') :
    Number r.cursor.rest r'.cursor.rest := by
  obtain ⟨hTest, rfl⟩ := readsTerminal_number.ok h
  exact number_iff.2 ⟨hTest, r.cursor.rest_read .number⟩

theorem operator_mark {a b : Char} {r r' : Reader text} (h : operator r = .ok () r')
    (hNext : (goesOn a r.cursor.peek? || goesOn b r.cursor.peek?) = true) :
    Mark a r.cursor.rest r'.cursor.rest ∨ Mark b r.cursor.rest r'.cursor.rest := by
  cases h
  rcases Bool.or_eq_true_iff.1 hNext with hNext | hNext
  · exact .inl (mark_iff.2 ⟨hNext, r.cursor.rest_read .byte⟩)
  · exact .inr (mark_iff.2 ⟨hNext, r.cursor.rest_read .byte⟩)

/-- A sequence succeeds by its parts. -/
theorem bind_eq_ok_iff {α β : Type} {p : Production text α} {f : α → Production text β}
    {r r'' : Reader text} {b : β} :
    (p >>= f) r = .ok b r'' ↔ ∃ a r', p r = .ok a r' ∧ f a r' = .ok b r'' := by
  constructor
  · intro h
    cases hp : p r with
    | ok a r' => exact ⟨a, r', rfl, by rwa [bind_eq_ok hp] at h⟩
    | error e r' =>
      rw [bind_eq_error hp] at h
      cases h
  · rintro ⟨a, r', hp, hf⟩
    rwa [bind_eq_ok hp]

/-- What holds of the text behind a repetition holds of the text before it, if every round carries
it back.  The rounds may rely on what they keep of the reader. -/
theorem repeatWhile_backward {going : Option UInt8 → Bool} {body : Production text Unit}
    {I : Reader text → Prop} {P : List UInt8 → Prop}
    (hBody : ∀ r r', I r → going r.cursor.peek? = true → body r = .ok () r' →
      I r' ∧ (P r'.cursor.rest → P r.cursor.rest))
    {r r' : Reader text} (hI : I r) (h : repeatWhile going body r = .ok () r') :
    I r' ∧ (P r'.cursor.rest → P r.cursor.rest) := by
  induction hn : text.length - r.cursor.position using Nat.strong_induction_on generalizing r with
  | _ n ih =>
    rw [repeatWhile] at h
    by_cases hGoing : going r.cursor.peek? = true
    · rw [if_pos hGoing] at h
      cases hr : body r with
      | error e r₁ =>
        rw [hr] at h
        cases h
      | ok u r₁ =>
        rw [hr] at h
        dsimp only at h
        obtain ⟨hI₁, hBack⟩ := hBody r r₁ hI hGoing hr
        by_cases hMoved : r.cursor.position < r₁.cursor.position
        · rw [if_pos hMoved] at h
          have hLe := r₁.cursor.position_le
          obtain ⟨hI', hBack'⟩ := ih _ (by omega) hI₁ h rfl
          exact ⟨hI', fun hEnd => hBack (hBack' hEnd)⟩
        · rw [if_neg hMoved] at h
          cases h
          exact ⟨hI₁, hBack⟩
    · rw [if_neg hGoing] at h
      cases h
      exact ⟨hI, id⟩

/-! ## Soundness -/

section

variable {nested : Production text Unit}

/-- `p` reads phrases of the kind `phrase`. -/
def ReadsPhrase (d : Nat) (phrase : Phrase) (p : Production text Unit) : Prop :=
  ∀ r r', p r = .ok () r' → Derives d phrase r.cursor.rest r'.cursor.rest

theorem arguments_derives (hNested : ReadsPhrase d (.expression k) nested) {r r' : Reader text}
    (h : arguments nested r = .ok () r') :
    ∃ t, Mark '(' r.cursor.rest t ∧ Derives d (.arguments k) t r'.cursor.rest := by
  obtain ⟨u, r₁, hOpen, h⟩ := bind_eq_ok_iff.1 h
  obtain ⟨u, r₂, hLoop, hClose⟩ := bind_eq_ok_iff.1 h
  refine ⟨r₁.cursor.rest, expect_mark hOpen, ?_⟩
  refine (repeatWhile_backward (I := fun _ => True)
    (P := fun s => Derives d (.arguments k) s r'.cursor.rest)
    (fun r r' _ _ hArgument => ⟨trivial, fun hMore => ?_⟩) trivial hLoop).2
    (.close (expect_mark hClose))
  obtain ⟨u, r₁, hExpression, h⟩ := bind_eq_ok_iff.1 hArgument
  have hFirst := hNested r r₁ hExpression
  rw [run_peek_bind] at h
  by_cases hComma : goesOn ',' r₁.cursor.peek? = true
  · rw [if_pos hComma] at h
    exact .argumentComma hFirst (expect_mark h) hMore
  · rw [if_neg hComma] at h
    cases h
    exact .argument hFirst hMore

theorem factor_derives (hNested : ReadsPhrase d (.expression (k + 1)) nested) :
    ReadsPhrase d (.factor k) (factor nested) := by
  intro r r' h
  rw [factor, run_peek_bind] at h
  by_cases hGroup : goesOn '(' r.cursor.peek? = true
  · rw [if_pos hGroup] at h
    obtain ⟨u, r₁, hOpen, h⟩ := bind_eq_ok_iff.1 h
    obtain ⟨u, r₂, hExpression, hClose⟩ := bind_eq_ok_iff.1 h
    exact .group (expect_mark hOpen) (hNested _ _ hExpression) (expect_mark hClose)
  rw [if_neg hGroup] at h
  by_cases hLetter : r.cursor.peek?.any isLetter = true
  · rw [if_pos hLetter] at h
    have hLed : LetterLed r.cursor.rest := letterLed_iff.1 hLetter
    obtain ⟨u, r₁, hName, h⟩ := bind_eq_ok_iff.1 h
    rw [run_peek_bind] at h
    by_cases hCall : goesOn '(' r₁.cursor.peek? = true
    · rw [if_pos hCall] at h
      obtain ⟨t, hOpen, hArguments⟩ := arguments_derives hNested h
      exact .call hLed (name_identifier hName) hOpen hArguments
    · rw [if_neg hCall] at h
      cases h
      exact .name hLed (name_identifier hName)
  · rw [if_neg hLetter] at h
    exact .number (number_number h)

theorem term_derives (hNested : ReadsPhrase d (.expression (k + 1)) nested) :
    ReadsPhrase d (.term k) (term nested) := by
  intro r r' h
  obtain ⟨u, r₁, hFactor, hLoop⟩ := bind_eq_ok_iff.1 h
  refine .term (factor_derives hNested _ _ hFactor) ?_
  refine (repeatWhile_backward (I := fun _ => True)
    (P := fun s => Derives d (.moreFactors k) s r'.cursor.rest)
    (fun r r' _ hSign h => ⟨trivial, fun hMore => ?_⟩) trivial hLoop).2 (.noFactor _)
  obtain ⟨u, r₁, hOperator, hFactor⟩ := bind_eq_ok_iff.1 h
  exact .mulFactor (operator_mark hOperator hSign) (factor_derives hNested _ _ hFactor) hMore

theorem terms_derives (hNested : ReadsPhrase d (.expression (k + 1)) nested) (hk : k ≤ d) :
    ReadsPhrase d (.expression k) (terms nested) := by
  intro r r' h
  obtain ⟨u, r₁, hTerm, hLoop⟩ := bind_eq_ok_iff.1 h
  refine .expression hk (term_derives hNested _ _ hTerm) ?_
  refine (repeatWhile_backward (I := fun _ => True)
    (P := fun s => Derives d (.moreTerms k) s r'.cursor.rest)
    (fun r r' _ hSign h => ⟨trivial, fun hMore => ?_⟩) trivial hLoop).2 (.noTerm _)
  obtain ⟨u, r₁, hOperator, hTerm⟩ := bind_eq_ok_iff.1 h
  exact .addTerm (operator_mark hOperator hSign) (term_derives hNested _ _ hTerm) hMore

end

/-- With `free` levels left, the expression is at the level that lies as far below the limit. -/
theorem expressionWithin_derives {free : Nat} (h : k + free = limit.levels + 1) :
    ReadsPhrase limit.levels (.expression k)
      (expressionWithin limit free : Production text Unit) := by
  induction free generalizing k with
  | zero =>
    intro r r' hr
    cases hr
  | succ free ih =>
    intro r r' hr
    obtain ⟨u, r₁, hEnter, hr⟩ := bind_eq_ok_iff.1 hr
    obtain ⟨u, r₂, hTerms, hLeave⟩ := bind_eq_ok_iff.1 hr
    cases hEnter
    cases hLeave
    have hNested : ReadsPhrase limit.levels (.expression (k + 1))
        (expressionWithin limit free : Production text Unit) := ih (by omega)
    have hExpression := terms_derives hNested (by omega) { r with depth := r.depth + 1 } r₂ hTerms
    exact hExpression

theorem expression_derives {r r' : Reader text} (hDepth : r.depth = 0)
    (h : expression limit r = .ok () r') :
    Derives limit.levels (.expression 1) r.cursor.rest r'.cursor.rest := by
  rw [expression, hDepth, Nat.sub_zero] at h
  exact expressionWithin_derives (Nat.add_comm 1 _) r r' h

theorem assignment_derives {r r' : Reader text} (hDepth : r.depth = 0)
    (h : assignment limit r = .ok () r') :
    Assignment limit.levels r.cursor.rest r'.cursor.rest := by
  obtain ⟨u, r₁, hName, h⟩ := bind_eq_ok_iff.1 h
  obtain ⟨u, r₂, hEquals, hExpression⟩ := bind_eq_ok_iff.1 h
  have hDepth₂ : r₂.depth = 0 := by
    obtain ⟨-, rfl⟩ := readsTerminal_name.ok hName
    obtain ⟨-, rfl⟩ := (readsTerminal_expect '=').ok hEquals
    exact hDepth
  exact .mk (name_identifier hName) (expect_mark hEquals) (expression_derives hDepth₂ hExpression)

/-- A production at level zero leaves the reader there. -/
theorem depth_assignment {r r' : Reader text} (hDepth : r.depth = 0)
    (h : assignment limit r = .ok () r') : r'.depth = 0 := by
  have hLeads : Leads limit 0 (fun _ => True) (.target true)
      (assignment limit : Production text Unit) (.within .behind [] true) NoOperator :=
    leads_assignment
  exact (hLeads.ok hDepth trivial h).1

theorem declaration_derives {r r' : Reader text} (hDepth : r.depth = 0)
    (h : declaration limit r = .ok () r') :
    Assignments limit.levels r.cursor.rest r'.cursor.rest := by
  obtain ⟨u, r₁, hFirst, hLoop⟩ := bind_eq_ok_iff.1 h
  have hAssignment := assignment_derives hDepth hFirst
  -- behind an assignment stands the end, or a comma and more assignments
  have hMore := (repeatWhile_backward (I := fun r => r.depth = 0)
    (P := fun s => ∀ t, Assignment limit.levels t s → Assignments limit.levels t r'.cursor.rest)
    ?_ (depth_assignment hDepth hFirst) hLoop).2 fun _ => .last
  · exact hMore _ hAssignment
  · intro r r₂ hDepth _ h
    obtain ⟨u, r₁, hComma, hNext⟩ := bind_eq_ok_iff.1 h
    have hDepth₁ : r₁.depth = 0 := by
      obtain ⟨-, rfl⟩ := (readsTerminal_expect ',').ok hComma
      exact hDepth
    refine ⟨depth_assignment hDepth₁ hNext, fun hRest t ht => ?_⟩
    exact .comma ht (expect_mark hComma) (hRest _ (assignment_derives hDepth₁ hNext))

theorem statement_derives {r r' : Reader text} (hDepth : r.depth = 0)
    (h : statement limit r = .ok () r') : Statement limit.levels r.cursor.rest r'.cursor.rest := by
  cases hVar : varWord.isPrefixOf r.cursor.rest with
  | true =>
    rw [statement_of_var hVar] at h
    obtain ⟨u, r₁, hDeclaration, hEnd⟩ := bind_eq_ok_iff.1 h
    have hSpelled : Spelled varWord r.cursor.rest (r.cursor.read (.word varWord)).rest :=
      spelled_iff.2 ⟨List.isPrefixOf_iff_prefix.1 hVar, r.cursor.rest_read (.word varWord)⟩
    have hAssignments := declaration_derives
      (r := { r with cursor := r.cursor.read (.word varWord) }) hDepth hDeclaration
    exact .declaration hSpelled hAssignments (expect_mark hEnd)
  | false =>
    have hVar' : ¬ varWord <+: r.cursor.rest := by
      rw [← List.isPrefixOf_iff_prefix, hVar]
      exact Bool.false_ne_true
    by_cases hLetter : r.cursor.peek?.any isLetter = true
    · rw [statement_of_letter hVar hLetter] at h
      obtain ⟨u, r₁, hAssignment, hEnd⟩ := bind_eq_ok_iff.1 h
      exact .assignment hVar' (letterLed_iff.1 hLetter) (assignment_derives hDepth hAssignment)
        (expect_mark hEnd)
    · rw [statement_of_other hVar hLetter] at h
      obtain ⟨u, r₁, hExpression, hEnd⟩ := bind_eq_ok_iff.1 h
      exact .expression hVar' (fun hLed => hLetter (letterLed_iff.2 hLed))
        (expression_derives hDepth hExpression) (expect_mark hEnd)

/-- What a check accepts is a program. -/
theorem program_of_check (h : (check limit text).error? = none) : Program limit.levels text := by
  rw [check, program_start] at h
  cases hr : repeatWhile Option.isSome (statement limit) (Reader.start text) with
  | error e r =>
    rw [hr] at h
    cases h
  | ok u r =>
    obtain ⟨-, hEnd, -⟩ := leads_statements.ok rfl trivial hr
    refine ⟨(Reader.start text).cursor.rest, longestGap_iff.2 (Cursor.rest_skipGap _), ?_⟩
    refine (repeatWhile_backward (I := fun r => r.depth = 0)
      (P := fun s => Relation.ReflTransGen (Statement limit.levels) s []) ?_ rfl hr).2
      (hEnd ▸ .refl)
    intro r r' hDepth hGoing hStatement
    have hDepth' := (leads_statement.ok hDepth ⟨trivial, hGoing⟩ hStatement).1
    exact ⟨hDepth', .head (statement_derives hDepth hStatement)⟩

end ScriptCheck.Grammar
