import ScriptCheck.Grammar.Program
import ScriptCheck.Proofs.Terminals

/-!
# Progress

A production never moves the reader back, and most of them move it on whenever they succeed.  Both
are closed under the ways in which productions are put together, so the facts about the grammar are
read off its definitions.

* `Moves p` — `p` never moves back; `Advances p` — and moves on when it succeeds.
* `advances_expression`, `advances_statement` — **expressions and statements advance**, so that
  every round of every repetition of the grammar gets on.
-/

namespace ScriptCheck.Grammar

open Source Production

variable {text : List UInt8} {α β : Type}

/-! ## Running productions -/

theorem run_bind (p : Production text α) (f : α → Production text β) (r : Reader text) :
    (p >>= f) r = match p r with
      | .ok a r' => f a r'
      | .error e r' => .error e r' := by
  show EStateM.bind p f r = _
  unfold EStateM.bind
  cases p r <;> rfl

theorem run_peek_bind (f : Option UInt8 → Production text β) (r : Reader text) :
    (peek >>= f) r = f r.cursor.peek? r := rfl

theorem run_discard (p : Production text α) (r : Reader text) :
    discard p r = match p r with
      | .ok _ r' => .ok () r'
      | .error e r' => .error e r' := by
  show EStateM.map (fun _ => PUnit.unit) p r = _
  unfold EStateM.map
  cases p r <;> rfl

/-- A production that succeeds goes over to the next one. -/
theorem bind_eq_ok {p : Production text α} {f : α → Production text β} {r r' : Reader text} {a : α}
    (h : p r = .ok a r') : (p >>= f) r = f a r' := by
  rw [run_bind, h]

theorem bind_eq_error {p : Production text α} {f : α → Production text β} {r r' : Reader text}
    {e : SyntaxError} (h : p r = .error e r') : (p >>= f) r = .error e r' := by
  rw [run_bind, h]

/-! ## Two kinds of progress -/

/-- The production never moves the reader back. -/
def Moves (p : Production text α) : Prop :=
  ∀ r, match p r with
    | .ok _ r' => r.cursor.position ≤ r'.cursor.position
    | .error _ r' => r.cursor.position ≤ r'.cursor.position

/-- The production moves the reader on if it succeeds, and not back if it fails. -/
def Advances (p : Production text α) : Prop :=
  ∀ r, match p r with
    | .ok _ r' => r.cursor.position < r'.cursor.position
    | .error _ r' => r.cursor.position ≤ r'.cursor.position

theorem Moves.ok {p : Production text α} (h : Moves p) {r r' : Reader text} {a : α}
    (hp : p r = .ok a r') : r.cursor.position ≤ r'.cursor.position := by
  have := h r
  rwa [hp] at this

theorem Moves.error {p : Production text α} (h : Moves p) {r r' : Reader text} {e : SyntaxError}
    (hp : p r = .error e r') : r.cursor.position ≤ r'.cursor.position := by
  have := h r
  rwa [hp] at this

theorem Advances.ok {p : Production text α} (h : Advances p) {r r' : Reader text} {a : α}
    (hp : p r = .ok a r') : r.cursor.position < r'.cursor.position := by
  have := h r
  rwa [hp] at this

theorem Advances.moves {p : Production text α} (h : Advances p) : Moves p := by
  intro r
  have := h r
  cases hp : p r with
  | ok a r' => rw [hp] at this; exact Nat.le_of_lt this
  | error e r' => rwa [hp] at this

theorem Moves.bind {p : Production text α} {f : α → Production text β} (hp : Moves p)
    (hf : ∀ a, Moves (f a)) : Moves (p >>= f) := by
  intro r
  cases hr : p r with
  | error e r' => rw [bind_eq_error hr]; exact hp.error hr
  | ok a r' =>
    rw [bind_eq_ok hr]
    have hLe := hp.ok hr
    cases hr' : f a r' with
    | ok b r'' => exact hLe.trans ((hf a).ok hr')
    | error e r'' => exact hLe.trans ((hf a).error hr')

theorem Advances.bind {p : Production text α} {f : α → Production text β} (hp : Advances p)
    (hf : ∀ a, Moves (f a)) : Advances (p >>= f) := by
  intro r
  cases hr : p r with
  | error e r' => rw [bind_eq_error hr]; exact hp.moves.error hr
  | ok a r' =>
    rw [bind_eq_ok hr]
    have hLt := hp.ok hr
    cases hr' : f a r' with
    | ok b r'' => exact Nat.lt_of_lt_of_le hLt ((hf a).ok hr')
    | error e r'' => exact hLt.le.trans ((hf a).error hr')

theorem Moves.bind_advances {p : Production text α} {f : α → Production text β} (hp : Moves p)
    (hf : ∀ a, Advances (f a)) : Advances (p >>= f) := by
  intro r
  cases hr : p r with
  | error e r' => rw [bind_eq_error hr]; exact hp.error hr
  | ok a r' =>
    rw [bind_eq_ok hr]
    have hLe := hp.ok hr
    cases hr' : f a r' with
    | ok b r'' => exact Nat.lt_of_le_of_lt hLe ((hf a).ok hr')
    | error e r'' => exact hLe.trans ((hf a).moves.error hr')

/-- What never moves back still does not when it is repeated. -/
theorem Moves.repeatWhile {body : Production text Unit} (h : Moves body)
    (going : Option UInt8 → Bool) : Moves (repeatWhile going body) := by
  intro r
  -- the rounds follow each other with less text left each time
  induction hn : text.length - r.cursor.position using Nat.strong_induction_on generalizing r with
  | _ n ih =>
    rw [Production.repeatWhile]
    by_cases hGoing : going r.cursor.peek? = true
    · rw [if_pos hGoing]
      cases hBody : body r with
      | error e r' => exact h.error hBody
      | ok u r' =>
        dsimp only
        by_cases hMoved : r.cursor.position < r'.cursor.position
        · rw [if_pos hMoved]
          have hEnd := r'.cursor.position_le
          have hRest := ih _ (by omega) r' rfl
          cases hr : Production.repeatWhile going body r' with
          | ok u r'' => rw [hr] at hRest; exact hMoved.le.trans hRest
          | error e r'' => rw [hr] at hRest; exact hMoved.le.trans hRest
        · rw [if_neg hMoved]
          exact h.ok hBody
    · rw [if_neg hGoing]

/-! ## Terminals -/

/-- The production reads the terminal `t` if the next byte passes `test`, and fails in place with
`cause` otherwise. -/
def ReadsTerminal (p : Production text Unit) (t : Terminal) (test : Option UInt8 → Bool)
    (cause : Cause) : Prop :=
  ∀ r, p r = if test r.cursor.peek? then .ok () { r with cursor := r.cursor.read t }
    else .error (r.cursor.error cause) r

/-- A next byte that passes `test` is the start of the terminal `t`. -/
def Starts (t : Terminal) (test : Option UInt8 → Bool) : Prop :=
  ∀ s : List UInt8, test s.head? = true → t.Fits s

theorem readsTerminal_expect (ch : Char) :
    ReadsTerminal (expect ch : Production text Unit) .byte (goesOn ch)
      (.expected (Char.ofNat ch.toUInt8.toNat)) := by
  intro r
  unfold expect Cursor.expect goesOn Cursor.isAt
  by_cases h : (r.cursor.peek? == some ch.toUInt8) = true
  · rw [if_pos h, if_pos h]
    rfl
  · rw [if_neg h, if_neg h]

theorem ReadsTerminal.ok {p : Production text Unit} {t : Terminal} {test : Option UInt8 → Bool}
    {cause : Cause} (h : ReadsTerminal p t test cause) {r r' : Reader text}
    (hp : p r = .ok () r') :
    test r.cursor.peek? = true ∧ r' = { r with cursor := r.cursor.read t } := by
  rw [h r] at hp
  split at hp
  · rename_i hTest
    cases hp
    exact ⟨hTest, rfl⟩
  · cases hp

/-- The error names the character itself if one byte holds it. -/
theorem readsTerminal_expect_of_byte {ch : Char} (h : Char.ofNat ch.toUInt8.toNat = ch) :
    ReadsTerminal (expect ch : Production text Unit) .byte (goesOn ch) (.expected ch) := by
  intro r
  rw [readsTerminal_expect ch r, h]

theorem readsTerminal_name :
    ReadsTerminal (name : Production text Unit) .name (·.any startsName) .invalidIdentifier := by
  intro r
  unfold name Cursor.readName Cursor.peek? Cursor.read
  cases hRest : r.cursor.rest with
  | nil => rfl
  | cons b bs =>
    by_cases hb : startsName b = true
    · simp [nameLength_cons hb, hb]
    · simp [nameLength, hb]

theorem readsTerminal_number :
    ReadsTerminal (discard number : Production text Unit) .number (·.any isDigit)
      .invalidNumber := by
  intro r
  rw [run_discard]
  unfold number Cursor.readNumber Cursor.peek? Cursor.read
  cases hRest : r.cursor.rest with
  | nil => rfl
  | cons b bs =>
    by_cases hb : isDigit b = true
    · simp [hb]
    · simp [hb]

theorem starts_byte (ch : Char) : Starts .byte (goesOn ch) := by
  rintro s h rfl
  simp [goesOn] at h

theorem starts_name : Starts .name (·.any startsName) :=
  fun s h => (Option.any_eq_true _ s.head?).1 h

theorem starts_number : Starts .number (·.any isDigit) :=
  fun s h => (Option.any_eq_true _ s.head?).1 h

theorem run_skipWord (word : List UInt8) (r : Reader text) :
    skipWord word r =
      if word.isPrefixOf r.cursor.rest then .ok true { r with cursor := r.cursor.read (.word word) }
      else .ok false r := by
  unfold skipWord Cursor.skipWord?
  by_cases h : word.isPrefixOf r.cursor.rest = true
  · rw [if_pos h, if_pos h]
    rfl
  · rw [if_neg h, if_neg h]

theorem ReadsTerminal.advances {p : Production text Unit} {t : Terminal}
    {test : Option UInt8 → Bool} {cause : Cause} (h : ReadsTerminal p t test cause)
    (hStarts : Starts t test) : Advances p := by
  intro r
  rw [h r]
  by_cases hTest : test r.cursor.peek? = true
  · rw [if_pos hTest]
    exact Cursor.position_lt_read (hStarts _ hTest)
  · rw [if_neg hTest]

theorem advances_expect (ch : Char) : Advances (expect ch : Production text Unit) :=
  (readsTerminal_expect ch).advances (starts_byte ch)

theorem advances_name : Advances (name : Production text Unit) :=
  readsTerminal_name.advances starts_name

theorem advances_number : Advances (discard number : Production text Unit) :=
  readsTerminal_number.advances starts_number

theorem moves_read (t : Terminal) (c : Cursor text) : c.position ≤ (c.read t).position := by
  have hLe : (c.read t).rest.length ≤ c.rest.length := by
    rw [Cursor.rest_read, Terminal.rest, beyondGap, List.length_drop, List.length_drop]
    omega
  have h₁ := c.position_add_length_rest
  have h₂ := (c.read t).position_add_length_rest
  omega

theorem moves_operator : Moves (operator : Production text Unit) :=
  fun r => moves_read .byte r.cursor

theorem moves_peek : Moves (peek : Production text (Option UInt8)) := fun _ => le_refl _

theorem moves_pure (a : α) : Moves (pure a : Production text α) := fun _ => le_refl _

theorem moves_skipWord (word : List UInt8) : Moves (skipWord word : Production text Bool) := by
  intro r
  rw [run_skipWord]
  by_cases h : word.isPrefixOf r.cursor.rest = true
  · rw [if_pos h]
    exact moves_read (.word word) r.cursor
  · rw [if_neg h]

/-! ## The grammar -/

theorem advances_argument {nested : Production text Unit} (h : Advances nested) :
    Advances (argument nested) := by
  refine h.bind fun _ => moves_peek.bind fun next => ?_
  by_cases hComma : goesOn ',' next = true
  · rw [if_pos hComma]
    exact (advances_expect ',').moves
  · rw [if_neg hComma]
    exact moves_pure ()

theorem advances_arguments {nested : Production text Unit} (h : Advances nested) :
    Advances (arguments nested) :=
  (advances_expect '(').bind fun _ =>
    ((advances_argument h).moves.repeatWhile _).bind fun _ => (advances_expect ')').moves

theorem advances_factor {nested : Production text Unit} (h : Advances nested) :
    Advances (factor nested) := by
  refine moves_peek.bind_advances fun next => ?_
  by_cases hGroup : goesOn '(' next = true
  · rw [if_pos hGroup]
    exact (advances_expect '(').bind fun _ => h.moves.bind fun _ => (advances_expect ')').moves
  rw [if_neg hGroup]
  by_cases hLetter : next.any isLetter = true
  · rw [if_pos hLetter]
    refine advances_name.bind fun _ => moves_peek.bind fun next => ?_
    by_cases hCall : goesOn '(' next = true
    · rw [if_pos hCall]
      exact (advances_arguments h).moves
    · rw [if_neg hCall]
      exact moves_pure ()
  · rw [if_neg hLetter]
    exact advances_number

theorem advances_operator_factor {nested : Production text Unit} (h : Advances nested) :
    Advances (do operator; factor nested) :=
  moves_operator.bind_advances fun _ => advances_factor h

theorem advances_term {nested : Production text Unit} (h : Advances nested) :
    Advances (term nested) :=
  (advances_factor h).bind fun _ => (advances_operator_factor h).moves.repeatWhile _

theorem advances_operator_term {nested : Production text Unit} (h : Advances nested) :
    Advances (do operator; term nested) :=
  moves_operator.bind_advances fun _ => advances_term h

theorem advances_terms {nested : Production text Unit} (h : Advances nested) :
    Advances (terms nested) :=
  (advances_term h).bind fun _ => (advances_operator_term h).moves.repeatWhile _

theorem advances_expressionWithin (limit : NestingLimit) (free : Nat) :
    Advances (expressionWithin limit free : Production text Unit) := by
  induction free with
  | zero => exact fun r => le_refl _
  | succ free ih =>
    have hEnter : Moves (enter : Production text Unit) := fun _ => le_refl _
    have hLeave : Moves (leave : Production text Unit) := fun _ => le_refl _
    exact hEnter.bind_advances fun _ => (advances_terms ih).bind fun _ => hLeave

theorem advances_expression (limit : NestingLimit) :
    Advances (expression limit : Production text Unit) :=
  fun r => advances_expressionWithin limit _ r

theorem advances_assignment (limit : NestingLimit) :
    Advances (assignment limit : Production text Unit) :=
  advances_name.bind fun _ =>
    (advances_expect '=').moves.bind fun _ => (advances_expression limit).moves

theorem advances_comma_assignment (limit : NestingLimit) :
    Advances (do expect ','; assignment limit : Production text Unit) :=
  (advances_expect ',').bind fun _ => (advances_assignment limit).moves

theorem advances_declaration (limit : NestingLimit) :
    Advances (declaration limit : Production text Unit) :=
  (advances_assignment limit).bind fun _ => (advances_comma_assignment limit).moves.repeatWhile _

theorem advances_statement (limit : NestingLimit) :
    Advances (statement limit : Production text Unit) := by
  refine Advances.bind ?_ fun _ => (advances_expect ';').moves
  refine (moves_skipWord varWord).bind_advances fun isVar => ?_
  cases isVar with
  | true => exact advances_declaration limit
  | false =>
    refine moves_peek.bind_advances fun next => ?_
    by_cases hLetter : next.any isLetter = true
    · rw [if_pos hLetter]
      exact advances_assignment limit
    · rw [if_neg hLetter]
      exact advances_expression limit

end ScriptCheck.Grammar
