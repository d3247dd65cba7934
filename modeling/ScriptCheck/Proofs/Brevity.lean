import ScriptCheck.Checker
import ScriptCheck.Proofs.Decoding
import ScriptCheck.Proofs.Simulation

/-!
# Messages are brief

A message has room for a certain number of bytes and is cut if it needs more.  The messages of a
check never do: their snippets come from ten bytes of the text, and there are only a few conditions.

* `Grammar.causes`, `State.cause_of_move` — the causes for which a check can fail.
* `SyntaxError.Brief`, `Grammar.brief_of_check` — **every error of a check is brief**, and the
  message of a brief error has at most `mostMessageBytes` bytes (`Brief.message_le`).
* `Text.Bounded.ofString_eq` — a text that fits is stored as it is.
-/

namespace ScriptCheck

open Text

/-! ## The errors of a check -/

namespace Grammar

open Source

variable {limit : NestingLimit}

/-- The causes for which a check under `limit` can fail. -/
def causes (limit : NestingLimit) : List Cause :=
  [.nestingTooDeep limit.levels, .invalidNumber, .invalidIdentifier, .expected ')', .expected ';',
    .expected '=']

theorem Stage.cause_of_move {stage : Stage} {opened : List Bracket} {declares : Bool}
    {next : Option UInt8} {cause : Cause}
    (h : stage.move limit opened declares next = .fail cause) : cause ∈ causes limit := by
  cases stage <;> simp only [Stage.move] at h <;> repeat' split at h
  all_goals cases h
  all_goals simp [causes]

theorem State.cause_of_move {st : State} {s : List UInt8} {cause : Cause}
    (h : st.move limit s = .fail cause) : cause ∈ causes limit := by
  cases st with
  | between =>
    simp only [State.move] at h
    repeat' split at h
    all_goals cases h
  | target declares | equals declares =>
    simp only [State.move] at h
    split at h
    all_goals cases h
    simp [causes]
  | within stage opened declares => exact Stage.cause_of_move h

end Grammar

/-- The longest snippet of ten bytes. -/
def mostSnippetBytes : Nat := 3 * Source.Cursor.snippetLength

/-- The longest condition. -/
def mostConditionBytes : Nat := 25

/-- The longest message: its parts, and four characters around the snippet. -/
def mostMessageBytes : Nat := mostSnippetBytes + mostConditionBytes + 4

/-- Snippet and condition are short. -/
structure SyntaxError.Brief (e : SyntaxError) : Prop where
  snippet_le : e.snippet.utf8ByteSize ≤ mostSnippetBytes
  condition_le : e.cause.condition.utf8ByteSize ≤ mostConditionBytes

theorem SyntaxError.Brief.message_le {e : SyntaxError} (h : e.Brief) :
    e.message.utf8ByteSize ≤ mostMessageBytes := by
  have hSize : e.message.utf8ByteSize =
      e.snippet.utf8ByteSize + e.cause.condition.utf8ByteSize + 4 := by
    simp only [message, String.utf8ByteSize_append]
    have hOpen : "[".utf8ByteSize = 1 := by decide
    have hClose : "]: ".utf8ByteSize = 3 := by decide
    omega
  have := h.snippet_le
  have := h.condition_le
  rw [hSize, mostMessageBytes]
  omega

/-- A number of at most three digits takes at most three bytes. -/
theorem utf8ByteSize_repr_le {n : Nat} (h : n < 1000) : (Nat.repr n).utf8ByteSize ≤ 3 := by
  have hDigits : ∀ cs : List Char, (∀ c ∈ cs, c.isDigit) → String.utf8Len cs = cs.length := by
    intro cs
    induction cs with
    | nil => simp
    | cons c cs ih =>
      intro hAll
      have hc : c.toNat < 128 := by
        have := (Char.isDigit_iff_toNat.1 (hAll c (by simp))).2
        exact Nat.lt_of_le_of_lt this (by decide)
      rw [String.utf8Len_cons, Utf8.utf8Size_of_ascii hc, ih fun d hd => hAll d (by simp [hd])]
      rfl
  have hLength : (Nat.toDigits 10 n).length ≤ 3 :=
    (Nat.length_toDigits_le_iff (by decide) (by decide)).2 h
  rw [← String.utf8Len_toList, Nat.toList_repr,
    hDigits _ fun c hc => Nat.isDigit_of_mem_toDigits (by decide) (by decide) hc]
  exact hLength

theorem Grammar.condition_le {limit : NestingLimit} {cause : Cause} (h : cause ∈ causes limit) :
    cause.condition.utf8ByteSize ≤ mostConditionBytes := by
  simp only [causes, List.mem_cons, List.not_mem_nil, or_false] at h
  rcases h with rfl | rfl | rfl | rfl | rfl | rfl
  · have hLevels : limit.levels < 1000 := Nat.lt_of_le_of_lt limit.levels_le (by decide)
    have hSize : (Cause.condition (.nestingTooDeep limit.levels)).utf8ByteSize =
        "nesting depth exceeds ".utf8ByteSize + (Nat.repr limit.levels).utf8ByteSize :=
      String.utf8ByteSize_append
    have hText : "nesting depth exceeds ".utf8ByteSize = 22 := by decide
    rw [hSize, hText]
    exact Nat.add_le_add_left (utf8ByteSize_repr_le hLevels) 22
  all_goals decide

/-- **Every error of a check is brief.** -/
theorem Grammar.brief_of_check {limit : NestingLimit} {text : List UInt8} {e : SyntaxError}
    (h : (check limit text).error? = some e) : e.Brief := by
  obtain ⟨cause, c, ⟨st, -, hMove⟩, rfl⟩ := check_error?_eq_some_iff.1 h
  refine ⟨?_, condition_le (State.cause_of_move hMove)⟩
  have hWindow : (c.rest.take Source.Cursor.snippetLength).length ≤
      Source.Cursor.snippetLength := by
    simp
  calc (Utf8.lossy (c.rest.take Source.Cursor.snippetLength)).utf8ByteSize
      ≤ 3 * (c.rest.take Source.Cursor.snippetLength).length := Utf8.utf8ByteSize_lossy_le _
    _ ≤ mostSnippetBytes := Nat.mul_le_mul_left 3 hWindow

/-! ## Storing a message -/

theorem Text.fitting_eq_self {room : Nat} {cs : List Char} (h : String.utf8Len cs ≤ room) :
    fitting room cs = cs := by
  induction cs generalizing room with
  | nil => rfl
  | cons c cs ih =>
    rw [String.utf8Len_cons] at h
    rw [fitting, if_pos (by omega), ih (by omega)]

/-- A text that fits is stored as it is. -/
theorem Text.Bounded.ofString_eq {text : String} (h : text.utf8ByteSize ≤ capacity) :
    ofString text = ⟨text, false⟩ := by
  have hFits : fitting capacity text.toList = text.toList :=
    fitting_eq_self (by rwa [String.utf8Len_toList])
  simp [ofString, hFits, h]

theorem SyntaxError.Brief.ofString_message {e : SyntaxError} (h : e.Brief) :
    Bounded.ofString e.message = ⟨e.message, false⟩ :=
  Bounded.ofString_eq (Nat.le_trans h.message_le (by decide))

end ScriptCheck
