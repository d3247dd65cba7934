import Mathlib.Data.Int.ModEq
import Mathlib.Data.List.Induction
import Mathlib.Data.Nat.Digits.Defs
import ScriptCheck.Proofs.Derivation

/-!
# The value of a number

A number may have any number of digits, and its value is a word.  It is computed digit by digit, and
each digit may make it wrap around.  This file says which word comes out, and what else is left of
the digits.

* `DigitRun` — the digits at the front of a text, all of them; `decimal` — the number that they
  stand for, which is as great as it is.
* `digitsValue_eq` — **wrapping at each digit is wrapping once**, at the end.
* `DigitRun.readNumber`, `readNumber_of_not_digit` — a number is read exactly where a digit stands.
* `number_reads_digits` — **a number is read with its value**, modulo the number of words, its bytes
  are noted, and the gap behind it is passed.
-/

namespace ScriptCheck.Source

/-! ## Digits and words -/

/-- What digits stand for in decimal. -/
def decimal (run : List UInt8) : Nat :=
  Nat.ofDigits 10 (run.reverse.map fun d => d.toNat - '0'.toNat)

theorem decimal_concat (run : List UInt8) (d : UInt8) :
    decimal (run ++ [d]) = decimal run * 10 + (d.toNat - '0'.toNat) := by
  rw [decimal, List.reverse_append, List.reverse_singleton, List.singleton_append, List.map_cons,
    Nat.ofDigits_cons, ← decimal]
  omega

/-- **Wrapping at each digit is wrapping once.** -/
theorem digitsValue_eq (run : List UInt8) : digitsValue run = Int64.ofNat (decimal run) := by
  induction run using List.reverseRecOn with
  | nil => rfl
  | append_singleton run d ih =>
    rw [digitsValue, List.foldl_append, ← digitsValue, ih, decimal_concat, Int64.ofNat_add,
      Int64.ofNat_mul]
    rfl

/-- A word is determined by what it is congruent to. -/
theorem toInt_modEq_iff {v : Int64} {n : Nat} :
    v.toInt ≡ n [ZMOD 2 ^ 64] ↔ v = Int64.ofNat n := by
  have hSize : ((Int64.size : Nat) : Int) = 2 ^ 64 := by norm_num
  constructor
  · intro h
    rw [Int.ModEq, ← hSize] at h
    rw [← Int64.toInt_inj, Int64.toInt_ofNat', ← Int.emod_bmod, ← h, Int.emod_bmod]
    exact v.toInt_bmod.symm
  · rintro rfl
    rw [Int.ModEq, Int64.toInt_ofNat', ← hSize, Int.bmod_emod]

end ScriptCheck.Source

namespace ScriptCheck.Grammar

open Source Production

variable {text : List UInt8}

/-! ## Runs of digits -/

/-- The text `s` starts with the digits `run`, at least one, and goes on with `rest`, which starts
with no digit. -/
structure DigitRun (s run rest : List UInt8) : Prop where
  eq : s = run ++ rest
  ne_nil : run ≠ []
  digits : ∀ b ∈ run, Digit b
  longest : ∀ b ∈ rest.head?, ¬ Digit b

theorem exists_digitRun {s : List UInt8} {b : UInt8} (hs : b ∈ s.head?) (hb : Digit b) :
    ∃ run rest, DigitRun s run rest := by
  refine ⟨s.takeWhile isDigit, s.dropWhile isDigit, List.takeWhile_append_dropWhile.symm, ?_,
    fun d hd => isDigit_iff.1 (List.mem_takeWhile_imp hd),
    fun d hd h => dropWhile_run isDigit s d hd (isDigit_iff.2 h)⟩
  obtain ⟨s, rfl⟩ := List.head?_eq_some_iff.1 hs
  rw [List.takeWhile_cons, if_pos (isDigit_iff.2 hb)]
  exact List.cons_ne_nil _ _

theorem DigitRun.takeWhile_eq {s run rest : List UInt8} (h : DigitRun s run rest) :
    s.takeWhile isDigit = run := by
  rw [h.eq]
  exact takeWhile_run (fun d hd => isDigit_iff.2 (h.digits d hd))
    fun d hd hDigit => h.longest d hd (isDigit_iff.1 hDigit)

/-- Where digits stand, they are read with their value. -/
theorem DigitRun.readNumber {c : Cursor text} {run rest : List UInt8}
    (h : DigitRun c.rest run rest) :
    c.readNumber = .ok (Int64.ofNat (decimal run), c.takeToken run.length) := by
  obtain ⟨d, ds, rfl⟩ := List.exists_cons_of_ne_nil h.ne_nil
  rw [Cursor.readNumber, h.takeWhile_eq, ← digitsValue_eq]
  rfl

theorem readNumber_of_not_digit {c : Cursor text} (h : ∀ b ∈ c.peek?, ¬ Digit b) :
    c.readNumber = .error (c.error .invalidNumber) := by
  have hNone : c.rest.takeWhile isDigit = [] := by
    unfold Cursor.peek? at h
    cases hs : c.rest with
    | nil => rfl
    | cons b s =>
      rw [hs] at h
      exact List.takeWhile_cons_of_neg fun hDigit => h b rfl (isDigit_iff.1 hDigit)
  rw [Cursor.readNumber, hNone]

/-- **A number is read with its value.**  Where the reader stands on a digit, the number is the
longest run of digits there.  Its value is the one word that is congruent, modulo the number of
words, to what the digits stand for, however many they are and with whatever zeros in front.  The
run is noted as the token, and the reader moves behind it and behind the longest gap that follows.
Everywhere else the number is missing, which is said of the place of the reader, and the reader
stays as it is. -/
theorem number_reads_digits (r : Reader text) :
    (∀ b ∈ r.cursor.peek?, Digit b → ∃ run rest value r',
      DigitRun r.cursor.rest run rest ∧ number r = .ok value r' ∧
      (∀ v : Int64, v.toInt ≡ decimal run [ZMOD 2 ^ 64] ↔ v = value) ∧
      r'.cursor.token = ⟨r.cursor.position, run.length⟩ ∧ r'.cursor.token.bytes text = run ∧
      LongestGap rest r'.cursor.rest ∧ r'.depth = r.depth) ∧
    ((∀ b ∈ r.cursor.peek?, ¬ Digit b) →
      number r = .error (r.cursor.error .invalidNumber) r) := by
  constructor
  · intro b hs hb
    obtain ⟨run, rest, hRun⟩ := exists_digitRun hs hb
    have hLe : run.length ≤ r.cursor.rest.length := by
      rw [hRun.eq, List.length_append]
      omega
    refine ⟨run, rest, Int64.ofNat (decimal run),
      { r with cursor := r.cursor.takeToken run.length }, hRun, ?_, fun _ => toInt_modEq_iff,
      Cursor.token_takeToken hLe, ?_, ?_, rfl⟩
    · rw [number, hRun.readNumber]
    · rw [Cursor.bytes_takeToken hLe, hRun.eq, List.take_left]
    · rw [Cursor.rest_takeToken, hRun.eq, List.drop_left]
      exact longestGap_iff.2 rfl
  · intro h
    rw [number, readNumber_of_not_digit h]

/-- `018446744073709551615;`: a zero, and the digits of the number of words less one, have the value
minus one. -/
theorem number_reads_digits_wrapped :
    let digits : List UInt8 := [0x30, 0x31, 0x38, 0x34, 0x34, 0x36, 0x37, 0x34, 0x34, 0x30, 0x37,
      0x33, 0x37, 0x30, 0x39, 0x35, 0x35, 0x31, 0x36, 0x31, 0x35]
    ∃ r', number (Reader.start (digits ++ [0x3b])) = .ok (-1) r' ∧
      r'.cursor.token = ⟨0, 21⟩ ∧ r'.cursor.token.bytes (digits ++ [0x3b]) = digits := by
  intro digits
  obtain ⟨run, rest, value, r', hRun, hNumber, hValue, hToken, hBytes, -⟩ :=
    (number_reads_digits (Reader.start (digits ++ [0x3b]))).1 0x30 rfl (isDigit_iff.1 (by decide))
  have hDigits : run = digits := hRun.takeWhile_eq.symm.trans (by decide +kernel)
  have hWord : (-1 : Int64) = value := by
    refine (hValue (-1)).1 ?_
    rw [hDigits]
    decide +kernel
  subst hDigits
  rw [hWord]
  exact ⟨r', hNumber, hToken, hBytes⟩

end ScriptCheck.Grammar
