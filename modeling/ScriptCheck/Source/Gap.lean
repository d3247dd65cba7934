import ScriptCheck.Source.ByteClass

/-!
# Gaps

Between two terminals may stand a gap: spaces and comments in any order.  A comment starts with two
slashes and runs up to the next line feed, which is not part of it but a space after it, or to the
end of the text.  `gapLength` measures the longest gap at the front of a text, and
`gapLength_drop_gapLength` says that none starts behind it.
-/

namespace ScriptCheck.Source

/-- The line feed. -/
def lineFeed : UInt8 := 0x0a

/-- The slash: alone an operator, doubled the start of a comment. -/
def slash : UInt8 := 0x2f

/-- Whether a comment starts at the front of `bytes`. -/
def startsComment (bytes : List UInt8) : Bool := [slash, slash].isPrefixOf bytes

/-- Adds to `n` the length of the longest gap at the front of a text, of which the front stands
inside a comment if `inComment`. -/
def gapLengthFrom (n : Nat) (inComment : Bool) : List UInt8 → Nat
  | [] => n
  | b :: bs =>
    if inComment then gapLengthFrom (n + 1) (b != lineFeed) bs
    else if isSpace b then gapLengthFrom (n + 1) false bs
    else if startsComment (b :: bs) then gapLengthFrom (n + 1) true bs
    else n

/-- The length of the longest gap at the front of `bytes`. -/
def gapLength (bytes : List UInt8) : Nat := gapLengthFrom 0 false bytes

/-! ## How long a gap is -/

/-- The count so far only adds to the length. -/
theorem gapLengthFrom_eq_add (n : Nat) (inComment : Bool) (bs : List UInt8) :
    gapLengthFrom n inComment bs = n + gapLengthFrom 0 inComment bs := by
  induction bs generalizing n inComment with
  | nil => rfl
  | cons b bs ih =>
    simp only [gapLengthFrom, ih (n + 1), ih (0 + 1)]
    repeat' split
    all_goals omega

/-- How a gap goes on over one more byte. -/
theorem gapLengthFrom_cons (inComment : Bool) (b : UInt8) (bs : List UInt8) :
    gapLengthFrom 0 inComment (b :: bs) =
      if inComment then gapLengthFrom 0 (b != lineFeed) bs + 1
      else if isSpace b then gapLength bs + 1
      else if startsComment (b :: bs) then gapLengthFrom 0 true bs + 1
      else 0 := by
  simp only [gapLengthFrom, gapLength, gapLengthFrom_eq_add (0 + 1), Nat.zero_add, Nat.add_comm 1]

theorem gapLengthFrom_le_length (inComment : Bool) (bs : List UInt8) :
    gapLengthFrom 0 inComment bs ≤ bs.length := by
  induction bs generalizing inComment with
  | nil => exact Nat.le_refl 0
  | cons b bs ih =>
    rw [gapLengthFrom_cons]
    repeat' split
    all_goals simp only [List.length_cons, Nat.add_le_add_iff_right, Nat.zero_le]
    · exact ih _
    · exact ih false
    · exact ih true

/-- Behind the longest gap no gap starts. -/
theorem gapLength_drop_gapLengthFrom (inComment : Bool) (bs : List UInt8) :
    gapLength (bs.drop (gapLengthFrom 0 inComment bs)) = 0 := by
  induction bs generalizing inComment with
  | nil => rfl
  | cons b bs ih =>
    rw [gapLengthFrom_cons]
    split
    · exact ih _
    · split
      · exact ih false
      · split
        · exact ih true
        · simp_all [gapLength, gapLengthFrom_cons]

theorem gapLength_le_length (bs : List UInt8) : gapLength bs ≤ bs.length :=
  gapLengthFrom_le_length false bs

theorem gapLength_drop_gapLength (bs : List UInt8) : gapLength (bs.drop (gapLength bs)) = 0 :=
  gapLength_drop_gapLengthFrom false bs

end ScriptCheck.Source
