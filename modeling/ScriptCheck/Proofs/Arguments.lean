import Mathlib.Data.List.Induction
import Mathlib.Data.Nat.Digits.Defs
import Mathlib.Tactic.IntervalCases
import ScriptCheck.Command.Options

/-!
# What arguments ask for

The options are read argument by argument, and one of them swallows the next.  This file cuts an
argument list into units first, and says what the units alone decide.

* `ArgumentUnit`, `unitsOf` — the units of an argument list; a depth is one with its value, whatever
  that looks like.
* `Numeral` — the numbers that a value may stand for, said of its digits; `readDepth?_eq_some_iff` —
  **the reader of depths reads numerals**, with any number of leading zeros.
* `ArgumentUnit.Faulty`, `FirstFault` — what is wrong with a unit, by itself, and with the first of
  a list that is wrong.
* `Collects` — what units without fault have asked for so far.  One unit more keeps that
  (`Collects.add`), and so does any number of them, up to the first that is faulty
  (`Collects.addAll`).
* `Decides`, `Decides.unique`, `Decides.congr` — how units decide, and that they do so in one way
  only, whatever the order of units of different kinds.
* `units_decide_options` — **the units decide the options**: the first fault wins over all that
  comes behind it and over a missing file, and otherwise each kind of unit is collected for itself.
-/

namespace ScriptCheck.Command

/-! ## Units -/

/-- A stretch of an argument list that is read in one go. -/
inductive ArgumentUnit where
  | view
  /-- `--max-depth` and the argument behind it, if there is one. -/
  | depth (value? : Option String)
  | unknown (option : String)
  | file (name : String)
  deriving DecidableEq, Repr

/-- The units of an argument list, from left to right. -/
def unitsOf : List String → List ArgumentUnit
  | [] => []
  | arg :: rest =>
    if arg = "--view" then .view :: unitsOf rest
    else if arg = "--max-depth" then
      match rest with
      | [] => [.depth none]
      | value :: rest => .depth (some value) :: unitsOf rest
    else if ['-', '-'] <+: arg.toList then .unknown arg :: unitsOf rest
    else .file arg :: unitsOf rest

namespace ArgumentUnit

/-- The arguments of a unit. -/
def arguments : ArgumentUnit → List String
  | view => ["--view"]
  | depth value? => "--max-depth" :: value?.toList
  | unknown option => [option]
  | file name => [name]

/-- The file that a unit names, if it does. -/
def file? : ArgumentUnit → Option String
  | file name => some name
  | _ => none

/-- The value that a unit sets the depth to, if it does. -/
def depth? : ArgumentUnit → Option String
  | depth value? => value?
  | _ => none

end ArgumentUnit

/-- The files that units name. -/
def filesOf (us : List ArgumentUnit) : List String := us.filterMap ArgumentUnit.file?

/-- The values that units set the depth to, one after the other. -/
def depthsOf (us : List ArgumentUnit) : List String := us.filterMap ArgumentUnit.depth?

/-- No argument is lost. -/
theorem flatMap_arguments_unitsOf (args : List String) :
    (unitsOf args).flatMap ArgumentUnit.arguments = args := by
  fun_induction unitsOf args with
  | case1 => rfl
  | case3 hView => rfl
  | case2 _ ih | case4 _ _ _ ih | case5 _ _ _ _ _ ih | case6 _ _ _ _ _ ih =>
    rw [List.flatMap_cons, ih]
    rfl

/-! ## Numerals -/

/-- Digits as they are written. -/
def digitChars (digits : List (Fin 10)) : List Char := digits.map fun d => Nat.digitChar d.val

/-- The text writes `n` in decimal: a plus sign if wanted, and digits, at least one, that stand for
`n`.  There are no numerals beyond a 64-bit word. -/
def Numeral (value : String) (n : Nat) : Prop :=
  ∃ digits : List (Fin 10), digits ≠ [] ∧
    (value.toList = digitChars digits ∨ value.toList = '+' :: digitChars digits) ∧
    n = Nat.ofDigits 10 (digits.reverse.map Fin.val) ∧ n < UInt64.size

theorem digitChar_spec (d : Fin 10) : (Nat.digitChar d.val).isDigit = true ∧
    (Nat.digitChar d.val).toNat - '0'.toNat = d.val ∧ Nat.digitChar d.val ≠ '+' := by
  revert d
  decide

theorem exists_digitChar {c : Char} (h : c.isDigit = true) :
    ∃ d : Fin 10, Nat.digitChar d.val = c := by
  simp only [Char.isDigit, Bool.and_eq_true, decide_eq_true_eq] at h
  have hLow : 48 ≤ c.toNat := UInt32.le_iff_toNat_le.1 h.1
  have hHigh : c.toNat ≤ 57 := UInt32.le_iff_toNat_le.1 h.2
  have hDigit : Nat.digitChar (c.toNat - 48) = Char.ofNat c.toNat := by
    generalize c.toNat = n at hLow hHigh
    interval_cases n <;> rfl
  exact ⟨⟨c.toNat - 48, by omega⟩, hDigit.trans (Char.ofNat_toNat c)⟩

theorem exists_digits {cs : List Char} (h : cs.all Char.isDigit = true) :
    ∃ digits, digitChars digits = cs := by
  induction cs with
  | nil => exact ⟨[], rfl⟩
  | cons c cs ih =>
    rw [List.all_cons, Bool.and_eq_true] at h
    obtain ⟨d, hd⟩ := exists_digitChar h.1
    obtain ⟨digits, hDigits⟩ := ih h.2
    exact ⟨d :: digits, by rw [← hd, ← hDigits]; rfl⟩

theorem all_isDigit (digits : List (Fin 10)) :
    (digitChars digits).all Char.isDigit = true := by
  rw [digitChars, List.all_map, List.all_eq_true]
  exact fun d _ => (digitChar_spec d).1

/-- Reading digits from the left gives the number that they stand for. -/
theorem decimalValue_digits (digits : List (Fin 10)) :
    decimalValue (digitChars digits) = Nat.ofDigits 10 (digits.reverse.map Fin.val) := by
  induction digits using List.reverseRecOn with
  | nil => rfl
  | append_singleton digits d ih =>
    rw [decimalValue, digitChars, List.map_append, ← digitChars, List.foldl_append, ← decimalValue,
      ih, List.reverse_append, List.reverse_singleton, List.singleton_append]
    simp only [List.map_cons, List.map_nil, List.foldl_cons, List.foldl_nil, Nat.ofDigits_cons]
    rw [(digitChar_spec d).2.1]
    exact (Nat.add_comm _ _).trans (congrArg (d.val + ·) (Nat.mul_comm _ _))

/-- What stands behind the plus sign, if there is one. -/
def unsigned : List Char → List Char
  | '+' :: cs => cs
  | cs => cs

theorem eq_or_eq_unsigned (cs : List Char) : cs = unsigned cs ∨ cs = '+' :: unsigned cs := by
  unfold unsigned
  split
  · exact .inr rfl
  · exact .inl rfl

/-- No digit is taken for a sign. -/
theorem unsigned_digitChars (digits : List (Fin 10)) :
    unsigned (digitChars digits) = digitChars digits := by
  cases digits with
  | nil => rfl
  | cons d digits =>
    unfold unsigned
    split
    · rename_i cs hPlus
      exact absurd (List.cons.inj hPlus).1 (digitChar_spec d).2.2
    · rfl

theorem readDepth?_eq (value : String) :
    readDepth? value =
      if unsigned value.toList ≠ [] ∧ (unsigned value.toList).all Char.isDigit = true ∧
          decimalValue (unsigned value.toList) < UInt64.size then
        some (decimalValue (unsigned value.toList))
      else none := rfl

/-- **The reader of depths reads numerals.** -/
theorem readDepth?_eq_some_iff {value : String} {n : Nat} :
    readDepth? value = some n ↔ Numeral value n := by
  rw [readDepth?_eq, Option.ite_none_right_eq_some, Option.some.injEq]
  constructor
  · rintro ⟨⟨hNil, hAll, hSize⟩, rfl⟩
    obtain ⟨digits, hDigits⟩ := exists_digits hAll
    have hText := eq_or_eq_unsigned value.toList
    rw [← hDigits] at hNil hSize hText ⊢
    refine ⟨digits, ?_, hText, decimalValue_digits digits, hSize⟩
    rintro rfl
    exact hNil rfl
  · rintro ⟨digits, hNil, hText, rfl, hSize⟩
    have hUnsigned : unsigned value.toList = digitChars digits := by
      rcases hText with hText | hText
      · rw [hText, unsigned_digitChars]
      · rw [hText]
        rfl
    rw [hUnsigned, decimalValue_digits]
    exact ⟨⟨by simpa [digitChars] using hNil, all_isDigit digits, hSize⟩, rfl⟩

theorem Numeral.unique {value : String} {n m : Nat} (h : Numeral value n) (h' : Numeral value m) :
    n = m :=
  Option.some.inj ((readDepth?_eq_some_iff.2 h).symm.trans (readDepth?_eq_some_iff.2 h'))

/-! ## Faults -/

/-- What is wrong with a unit, whatever stands before or behind it. -/
inductive ArgumentUnit.Faulty : ArgumentUnit → UsageError → Prop
  | missing : Faulty (.depth none) .missingDepth
  | invalid {value : String} (h : ∀ n, ¬ Numeral value n) :
      Faulty (.depth (some value)) (.invalidDepth value)
  | zero {value : String} (h : Numeral value 0) : Faulty (.depth (some value)) .depthTooSmall
  | large {value : String} {n : Nat} (h : Numeral value n) (hn : 512 < n) :
      Faulty (.depth (some value)) .depthTooLarge
  | unknown {option : String} : Faulty (.unknown option) (.unknownOption option)

/-- Nothing is wrong with the unit. -/
def ArgumentUnit.Faultless (u : ArgumentUnit) : Prop := ∀ e, ¬ u.Faulty e

/-- A value sets a limit, or it is faulty. -/
theorem depthLimit_cases (value : String) :
    (∃ limit : NestingLimit, depthLimit value = .ok limit ∧ Numeral value limit.levels ∧
      1 ≤ limit.levels) ∨
      ∃ e, depthLimit value = .error e ∧ (ArgumentUnit.depth (some value)).Faulty e := by
  rw [depthLimit]
  cases hRead : readDepth? value with
  | none =>
    refine .inr ⟨_, rfl, .invalid fun n hn => ?_⟩
    rw [readDepth?_eq_some_iff.2 hn] at hRead
    cases hRead
  | some n =>
    have hNumeral := readDepth?_eq_some_iff.1 hRead
    cases n with
    | zero => exact .inr ⟨_, rfl, .zero hNumeral⟩
    | succ n =>
      by_cases hMost : NestingLimit.most < n + 1
      · exact .inr ⟨_, if_pos hMost, .large hNumeral hMost⟩
      · have hLevels : (NestingLimit.clamp (n + 1)).levels = n + 1 :=
          Nat.min_eq_left (Nat.le_of_not_lt hMost)
        exact .inl ⟨_, if_neg hMost, by rwa [hLevels], by omega⟩

theorem faultless_of_numeral {value : String} {n : Nat} (h : Numeral value n) (hPos : 1 ≤ n)
    (hMost : n ≤ 512) : (ArgumentUnit.depth (some value)).Faultless := by
  intro e hFaulty
  cases hFaulty with
  | invalid hNone => exact hNone n h
  | zero hZero => exact absurd (h.unique hZero) (by omega)
  | large hLarge hLt => exact absurd (h.unique hLarge) (by omega)

theorem ArgumentUnit.Faulty.unique {u : ArgumentUnit} {e e' : UsageError} (h : u.Faulty e)
    (h' : u.Faulty e') : e = e' := by
  cases h with
  | missing | unknown =>
    cases h'
    rfl
  | invalid hNone =>
    cases h' with
    | invalid => rfl
    | zero hZero => exact absurd hZero (hNone _)
    | large hLarge => exact absurd hLarge (hNone _)
  | zero hZero =>
    cases h' with
    | invalid hNone => exact absurd hZero (hNone _)
    | zero => rfl
    | large hLarge hLt => exact absurd (hZero.unique hLarge) (by omega)
  | large hLarge hLt =>
    cases h' with
    | invalid hNone => exact absurd hLarge (hNone _)
    | zero hZero => exact absurd (hZero.unique hLarge) (by omega)
    | large => rfl

/-- `e` is what is wrong with the first faulty unit of a list. -/
inductive FirstFault (e : UsageError) : List ArgumentUnit → Prop
  | here {u : ArgumentUnit} {us : List ArgumentUnit} (h : u.Faulty e) : FirstFault e (u :: us)
  | later {u : ArgumentUnit} {us : List ArgumentUnit} (hu : u.Faultless) (h : FirstFault e us) :
      FirstFault e (u :: us)

theorem FirstFault.unique {e e' : UsageError} {us : List ArgumentUnit} (h : FirstFault e us)
    (h' : FirstFault e' us) : e = e' := by
  induction h with
  | here hFaulty =>
    cases h' with
    | here hFaulty' => exact hFaulty.unique hFaulty'
    | later hFaultless _ => exact absurd hFaulty (hFaultless e)
  | later hFaultless _ ih =>
    cases h' with
    | here hFaulty => exact absurd hFaulty (hFaultless e')
    | later _ h' => exact ih h'

theorem FirstFault.not_faultless {e : UsageError} {us : List ArgumentUnit} (h : FirstFault e us) :
    ¬ ∀ u ∈ us, u.Faultless := by
  induction h with
  | here hFaulty => exact fun hAll => hAll _ List.mem_cons_self e hFaulty
  | later _ _ ih => exact fun hAll => ih fun u hu => hAll u (List.mem_cons_of_mem _ hu)

/-! ## Collecting -/

/-- What one unit adds to what was asked for before it. -/
def ArgumentUnit.add (o : Options) : ArgumentUnit → Except UsageError Options
  | view => .ok { o with view := true }
  | depth none => .error .missingDepth
  | depth (some value) => do
    let limit ← depthLimit value
    .ok { o with limit := limit }
  | unknown option => .error (.unknownOption option)
  | file name => .ok { o with files := o.files ++ [name] }

theorem add_cons (o : Options) (arg : String) (rest : List String) :
    o.add (arg :: rest) =
      if arg = "--view" then Options.add { o with view := true } rest
      else if arg = "--max-depth" then
        match rest with
        | [] => .error .missingDepth
        | value :: rest => do
          let limit ← depthLimit value
          Options.add { o with limit := limit } rest
      else if Options.isOption arg then .error (.unknownOption arg)
      else Options.add { o with files := o.files ++ [arg] } rest :=
  Options.add.eq_def o (arg :: rest)

/-- Arguments are read unit by unit. -/
theorem add_eq_foldlM (o : Options) (args : List String) :
    o.add args = (unitsOf args).foldlM ArgumentUnit.add o := by
  fun_induction unitsOf args generalizing o with
  | case1 => rfl
  | case2 rest ih =>
    rw [add_cons, if_pos rfl, ih]
    rfl
  | case3 hView =>
    rw [add_cons, if_neg hView, if_pos rfl]
    rfl
  | case4 value rest hView ih =>
    rw [add_cons, if_neg hView, if_pos rfl, List.foldlM_cons, ArgumentUnit.add]
    dsimp only
    cases depthLimit value with
    | error e => rfl
    | ok limit => exact ih _
  | case5 arg rest hView hDepth hOption ih =>
    have hIs : Options.isOption arg = true := List.isPrefixOf_iff_prefix.2 hOption
    rw [add_cons, if_neg hView, if_neg hDepth, if_pos hIs]
    rfl
  | case6 arg rest hView hDepth hOption ih =>
    have hIsNot : ¬ Options.isOption arg = true := mt List.isPrefixOf_iff_prefix.1 hOption
    rw [add_cons, if_neg hView, if_neg hDepth, if_neg hIsNot, ih]
    rfl

/-- What the units `us` ask for, if none of them is faulty. -/
structure Collects (us : List ArgumentUnit) (o : Options) : Prop where
  faultless : ∀ u ∈ us, u.Faultless
  view_iff : o.view = true ↔ .view ∈ us
  files_eq : o.files = filesOf us
  /-- The last depth is the one that counts. -/
  numeral : ∀ value ∈ (depthsOf us).getLast?, Numeral value o.limit.levels
  standard : depthsOf us = [] → o.limit.levels = 256
  levels_mem : 1 ≤ o.limit.levels ∧ o.limit.levels ≤ 512

theorem collects_initial : Collects [] .initial where
  faultless := by simp
  view_iff := by simp [Options.initial]
  files_eq := rfl
  numeral := by simp [depthsOf]
  standard _ := rfl
  levels_mem := by decide

/-- **One unit more is collected, or it is faulty.** -/
theorem Collects.add {us : List ArgumentUnit} {o : Options} (h : Collects us o) (u : ArgumentUnit) :
    (∃ o', u.add o = .ok o' ∧ Collects (us ++ [u]) o') ∨ ∃ e, u.add o = .error e ∧ u.Faulty e := by
  have hFiles : filesOf (us ++ [u]) = filesOf us ++ filesOf [u] := List.filterMap_append
  have hDepths : depthsOf (us ++ [u]) = depthsOf us ++ depthsOf [u] := List.filterMap_append
  have hFaultless : u.Faultless → ∀ v ∈ us ++ [u], v.Faultless := by
    intro hu v hv
    rcases List.mem_append.1 hv with hv | hv
    · exact h.faultless v hv
    · rwa [List.mem_singleton.1 hv]
  cases u with
  | view =>
    have hNone : depthsOf (us ++ [.view]) = depthsOf us := hDepths.trans (List.append_nil _)
    refine .inl ⟨_, rfl, hFaultless nofun, by simp, ?_, ?_, ?_, h.levels_mem⟩
    · exact h.files_eq.trans (hFiles.trans (List.append_nil _)).symm
    · rw [hNone]
      exact h.numeral
    · rw [hNone]
      exact h.standard
  | depth value? =>
    cases value? with
    | none => exact .inr ⟨_, rfl, .missing⟩
    | some value =>
      rcases depthLimit_cases value with ⟨limit, hLimit, hNumeral, hPos⟩ | ⟨e, hLimit, hFaulty⟩
      · have hLast : depthsOf (us ++ [.depth (some value)]) = depthsOf us ++ [value] := hDepths
        refine .inl ⟨{ o with limit := limit }, by rw [ArgumentUnit.add, hLimit]; rfl,
          hFaultless (faultless_of_numeral hNumeral hPos limit.levels_le), ?_, ?_, ?_, ?_,
          hPos, limit.levels_le⟩
        · simpa using h.view_iff
        · exact h.files_eq.trans (hFiles.trans (List.append_nil _)).symm
        · simpa [hLast] using hNumeral
        · simp [hLast]
      · exact .inr ⟨e, by rw [ArgumentUnit.add, hLimit]; rfl, hFaulty⟩
  | unknown option => exact .inr ⟨_, rfl, .unknown⟩
  | file name =>
    have hNone : depthsOf (us ++ [.file name]) = depthsOf us := hDepths.trans (List.append_nil _)
    refine .inl ⟨_, rfl, hFaultless nofun, by simpa using h.view_iff, ?_, ?_, ?_, h.levels_mem⟩
    · exact (congrArg (· ++ [name]) h.files_eq).trans hFiles.symm
    · rw [hNone]
      exact h.numeral
    · rw [hNone]
      exact h.standard

/-- **All units are collected, or there is a first faulty one.** -/
theorem Collects.addAll {us : List ArgumentUnit} {o : Options} (h : Collects us o)
    (vs : List ArgumentUnit) :
    (∃ o', vs.foldlM ArgumentUnit.add o = .ok o' ∧ Collects (us ++ vs) o') ∨
      ∃ e, vs.foldlM ArgumentUnit.add o = .error e ∧ FirstFault e vs := by
  induction vs generalizing us o with
  | nil => exact .inl ⟨o, rfl, by rwa [List.append_nil]⟩
  | cons v vs ih =>
    rw [List.foldlM_cons]
    rcases h.add v with ⟨o', hAdd, hCollects⟩ | ⟨e, hAdd, hFaulty⟩
    · rw [hAdd]
      rcases ih hCollects with ⟨o'', hRest, hAll⟩ | ⟨e, hRest, hFault⟩
      · exact .inl ⟨o'', hRest, by simpa using hAll⟩
      · have hv : v.Faultless := hCollects.faultless v (by simp)
        exact .inr ⟨e, hRest, .later hv hFault⟩
    · rw [hAdd]
      exact .inr ⟨e, rfl, .here hFaulty⟩

/-- Units ask for one thing only. -/
theorem Collects.unique {us : List ArgumentUnit} {o o' : Options} (h : Collects us o)
    (h' : Collects us o') : o = o' := by
  have hView : o.view = o'.view := by
    rw [Bool.eq_iff_iff, h.view_iff, h'.view_iff]
  have hFiles : o.files = o'.files := by
    rw [h.files_eq, h'.files_eq]
  have hLevels : o.limit.levels = o'.limit.levels := by
    cases hLast : (depthsOf us).getLast? with
    | none =>
      have hNil := List.getLast?_eq_none_iff.1 hLast
      rw [h.standard hNil, h'.standard hNil]
    | some value => exact (h.numeral value hLast).unique (h'.numeral value hLast)
  have hLimit : o.limit = o'.limit := NestingLimit.mk.injEq .. ▸ hLevels
  cases o
  cases o'
  simp_all

/-- What is asked for is a matter of each kind of unit for itself. -/
theorem Collects.congr {us us' : List ArgumentUnit} {o : Options} (h : Collects us o)
    (hFaultless : ∀ u ∈ us', u.Faultless) (hFiles : filesOf us = filesOf us')
    (hDepths : depthsOf us = depthsOf us') (hView : .view ∈ us ↔ .view ∈ us') :
    Collects us' o where
  faultless := hFaultless
  view_iff := h.view_iff.trans hView
  files_eq := h.files_eq.trans hFiles
  numeral := by
    rw [← hDepths]
    exact h.numeral
  standard := by
    rw [← hDepths]
    exact h.standard
  levels_mem := h.levels_mem

/-! ## The options of an argument list -/

/-- How the units of an argument list decide what it asks for. -/
inductive Decides (us : List ArgumentUnit) : Except UsageError Options → Prop
  /-- The first faulty unit counts, and nothing behind it. -/
  | fault {e : UsageError} (h : FirstFault e us) : Decides us (.error e)
  | noFile (hFaultless : ∀ u ∈ us, u.Faultless) (hFiles : filesOf us = []) :
      Decides us (.error .noFile)
  | options {o : Options} (hFiles : filesOf us ≠ []) (hCollects : Collects us o) :
      Decides us (.ok o)

/-- Units decide in one way only. -/
theorem Decides.unique {us : List ArgumentUnit} {res res' : Except UsageError Options}
    (h : Decides us res) (h' : Decides us res') : res = res' := by
  cases h with
  | fault hFault =>
    cases h' with
    | fault hFault' => rw [hFault.unique hFault']
    | noFile hFaultless _ => exact absurd hFaultless hFault.not_faultless
    | options _ hCollects => exact absurd hCollects.faultless hFault.not_faultless
  | noFile hFaultless hNone =>
    cases h' with
    | fault hFault => exact absurd hFaultless hFault.not_faultless
    | noFile => rfl
    | options hSome _ => exact absurd hNone hSome
  | options hSome hCollects =>
    cases h' with
    | fault hFault => exact absurd hCollects.faultless hFault.not_faultless
    | noFile _ hNone => exact absurd hNone hSome
    | options _ hCollects' => rw [hCollects.unique hCollects']

/-- Without faults, the order of units of different kinds decides nothing. -/
theorem Decides.congr {us us' : List ArgumentUnit} {res : Except UsageError Options}
    (h : Decides us res) (hFaultless : ∀ u ∈ us ++ us', u.Faultless)
    (hFiles : filesOf us = filesOf us') (hDepths : depthsOf us = depthsOf us')
    (hView : .view ∈ us ↔ .view ∈ us') : Decides us' res := by
  rw [List.forall_mem_append] at hFaultless
  cases h with
  | fault hFault => exact absurd hFaultless.1 hFault.not_faultless
  | noFile _ hNone => exact .noFile hFaultless.2 (hFiles.symm.trans hNone)
  | options hSome hCollects =>
    refine .options ?_ (hCollects.congr hFaultless.2 hFiles hDepths hView)
    rwa [← hFiles]

/-- Options are collected, and then a file is asked for. -/
theorem decides_ofArguments (args : List String) :
    Decides (unitsOf args) (Options.ofArguments args) := by
  rw [Options.ofArguments, add_eq_foldlM]
  rcases collects_initial.addAll (unitsOf args) with ⟨o, hFold, hCollects⟩ | ⟨e, hFold, hFault⟩
  · rw [List.nil_append] at hCollects
    rw [hFold]
    show Decides _ (if o.files.isEmpty then .error .noFile else .ok o)
    rw [hCollects.files_eq]
    split
    · exact .noFile hCollects.faultless (List.isEmpty_iff.1 ‹_›)
    · exact .options (mt List.isEmpty_iff.2 ‹_›) hCollects
  · rw [hFold]
    exact .fault hFault

/-- **The units decide the options.**  Every argument belongs to a unit.  The first faulty unit
makes the arguments fail, with what is wrong with it; otherwise a missing file does; otherwise each
kind of unit is collected for itself; and there is no other outcome.  So argument lists without
faults that name the same files and set the same depths, each in their order, and that both ask for
the viewer or both do not, ask for the same, however their units are mixed. -/
theorem units_decide_options (args : List String) :
    (unitsOf args).flatMap ArgumentUnit.arguments = args ∧
    (∀ res, Options.ofArguments args = res ↔ Decides (unitsOf args) res) ∧
    UsageError.noFile.message = "No input file provided" ∧
    ∀ args', (∀ u ∈ unitsOf args ++ unitsOf args', u.Faultless) →
      filesOf (unitsOf args) = filesOf (unitsOf args') →
      depthsOf (unitsOf args) = depthsOf (unitsOf args') →
      (.view ∈ unitsOf args ↔ .view ∈ unitsOf args') →
      Options.ofArguments args = Options.ofArguments args' := by
  have hDecides := decides_ofArguments args
  refine ⟨flatMap_arguments_unitsOf args, ?_, rfl, ?_⟩
  · intro res
    constructor
    · rintro rfl
      exact hDecides
    · exact hDecides.unique
  · intro args' hFaultless hFiles hDepths hView
    exact (hDecides.congr hFaultless hFiles hDepths hView).unique (decides_ofArguments args')

end ScriptCheck.Command
