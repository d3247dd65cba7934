import Mathlib.Data.List.Induction
import Mathlib.Data.List.Nodup
import ScriptCheck.SymbolTable

/-!
# Symbol tables are ordered maps

A symbol table keeps its variables twice: in an array, and by name in an index that points into the
array.  Seen from outside it is one list of variables with different names.  This file says which
list that is after any edits, and that the two copies never part.

* `Edit`, `SymbolTable.edit`, `SymbolTable.ofEdits` — changes of a table, one and any number.
* `Bindings.edit` — the same changes of a plain list of variables.
* `SymbolTable.Coherent` — the index points at `i` for a name exactly if the variable at `i` has
  that name.  Every edit keeps that (`Coherent.edit`), and it makes the edit of a table an edit of
  its list (`Coherent.toList_edit`).
* `Bindings.names_ofEdits`, `Bindings.value_ofEdits` — the names stand in the order of their first
  insertion since the table was last cleared, each with the value given to it last.
* `edits_refine_ordered_map` — **the table is that list**, whatever is asked of it.
-/

namespace ScriptCheck

/-! ## Edits -/

/-- A change of a symbol table. -/
inductive Edit where
  /-- Gives a value to a name that may be new. -/
  | insert (name : String) (value : Value)
  /-- Gives a value to a name that is there, and does nothing if it is not. -/
  | update (name : String) (value : Value)
  /-- Takes all variables out. -/
  | clear

namespace Edit

/-- Whether the edit takes all variables out. -/
def isClear : Edit → Bool
  | clear => true
  | _ => false

/-- The name that the edit inserts. -/
def inserted? : Edit → Option String
  | insert name _ => some name
  | _ => none

/-- The value that the edit gives to `name`. -/
def valueFor? (name : String) : Edit → Option Value
  | insert name' value => if name' = name then some value else none
  | update name' value => if name' = name then some value else none
  | clear => none

/-- The edits behind the last that takes all variables out. -/
def sinceClear (edits : List Edit) : List Edit :=
  (edits.reverse.takeWhile fun e => !e.isClear).reverse

theorem sinceClear_concat (edits : List Edit) (e : Edit) :
    sinceClear (edits ++ [e]) = if e.isClear then [] else sinceClear edits ++ [e] := by
  by_cases h : e.isClear = true <;> simp [sinceClear, h]

end Edit

/-- The table after an edit. -/
def SymbolTable.edit (t : SymbolTable) : Edit → SymbolTable
  | .insert name value => t.insert name value
  | .update name value => (t.update? name value).getD t
  | .clear => .empty

/-- The table after edits in a row, starting with no variables. -/
def SymbolTable.ofEdits (edits : List Edit) : SymbolTable := edits.foldl SymbolTable.edit .empty

/-! ## Lists of variables -/

namespace Bindings

/-- Whether a variable is called `name`. -/
def Binds (bs : List Variable) (name : String) : Prop := ∃ v ∈ bs, v.name = name

instance (bs : List Variable) (name : String) : Decidable (Binds bs name) :=
  inferInstanceAs (Decidable (∃ v ∈ bs, v.name = name))

/-- Gives the value `value` to the variables called `name`, each in its place. -/
def assign (name : String) (value : Value) (bs : List Variable) : List Variable :=
  bs.map fun v => if v.name = name then { v with value := value } else v

/-- A list of variables after an edit. -/
def edit (bs : List Variable) : Edit → List Variable
  | .insert name value =>
    if Binds bs name then assign name value bs else bs ++ [⟨name, value⟩]
  | .update name value => assign name value bs
  | .clear => []

/-- The list after edits in a row, starting with no variables. -/
def ofEdits (edits : List Edit) : List Variable := edits.foldl edit []

theorem ofEdits_concat (edits : List Edit) (e : Edit) :
    ofEdits (edits ++ [e]) = edit (ofEdits edits) e := by
  simp [ofEdits]

theorem binds_iff (bs : List Variable) (name : String) :
    Binds bs name ↔ name ∈ bs.map Variable.name := by
  simp [Binds]

@[simp] theorem names_assign (name : String) (value : Value) (bs : List Variable) :
    (assign name value bs).map Variable.name = bs.map Variable.name := by
  rw [assign, List.map_map]
  apply List.map_congr_left
  intro v _
  by_cases h : v.name = name <;> simp [h]

/-- Assigning to a name that is not there does nothing. -/
theorem assign_of_not_binds {bs : List Variable} {name : String} (h : ¬ Binds bs name)
    (value : Value) : assign name value bs = bs := by
  refine (List.map_congr_left ?_).trans (List.map_id bs)
  intro v hv
  rw [if_neg fun hName => h ⟨v, hv, hName⟩]
  rfl

theorem mem_assign {name : String} {value : Value} {bs : List Variable} {v : Variable}
    (h : v ∈ assign name value bs) :
    v.name = name ∧ v.value = value ∨ v.name ≠ name ∧ v ∈ bs := by
  obtain ⟨u, hu, rfl⟩ := List.mem_map.1 h
  by_cases hName : u.name = name
  · simp [hName]
  · simp [hName, hu]

theorem eraseDups_concat (names : List String) (name : String) :
    (names ++ [name]).eraseDups =
      if name ∈ names then names.eraseDups else names.eraseDups ++ [name] := by
  rw [List.eraseDups_append]
  by_cases h : name ∈ names <;> simp [List.removeAll, List.eraseDups_cons, h]

/-- The names stand in the order of their first insertion since the last clearing. -/
theorem names_ofEdits (edits : List Edit) :
    (ofEdits edits).map Variable.name =
      ((Edit.sinceClear edits).filterMap Edit.inserted?).eraseDups := by
  induction edits using List.reverseRecOn with
  | nil => rfl
  | append_singleton edits e ih =>
    rw [ofEdits_concat, Edit.sinceClear_concat]
    cases e with
    | clear => simp [edit, Edit.isClear]
    | update name value =>
      rw [edit, names_assign, ih]
      simp [Edit.isClear, Edit.inserted?, List.filterMap_cons]
    | insert name value =>
      have hBinds := binds_iff (ofEdits edits) name
      rw [ih, List.mem_eraseDups] at hBinds
      have hNames : (edit (ofEdits edits) (.insert name value)).map Variable.name =
          if Binds (ofEdits edits) name then (ofEdits edits).map Variable.name
          else (ofEdits edits).map Variable.name ++ [name] := by
        by_cases h : Binds (ofEdits edits) name <;> simp [edit, h]
      rw [hNames, ih]
      simp [Edit.isClear, Edit.inserted?, eraseDups_concat, hBinds]

/-- Every variable has the value that was given to its name last. -/
theorem value_ofEdits (edits : List Edit) {v : Variable} (hv : v ∈ ofEdits edits) :
    (edits.filterMap (Edit.valueFor? v.name)).getLast? = some v.value := by
  induction edits using List.reverseRecOn with
  | nil => simp [ofEdits] at hv
  | append_singleton edits e ih =>
    rw [ofEdits_concat] at hv
    -- an edit that assigns gives the value to its own name, and leaves the others theirs
    have hAssigned : ∀ {name value},
        e.valueFor? v.name = (if name = v.name then some value else none) →
        v ∈ assign name value (ofEdits edits) →
        ((edits ++ [e]).filterMap (Edit.valueFor? v.name)).getLast? = some v.value := by
      intro name value hValue hv
      rcases mem_assign hv with ⟨rfl, rfl⟩ | ⟨hName, hOld⟩
      · simp [hValue]
      · simp [hValue, Ne.symm hName, ih hOld]
    cases e with
    | clear => simp [edit] at hv
    | update name value => exact hAssigned rfl hv
    | insert name value =>
      by_cases hBinds : Binds (ofEdits edits) name
      · rw [edit, if_pos hBinds] at hv
        exact hAssigned rfl hv
      · rw [edit, if_neg hBinds, List.mem_append, List.mem_singleton] at hv
        rcases hv with hOld | rfl
        · have hName : name ≠ v.name := fun h => hBinds ⟨v, hOld, h.symm⟩
          simp [Edit.valueFor?, hName, ih hOld]
        · simp [Edit.valueFor?]

end Bindings

/-! ## Arrays and indexes -/

namespace SymbolTable

open Bindings

variable {t : SymbolTable}

/-- The index and the array tell the same: the index leads from a name to the place of the variable
with that name, and nowhere else. -/
def Coherent (t : SymbolTable) : Prop :=
  ∀ (name : String) (i : Nat),
    t.index[name]? = some i ↔ ∃ v, t.entries[i]? = some v ∧ v.name = name

theorem coherent_empty : empty.Coherent := by
  intro name i
  simp [empty]

theorem Coherent.binds_iff (h : t.Coherent) (name : String) :
    Binds t.toList name ↔ (t.index[name]?).isSome := by
  rw [Option.isSome_iff_exists]
  constructor
  · rintro ⟨v, hv, hName⟩
    obtain ⟨i, hi⟩ := List.mem_iff_getElem?.1 hv
    exact ⟨i, (h name i).2 ⟨v, by simpa [toList] using hi, hName⟩⟩
  · rintro ⟨i, hi⟩
    obtain ⟨v, hv, hName⟩ := (h name i).1 hi
    exact ⟨v, List.mem_iff_getElem?.2 ⟨i, by simpa [toList] using hv⟩, hName⟩

/-- Variables at different places have different names. -/
theorem Coherent.place_unique (h : t.Coherent) {i j : Nat} {u v : Variable}
    (hu : t.entries[i]? = some u) (hv : t.entries[j]? = some v) (hName : u.name = v.name) :
    i = j := by
  have hi : t.index[u.name]? = some i := (h _ i).2 ⟨u, hu, rfl⟩
  have hj : t.index[u.name]? = some j := (h _ j).2 ⟨v, hv, hName.symm⟩
  exact Option.some.inj (hi.symm.trans hj)

theorem Coherent.nodup (h : t.Coherent) : (t.toList.map Variable.name).Nodup := by
  rw [List.nodup_iff_injective_getElem]
  intro i j hEq
  have hi : (i : Nat) < t.entries.size := by simpa [toList] using i.isLt
  have hj : (j : Nat) < t.entries.size := by simpa [toList] using j.isLt
  apply Fin.ext
  apply h.place_unique (Array.getElem?_eq_getElem hi) (Array.getElem?_eq_getElem hj)
  simpa [toList] using hEq

/-! ### Changing a value -/

theorem getElem?_setAt (t : SymbolTable) (i j : Nat) (value : Value) :
    (t.setAt i value).entries[j]? =
      if i = j then (t.entries[j]?).map fun v => { v with value := value } else t.entries[j]? := by
  simp only [setAt, Array.getElem?_modify]

/-- Changing a value changes no name. -/
theorem Coherent.setAt (h : t.Coherent) (i : Nat) (value : Value) :
    (t.setAt i value).Coherent := by
  intro name j
  rw [getElem?_setAt]
  show t.index[name]? = some j ↔ _
  rw [h name j]
  by_cases hij : i = j <;> simp [hij]

/-- At the place of a name, changing the value is assigning to that name. -/
theorem Coherent.toList_setAt (h : t.Coherent) {name : String} {i : Nat}
    (hi : t.index[name]? = some i) (value : Value) :
    (t.setAt i value).toList = assign name value t.toList := by
  apply List.ext_getElem?
  intro j
  have hEntries : ∀ t : SymbolTable, t.toList[j]? = t.entries[j]? := by simp [toList]
  rw [assign, List.getElem?_map, hEntries, hEntries, getElem?_setAt]
  cases hv : t.entries[j]? with
  | none => simp
  | some v =>
    have hPlace : i = j ↔ v.name = name := by
      constructor
      · rintro rfl
        obtain ⟨u, hu, hName⟩ := (h name i).1 hi
        rw [hv] at hu
        cases hu
        exact hName
      · intro hName
        exact Option.some.inj (hi.symm.trans ((h name j).2 ⟨v, hv, hName⟩))
    by_cases hij : i = j
    · simp [hij, hPlace.1 hij]
    · simp [hij, hPlace.not.1 hij]

/-! ### Adding a variable -/

/-- A new variable goes to the end of the array, where the index finds it. -/
theorem Coherent.push (h : t.Coherent) {name : String} (hNew : t.index[name]? = none)
    (value : Value) :
    Coherent ⟨t.entries.push ⟨name, value⟩, t.index.insert name t.entries.size⟩ := by
  intro name' i
  simp only [Std.HashMap.getElem?_insert, Array.getElem?_push]
  by_cases hi : i = t.entries.size
  · by_cases hName : name = name'
    · simp [hi, hName]
    · -- no name leads behind the end of the old array
      have hOld : t.index[name']? ≠ some t.entries.size := by
        intro hIndex
        obtain ⟨v, hv, -⟩ := (h name' _).1 hIndex
        simp at hv
      simp [hi, hName, hOld]
  · by_cases hName : name = name'
    · subst hName
      have hOther : ¬ ∃ v, t.entries[i]? = some v ∧ v.name = name := by
        rw [← h name i, hNew]
        simp
      simp [hi, Ne.symm hi, hOther]
    · simp [hi, hName, h name' i]

/-! ### Edits -/

theorem Coherent.edit (h : t.Coherent) (e : Edit) : (t.edit e).Coherent := by
  cases e with
  | insert name value =>
    rw [SymbolTable.edit, SymbolTable.insert]
    split
    · exact h.setAt _ value
    · rename_i hNew
      exact h.push hNew value
  | update name value =>
    rw [SymbolTable.edit, update?]
    cases t.index[name]? with
    | none => exact h
    | some i => exact h.setAt i value
  | clear => exact coherent_empty

/-- **An edit of the table is an edit of its list.** -/
theorem Coherent.toList_edit (h : t.Coherent) (e : Edit) :
    (t.edit e).toList = Bindings.edit t.toList e := by
  have hBinds := h.binds_iff
  cases e with
  | insert name value =>
    rw [SymbolTable.edit, SymbolTable.insert, Bindings.edit]
    cases hIndex : t.index[name]? with
    | none =>
      have hNot : ¬ Binds t.toList name := by simp [hBinds, hIndex]
      rw [if_neg hNot]
      simp [toList]
    | some i => simpa [hBinds, hIndex] using h.toList_setAt hIndex value
  | update name value =>
    rw [SymbolTable.edit, update?, Bindings.edit]
    cases hIndex : t.index[name]? with
    | none =>
      have hNot : ¬ Binds t.toList name := by simp [hBinds, hIndex]
      simpa using (assign_of_not_binds hNot value).symm
    | some i => simpa using h.toList_setAt hIndex value
  | clear => rfl

/-- What one edit keeps, any number of them keeps. -/
theorem Coherent.foldl (h : t.Coherent) (edits : List Edit) :
    (edits.foldl SymbolTable.edit t).Coherent ∧
      (edits.foldl SymbolTable.edit t).toList = edits.foldl Bindings.edit t.toList := by
  induction edits generalizing t with
  | nil => exact ⟨h, rfl⟩
  | cons e edits ih =>
    rw [List.foldl_cons, List.foldl_cons, ← h.toList_edit]
    exact ih (h.edit e)

theorem coherent_ofEdits (edits : List Edit) : (ofEdits edits).Coherent :=
  (coherent_empty.foldl edits).1

theorem toList_ofEdits (edits : List Edit) : (ofEdits edits).toList = Bindings.ofEdits edits :=
  (coherent_empty.foldl edits).2

/-! ### Questions -/

theorem Coherent.contains_eq (h : t.Coherent) (name : String) :
    t.contains name = decide (Binds t.toList name) := by
  rw [contains, Std.HashMap.contains_eq_isSome_getElem?, Bool.eq_iff_iff, decide_eq_true_iff,
    h.binds_iff]

/-- A name is found at its place in the list, which is the only one. -/
theorem Coherent.get?_eq (h : t.Coherent) (name : String) :
    t.get? name = t.toList.find? fun v => v.name = name := by
  cases hIndex : t.index[name]? with
  | none =>
    have hNot : ¬ Binds t.toList name := by simp [h.binds_iff, hIndex]
    have hFind : t.toList.find? (fun v => v.name = name) = none := by
      rw [List.find?_eq_none]
      intro v hv hName
      exact hNot ⟨v, hv, by simpa using hName⟩
    rw [hFind, get?, hIndex]
    rfl
  | some i =>
    obtain ⟨v, hv, hName⟩ := (h name i).1 hIndex
    have hGet : t.get? name = some v := by
      rw [get?, hIndex]
      exact hv
    rw [hGet, eq_comm, List.find?_eq_some_iff_getElem]
    obtain ⟨hLt, hAt⟩ := Array.getElem?_eq_some_iff.1 hv
    refine ⟨by simpa using hName, i, by simpa [toList] using hLt, by simpa [toList] using hAt, ?_⟩
    intro j hj
    have hLt' : j < t.entries.size := Nat.lt_trans hj hLt
    have hNe : t.entries[j].name ≠ name := fun hEq =>
      Nat.ne_of_lt hj (h.place_unique (Array.getElem?_eq_getElem hLt') hv (hEq.trans hName.symm))
    simp [toList, hNe]

end SymbolTable

/-! ## The table and its list -/

open Bindings in
/-- **A symbol table is an ordered map.**  After any edits the table is a list of variables with
different names, in the order in which the names were first inserted since the table was last
cleared, each with the value given to it last.  All questions are answered from that list; a name
that is there gets a new value in its place and nothing else changes, a new name goes to the end,
and an update of a name that is not there is refused.  The index leads from a name to `i` exactly if
the variable at `i` has that name. -/
theorem edits_refine_ordered_map (edits : List Edit) :
    let t := SymbolTable.ofEdits edits
    let bs := Bindings.ofEdits edits
    t.toList = bs ∧ (bs.map Variable.name).Nodup ∧
      bs.map Variable.name = ((Edit.sinceClear edits).filterMap Edit.inserted?).eraseDups ∧
      (∀ v ∈ bs, (edits.filterMap (Edit.valueFor? v.name)).getLast? = some v.value) ∧
      (∀ name, t.get? name = bs.find? fun v => v.name = name) ∧
      (∀ name, t.contains name = decide (Binds bs name)) ∧
      t.size = bs.length ∧ t.isEmpty = bs.isEmpty ∧
      (∀ name value, Binds bs name →
        (t.insert name value).toList = assign name value bs ∧
          t.update? name value = some (t.insert name value)) ∧
      (∀ name value, ¬ Binds bs name →
        (t.insert name value).toList = bs ++ [⟨name, value⟩] ∧ t.update? name value = none) ∧
      ∀ (name : String) (i : Nat),
        t.index[name]? = some i ↔ ∃ v, t.entries[i]? = some v ∧ v.name = name := by
  intro t bs
  have hCoherent : t.Coherent := SymbolTable.coherent_ofEdits edits
  have hList : t.toList = bs := SymbolTable.toList_ofEdits edits
  have hInsert : ∀ name value,
      (t.insert name value).toList = Bindings.edit bs (.insert name value) := by
    intro name value
    rw [← hList]
    exact hCoherent.toList_edit (.insert name value)
  have hBinds := hCoherent.binds_iff
  rw [hList] at hBinds
  refine ⟨hList, hList ▸ hCoherent.nodup, names_ofEdits edits, fun v => value_ofEdits edits,
    hList ▸ hCoherent.get?_eq, ?_, ?_, ?_, ?_, ?_, hCoherent⟩
  · intro name
    rw [hCoherent.contains_eq, hList]
  · rw [← hList]
    simp [SymbolTable.size, SymbolTable.toList]
  · rw [← hList]
    simp [SymbolTable.isEmpty, SymbolTable.toList]
  · intro name value hThere
    obtain ⟨i, hi⟩ := Option.isSome_iff_exists.1 ((hBinds name).1 hThere)
    refine ⟨by rw [hInsert, Bindings.edit, if_pos hThere], ?_⟩
    simp [SymbolTable.update?, SymbolTable.insert, hi]
  · intro name value hNew
    have hNone : t.index[name]? = none := by
      simpa [hBinds] using hNew
    refine ⟨by rw [hInsert, Bindings.edit, if_neg hNew], ?_⟩
    simp [SymbolTable.update?, hNone]

end ScriptCheck
