import Std.Data.HashMap
import ScriptCheck.Value

/-!
# Symbol tables

A table of variables in the order in which their names were first inserted, with an index from
names to places.  Inserting a name that is there already replaces its value and keeps its place.
-/

namespace ScriptCheck

/-- Variables in order of first insertion, and the place of each name. -/
structure SymbolTable where
  entries : Array Variable
  index : Std.HashMap String Nat

namespace SymbolTable

/-- The table without variables. -/
def empty : SymbolTable := ⟨#[], ∅⟩

instance : Inhabited SymbolTable := ⟨empty⟩

/-- The variables in order of first insertion. -/
def toList (t : SymbolTable) : List Variable := t.entries.toList

/-- The number of variables. -/
def size (t : SymbolTable) : Nat := t.entries.size

/-- Whether there is no variable. -/
def isEmpty (t : SymbolTable) : Bool := t.entries.isEmpty

/-- Whether there is a variable called `name`. -/
def contains (t : SymbolTable) (name : String) : Bool := t.index.contains name

/-- The variable called `name`. -/
def get? (t : SymbolTable) (name : String) : Option Variable := do
  let i ← t.index[name]?
  t.entries[i]?

/-- Gives the variable at place `i` the value `value`. -/
def setAt (t : SymbolTable) (i : Nat) (value : Value) : SymbolTable :=
  { t with entries := t.entries.modify i fun v => { v with value := value } }

/-- Gives `name` the value `value`, at its old place or behind all others. -/
def insert (t : SymbolTable) (name : String) (value : Value) : SymbolTable :=
  match t.index[name]? with
  | some i => t.setAt i value
  | none => ⟨t.entries.push ⟨name, value⟩, t.index.insert name t.entries.size⟩

/-- The table in which `name` has the value `value`, if there is a variable of that name. -/
def update? (t : SymbolTable) (name : String) (value : Value) : Option SymbolTable :=
  (t.index[name]?).map (t.setAt · value)

end SymbolTable

end ScriptCheck
