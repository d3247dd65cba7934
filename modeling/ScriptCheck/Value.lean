/-!
# Values

The values that a variable of the language can hold.  Checking never looks at them.
-/

namespace ScriptCheck

/-- A value of the language. -/
inductive Value where
  | object
  | int (n : Int64)
  | double (x : Float)
  | string (s : String)
  | function

namespace Value

instance : Inhabited Value := ⟨object⟩

/-- The name of the value's type. -/
def typeName : Value → String
  | object => "object"
  | int _ => "int"
  | double _ => "double"
  | string _ => "string"
  | function => "function"

/-- Equality of values.  Doubles compare as numbers: zero equals its negative, and what is not a
number equals nothing. -/
def beq : Value → Value → Bool
  | object, object => true
  | int m, int n => m == n
  | double x, double y => x == y
  | string s, string t => s == t
  | function, function => true
  | _, _ => false

instance : BEq Value := ⟨beq⟩

end Value

/-- A named value. -/
structure Variable where
  name : String
  value : Value
  deriving Inhabited, BEq

end ScriptCheck
