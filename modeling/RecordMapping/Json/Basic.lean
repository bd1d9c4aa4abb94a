import RecordMapping.Fields

/-!
# JSON values

A number is an integer when it is written without point and exponent and fits 64 bits, signed or
unsigned; every other number is a float. So `1` and `1.0` are different values, and so are `0` and
`-0`.
-/

namespace RecordMapping

/-- A JSON value; the fields of an object are sorted by name. -/
inductive Json where
  | null
  | bool (b : Bool)
  | int (n : Int)
  | float (x : Float)
  | str (s : String)
  | arr (items : List Json)
  | obj (fields : List (String × Json))
deriving Inhabited

namespace Json

/-- The string, if the value is one. -/
def asString? : Json → Option String
  | str s => some s
  | _ => none

/-- The value under a name, if this is an object that has it. -/
def field? (json : Json) (name : String) : Option Json :=
  match json with
  | obj fields => Fields.get? fields name
  | _ => none

mutual

/-- Equality as numbers compare: a NaN differs from itself, and the zeros are equal. -/
protected def beq : Json → Json → Bool
  | null, null => true
  | bool a, bool b => a == b
  | int a, int b => a == b
  | float a, float b => a == b
  | str a, str b => a == b
  | arr a, arr b => itemsBeq a b
  | obj a, obj b => fieldsBeq a b
  | _, _ => false

/-- Equality of arrays, item by item. -/
def itemsBeq : List Json → List Json → Bool
  | [], [] => true
  | a :: as, b :: bs => Json.beq a b && itemsBeq as bs
  | _, _ => false

/-- Equality of objects, field by field. -/
def fieldsBeq : List (String × Json) → List (String × Json) → Bool
  | [], [] => true
  | (m, a) :: as, (n, b) :: bs => m == n && Json.beq a b && fieldsBeq as bs
  | _, _ => false

end

instance : BEq Json := ⟨Json.beq⟩

end Json

end RecordMapping
