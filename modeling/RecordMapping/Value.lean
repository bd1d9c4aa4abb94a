import RecordMapping.Calendar.Reader
import RecordMapping.Calendar.Text
import RecordMapping.Json.Printer
import RecordMapping.Number.Literal

/-!
# Values

The values that records hold and that statements and result rows carry, and the views that other
parts take of them: as a truth value, as an integer, as the identity of a key, as JSON and as text.
-/

namespace RecordMapping

open Calendar Number

/-- A value of a record or of a column. -/
inductive Value where
  | null
  | bool (b : Bool)
  | int (n : Int64)
  | float (x : Float)
  | str (s : String)
  | bytes (data : List UInt8)
  | instant (t : Instant)
  | date (d : Date)
  | json (j : Json)
deriving Inhabited

namespace Value

/-- Equality as numbers compare: a NaN differs from itself, and the zeros are equal. -/
protected def beq : Value → Value → Bool
  | null, null => true
  | bool a, bool b => a == b
  | int a, int b => a == b
  | float a, float b => a == b
  | str a, str b => a == b
  | bytes a, bytes b => a == b
  | instant a, instant b => a == b
  | date a, date b => a == b
  | json a, json b => a == b
  | _, _ => false

instance : BEq Value := ⟨Value.beq⟩

/-- Whether this is the null value. -/
def isNull : Value → Bool
  | null => true
  | _ => false

/-- How a stored value reads as a truth value: nulls, zeros, NaN and empty texts are false. -/
def isTruthy : Value → Bool
  | null => false
  | bool b => b
  | int n => n != 0
  | float x => x != 0 && !x.isNaN
  | str s => !s.isEmpty
  | bytes data => !data.isEmpty
  | instant _ | date _ | json _ => true

/-- The integer that a value denotes: a number without fraction, or a text of digits. -/
def asInt64? : Value → Option Int64
  | int n => some n
  | float x => integerPart? x
  | str s => readInt64? s
  | _ => none

/-- The text, if the value is one. -/
def asString? : Value → Option String
  | str s => some s
  | _ => none

/-- The value as JSON. Bytes become an array of numbers, dates become texts, and a float that JSON
cannot express becomes null. -/
def toJson : Value → Json
  | null => .null
  | bool b => .bool b
  | int n => .int n.toInt
  | float x => if x.isFinite then .float x else .null
  | str s => .str s
  | bytes data => .arr (data.map fun b => .int b.toNat)
  | instant t => .str t.fullText
  | date d => .str d.text
  | json j => j

/-- The value of a JSON scalar; arrays and objects stay JSON. An integer beyond the signed words
becomes a float. -/
def ofJson : Json → Value
  | .null => null
  | .bool b => bool b
  | .int n =>
    match int64? n with
    | some word => int word
    | none => float (ofDecimal (n < 0) n.natAbs 0)
  | .float x => float x
  | .str s => str s
  | .arr items => json (.arr items)
  | .obj fields => json (.obj fields)

/-- The value of an unsigned number: beyond the signed words its digits are kept as text. -/
def ofNat (n : Nat) : Value :=
  match int64? n with
  | some word => int word
  | none => str (toString n)

/-- What identifies a key: `7`, `7.0` and the text `7` are one key. A null identifies nothing. -/
def identity? : Value → Option String
  | null => none
  | bool b => some (if b then "1" else "0")
  | int n => some (toString n.toInt)
  | str s => some s
  | value@(float x) =>
    match integerPart? x with
    | some n => some (toString n.toInt)
    | none => some value.toJson.text
  | value => some value.toJson.text

/-- The text of a value as messages show it. -/
def text : Value → String
  | null => "NULL"
  | str s => s
  | value => value.toJson.text

end Value

end RecordMapping
