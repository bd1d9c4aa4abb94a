import RecordMapping.Json.Printer
import RecordMapping.Number.Dyadic
import RecordMapping.Text.Visible

/-!
# Decoding JSON

Turning JSON into values of declared types: texts, truth values, integers of a given width, names
out of a fixed choice, and records. A record is an object with known names, or an array of its
fields in order. The fields of an object are looked at in the order of their names, so of two bad
fields the first by name is reported; missing fields are noticed afterwards.
-/

namespace RecordMapping

/-- What is wrong with a JSON value of a declared type. -/
inductive DecodeFault where
  | invalidType (got : Json) (expected : String)
  | invalidValue (got : Json) (expected : String)
  | missingField (name : String)
  | unknownVariant (name : String) (choice : List String)
  | invalidLength (length : Nat) (expected : String)

/-- The result of decoding. -/
abbrev Decoded (α : Type) := Except DecodeFault α

namespace DecodeFault

/-- A JSON value as messages name it. -/
def describe : Json → String
  | .null => "null"
  | .bool b => "boolean \x60" ++ (if b then "true" else "false") ++ "\x60"
  | .int n => "integer \x60" ++ toString n ++ "\x60"
  | .float x => "floating point \x60" ++ Json.floatText x ++ "\x60"
  | .str s => "string " ++ Text.shown s
  | .arr _ => "sequence"
  | .obj _ => "map"

/-- A name between backticks. -/
def ticked (name : String) : String := "\x60" ++ name ++ "\x60"

/-- The names of a choice, as messages list them. -/
def choiceText : List String → String
  | [one] => ticked one
  | [one, other] => ticked one ++ " or " ++ ticked other
  | names => "one of " ++ ", ".intercalate (names.map ticked)

/-- The message of a fault. -/
def message : DecodeFault → String
  | invalidType got expected => "invalid type: " ++ describe got ++ ", expected " ++ expected
  | invalidValue got expected => "invalid value: " ++ describe got ++ ", expected " ++ expected
  | missingField name => "missing field " ++ ticked name
  | unknownVariant name choice =>
    "unknown variant " ++ ticked name ++ ", expected " ++ choiceText choice
  | invalidLength length expected =>
    "invalid length " ++ toString length ++ ", expected " ++ expected

end DecodeFault

namespace Json

/-- A text. -/
def decodeString : Json → Decoded String
  | str s => .ok s
  | other => .error (.invalidType other "a string")

/-- A truth value. -/
def decodeBool : Json → Decoded Bool
  | bool b => .ok b
  | other => .error (.invalidType other "a boolean")

/-- An integer between two bounds; the type that has these bounds is named in messages. -/
def decodeInt (type : String) (least greatest : Int) : Json → Decoded Int
  | int n => if least ≤ n && n ≤ greatest then .ok n else .error (.invalidValue (int n) type)
  | other => .error (.invalidType other type)

/-- A signed integer of 64 bits. -/
def decodeInt64 (json : Json) : Decoded Int64 :=
  (decodeInt "i64" Int64.minValue.toInt Int64.maxValue.toInt json).map Int64.ofInt

/-- An unsigned integer of 32 bits. -/
def decodeUInt32 (json : Json) : Decoded UInt32 :=
  (decodeInt "u32" 0 (UInt32.size - 1 : Nat) json).map fun n => UInt32.ofNat n.toNat

/-- A value or null. -/
def decodeOption {α : Type} (decode : Json → Decoded α) : Json → Decoded (Option α)
  | null => .ok none
  | json => (decode json).map some

/-- One of the named choices: its name alone, or an object with the name and null under it. -/
def decodeVariant {α : Type} (choice : List (String × α)) (json : Json) : Decoded α := do
  let pick (name : String) : Decoded α :=
    match choice.lookup name with
    | some value => .ok value
    | none => .error (.unknownVariant name (choice.map (·.1)))
  match json with
  | str name => pick name
  | obj [(name, content)] =>
    let value ← pick name
    match content with
    | null => .ok value
    | other => .error (.invalidType other "unit")
  | obj fields => .error (.invalidValue (obj fields) "map with a single key")
  | other => .error (.invalidType other "string or map")

/-- A field of a record type: its name and a test of its values. -/
structure FieldRule where
  name : String
  check : Json → Decoded Unit

/-- A rule for fields that a decoder accepts. -/
def FieldRule.of {α : Type} (name : String) (decode : Json → Decoded α) : FieldRule :=
  ⟨name, fun json => (decode json).map fun _ => ()⟩

/-- Pairs the items of an array with the fields of a record type, in order. -/
def pairItems (expected : String) (total : Nat) : Nat → List FieldRule → List Json →
    Decoded (List (String × Json))
  | _, [], [] => .ok []
  | _, [], _ :: _ => .error (.invalidLength total "fewer elements in array")
  | position, _ :: _, [] => .error (.invalidLength position expected)
  | position, rule :: rules, item :: items => do
    rule.check item
    let rest ← pairItems expected total (position + 1) rules items
    .ok ((rule.name, item) :: rest)

/-- The fields of a record, each of which has passed the test of its name. -/
def decodeFields (type : String) (rules : List FieldRule) : Json → Decoded (Fields Json)
  | obj fields => do
    fields.forM fun (name, value) =>
      match rules.find? (·.name == name) with
      | some rule => rule.check value
      | none => .ok ()
    .ok fields
  | arr items => do
    let expected := type ++ " with " ++ toString rules.length ++ " elements"
    .ok (Fields.ofList (← pairItems expected items.length 0 rules items))
  | other => .error (.invalidType other type)

/-- A field that a record must have. -/
def requiredField {α : Type} (decode : Json → Decoded α) (name : String) (fields : Fields Json) :
    Decoded α :=
  match fields.get? name with
  | some json => decode json
  | none => .error (.missingField name)

/-- A field that a record may leave out; the given value then stands for it. -/
def optionalField {α : Type} (decode : Json → Decoded α) (name : String) (fields : Fields Json)
    (otherwise : α) : Decoded α :=
  match fields.get? name with
  | some json => decode json
  | none => .ok otherwise

end Json

end RecordMapping
