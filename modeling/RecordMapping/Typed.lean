import RecordMapping.Record

/-!
# Typed models

A type whose values are records of one model. Values become records by way of JSON, and back.
-/

namespace RecordMapping

/-- A type that describes its own model and has a JSON form. -/
class TypedModel (α : Type) where
  model : Model
  encode : α → Json
  decode : Json → Decoded α

namespace TypedModel

variable {α : Type}

/-- The record of a value, not stored yet. Nulls and fields that the model does not declare are left
out. -/
def toRecord [TypedModel α] (a : α) (model : Model) : Result Record :=
  match encode a with
  | .obj fields =>
    let values := fields.filterMap fun (name, json) =>
      match json with
      | .null => none
      | json => if model.hasAttribute name then some (name, Value.ofJson json) else none
    .ok (.ofValues model values)
  | _ => .error (.serialization (.notAnObject model.name))

/-- The value that a record describes. -/
def ofRecord [TypedModel α] (record : Record) : Result α :=
  match decode record.toJson with
  | .ok a => .ok a
  | .error fault => .error (.serialization (.instanceMismatch record.model.name fault))

end TypedModel

end RecordMapping
