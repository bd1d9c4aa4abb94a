import RecordMapping.Error
import RecordMapping.Storage

/-!
# Records

A record of a model: the values of its attributes, the names of those that were given a value since
the record was made or last written, and the related records that were loaded with it. It may hold
values that its model does not declare.
-/

namespace RecordMapping

/-- A record. -/
structure Record where
  model : Model
  attributes : Fields Value
  /-- The names of the attributes to be written; the order does not matter. -/
  changed : List String
  relations : List (String × List Record)

namespace Record

/-- The record of a model without values. -/
def empty (model : Model) : Record := ⟨model, [], [], []⟩

/-- A value in the form that an attribute of the model takes. -/
def normalized (model : Model) (name : String) (value : Value) : Value :=
  match model.attribute? name with
  | some a => Storage.normalizeInput a value
  | none => value

/-- The value of an attribute. -/
def get? (record : Record) (name : String) : Option Value := record.attributes.get? name

/-- Gives an attribute a value, which is then to be written. -/
def set (record : Record) (name : String) (value : Value) : Record :=
  { record with
    attributes := record.attributes.insert name (normalized record.model name value)
    changed := if record.changed.contains name then record.changed else name :: record.changed }

/-- Takes the value of an attribute away; it is left out of what is written. -/
def unset (record : Record) (name : String) : Record :=
  { record with
    attributes := record.attributes.erase name
    changed := record.changed.filter (· != name) }

/-- A record that is not stored yet; all its values are to be written. -/
def ofValues (model : Model) (values : List (String × Value)) : Record :=
  values.foldl (fun record (name, value) => record.set name value) (empty model)

/-- A record that was read from the database; nothing is to be written. -/
def ofStored (model : Model) (attributes : Fields Value) : Record :=
  { empty model with
    attributes := attributes.map fun (name, value) => (name, normalized model name value) }

/-- The primary key, unless it is missing or null. -/
def primaryKey? (record : Record) : Option Value :=
  (record.get? record.model.primaryKey).filter fun value => !value.isNull

/-- Gives the record its primary key, which is not to be written. -/
def setPrimaryKey (record : Record) (key : Value) : Record :=
  { record with attributes := record.attributes.insert record.model.primaryKey key }

/-- Whether the record has no primary key yet. -/
def isNew (record : Record) : Bool := record.primaryKey?.isNone

/-- What identifies the record among those of its model. -/
def identity? (record : Record) : Option String := record.primaryKey?.bind Value.identity?

/-- All values: the declared attributes in the order of their declaration, then the others
by name. -/
def values (record : Record) : List (String × Value) :=
  (record.model.attributes.filterMap fun a => (record.get? a.name).map fun value => (a.name, value))
    ++ record.attributes.filter fun (name, _) => !record.model.hasAttribute name

/-- The values to be written. -/
def changes (record : Record) : List (String × Value) :=
  record.values.filter fun (name, _) => record.changed.contains name

/-- Whether anything is to be written. -/
def isDirty (record : Record) : Bool := !record.changed.isEmpty

/-- Forgets what was to be written. -/
def clearChanges (record : Record) : Record := { record with changed := [] }

/-- The related records that were loaded under an alias. -/
def related? (record : Record) (aliasName : String) : Option (List Record) :=
  Fields.get? record.relations aliasName

/-- Puts loaded records under an alias. -/
def attach (record : Record) (aliasName : String) (related : List Record) : Record :=
  { record with relations := Fields.insert aliasName related record.relations }

mutual

/-- The record as JSON: its values, and under its alias each list of loaded records. -/
def toJson : Record → Json
  | ⟨model, attributes, changed, relations⟩ =>
    let values := (Record.mk model attributes changed []).values
    let fields := Fields.ofList (values.map fun (name, value) => (name, value.toJson))
    .obj ((relationsJson relations).foldl
      (fun fields (aliasName, json) => Fields.insert aliasName json fields) fields)

/-- Lists of loaded records as JSON arrays. -/
def relationsJson : List (String × List Record) → List (String × Json)
  | [] => []
  | (aliasName, records) :: rest => (aliasName, .arr (recordsJson records)) :: relationsJson rest

/-- Records as JSON. -/
def recordsJson : List Record → List Json
  | [] => []
  | record :: rest => record.toJson :: recordsJson rest

end

mutual

/-- Equality of records: the same model, values and loaded records, with values compared as numbers
compare. What is to be written does not count. -/
protected def beq : Record → Record → Bool
  | ⟨m, a, _, r⟩, ⟨n, b, _, s⟩ => m.name == n.name && a == b && relationsBeq r s

/-- Equality of lists of loaded records under their aliases. -/
def relationsBeq : List (String × List Record) → List (String × List Record) → Bool
  | [], [] => true
  | (m, a) :: as, (n, b) :: bs => m == n && recordsBeq a b && relationsBeq as bs
  | _, _ => false

/-- Equality of lists of records. -/
def recordsBeq : List Record → List Record → Bool
  | [], [] => true
  | a :: as, b :: bs => Record.beq a b && recordsBeq as bs
  | _, _ => false

end

instance : BEq Record := ⟨Record.beq⟩

end Record

end RecordMapping
