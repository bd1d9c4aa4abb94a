import RecordMapping.Inflection
import RecordMapping.Model.Attribute

/-!
# Models

A model names a kind of record: its table, its primary key and its attributes, in the order in which
they were declared. An attribute may be stored in a column of another name, so the model also tells
which column goes with which attribute.
-/

namespace RecordMapping

/-- A kind of record. -/
structure Model where
  name : String
  table? : Option String
  primaryKey : String
  attributes : List Attribute

namespace Model

/-- A model without attributes whose primary key is `id`. -/
def empty (name : String) : Model := ⟨name, none, "id", []⟩

/-- The table that the records are stored in: by default, the singular of the model's name. -/
def table (model : Model) : String :=
  model.table?.getD (Inflection.singularize (Text.lower model.name))

/-- Puts an attribute in the place of the one with its name, or at the end. -/
def insertAttribute (a : Attribute) : List Attribute → List Attribute
  | [] => [a]
  | b :: rest => if b.name == a.name then a :: rest else b :: insertAttribute a rest

/-- Declares an attribute, in place of an earlier one of the same name. -/
def declare (model : Model) (a : Attribute) : Model :=
  { model with attributes := insertAttribute a model.attributes }

/-- The attribute of a given name. -/
def attribute? (model : Model) (name : String) : Option Attribute :=
  model.attributes.find? (·.name == name)

/-- Whether there is an attribute of a given name. -/
def hasAttribute (model : Model) (name : String) : Bool := (model.attribute? name).isSome

/-- The column of an attribute; a name that is not declared is its own column. -/
def columnFor (model : Model) (name : String) : String :=
  match model.attribute? name with
  | some a => a.column
  | none => name

/-- The attribute stored in a column. One that names the column explicitly goes before one that is
stored under its own name. -/
def attributeForColumn? (model : Model) (column : String) : Option Attribute :=
  match model.attributes.find? (·.column? == some column) with
  | some a => some a
  | none => model.attributes.find? fun a => a.name == column && a.column?.isNone

/-- The column of the primary key. -/
def primaryKeyColumn (model : Model) : String := model.columnFor model.primaryKey

end Model

end RecordMapping
