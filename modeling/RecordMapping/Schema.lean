import RecordMapping.Relation.Registry

/-!
# Schemas

A schema holds models and the relations between them. It is put together step by step by a builder,
which resolves the names of models, and does not change afterwards. The junction models that
declarations made are models of the schema too.
-/

namespace RecordMapping

/-- Models and their relations. -/
structure Schema where
  models : Fields Model
  relations : Registry

namespace Schema

/-- A schema that is being put together. -/
structure Builder where
  models : Fields Model
  relations : Registry

namespace Builder

/-- The builder of the schema without models. -/
def empty : Builder := ⟨[], .empty⟩

/-- A step of putting a schema together, which may fail. -/
abbrev Building := ExceptT Error (StateM Builder)

/-- Adds a model under a new name. -/
def register (model : Model) : Building Unit := do
  let builder ← get
  if builder.models.contains model.name then
    throw (.configuration (.modelRegisteredTwice model.name))
  set { builder with models := builder.models.insert model.name model }

/-- The model of a given name; registered models go before junctions. -/
def model? (builder : Builder) (name : String) : Option Model :=
  match builder.models.get? name with
  | some model => some model
  | none => builder.relations.junction? name

/-- The model that a declaration names. -/
def resolve (name : String) : Building Model := do
  match (← get).model? name with
  | some model => pure model
  | none => throw (.configuration (.unknownModel name))

/-- The junction model that a declaration names, if it names one. -/
def resolveOption : Option String → Building (Option Model)
  | none => pure none
  | some name => do return some (← resolve name)

/-- Carries out a declaration on the relations of the schema. -/
def declaring (step : Registry.Declaring Unit) : Building Unit := do
  let builder ← get
  let (result, relations) := step.run.run builder.relations
  set { builder with relations }
  match result with
  | .ok () => pure ()
  | .error e => throw e

/-- Declares a relation to many. -/
def hasMany (owner target : String) (options : HasManyOptions) : Building Unit := do
  let owner ← resolve owner
  let target ← resolve target
  let junction? ← resolveOption options.through?
  declaring (Registry.declareHasMany owner target junction? options)

/-- Declares a relation to one. -/
def belongsTo (child parent : String) (options : BelongsToOptions) : Building Unit := do
  let child ← resolve child
  let parent ← resolve parent
  declaring (Registry.declareBelongsTo child parent options)

/-- Declares a relation in both directions. -/
def manyToMany (first second : String) (options : ManyToManyOptions) : Building Unit := do
  let first ← resolve first
  let second ← resolve second
  let junction? ← resolveOption options.through?
  declaring (Registry.declareManyToMany first second junction? options)

/-- The finished schema; a registered model hides a junction of its name. -/
def build (builder : Builder) : Schema where
  models := builder.relations.junctions.foldl
    (fun models (name, junction) =>
      if models.contains name then models else models.insert name junction)
    builder.models
  relations := builder.relations

end Builder

/-- The model of a given name. -/
def model? (schema : Schema) (name : String) : Option Model := schema.models.get? name

/-- The model of a given name, which ought to exist. -/
def model (schema : Schema) (name : String) : Result Model :=
  match schema.model? name with
  | some model => .ok model
  | none => .error (.relationship (.unknownModel name))

/-- The model stored in a table, if there is exactly one. -/
def modelForTable? (schema : Schema) (table : String) : Option Model :=
  match schema.models.filter fun (_, model) => model.table == table with
  | [(_, model)] => some model
  | _ => none

/-- The relation that a model owns under an alias. -/
def relation? (schema : Schema) (model aliasName : String) : Option Relation :=
  schema.relations.get? model aliasName

/-- What a key means for a model. -/
def lookup (schema : Schema) (model key : String) : Option RelationLookup :=
  schema.relations.lookup model key

end Schema

end RecordMapping
