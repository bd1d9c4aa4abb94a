import RecordMapping.Error
import RecordMapping.Model
import RecordMapping.Relation

/-!
# The registry of relations

Relations in the order in which they were declared, and the junction models that were made for pairs
of models without one. A model finds a relation of its own by alias, and a relation that leads to it
from elsewhere by foreign key; of several with one key the first counts.

A declaration that fails keeps the parts that went through before the failure.
-/

namespace RecordMapping

/-- What a key means for a model: the alias of a relation it owns, or the foreign key of a relation
that leads to it. -/
inductive RelationLookup where
  | owned (relation : Relation)
  | inbound (relation : Relation)

namespace RelationLookup

/-- The relation that was found. -/
def relation : RelationLookup → Relation
  | owned r | inbound r => r

end RelationLookup

/-- The declared relations and the junction models made for them. -/
structure Registry where
  relations : List Relation
  junctions : Fields Model

/-- The choices of a declaration of many targets. -/
structure HasManyOptions where
  alias? : Option String
  foreignKey? : Option String
  /-- The name of a junction model. -/
  through? : Option String
  throughKey? : Option String

/-- The choices of a declaration of one target. -/
structure BelongsToOptions where
  alias? : Option String
  foreignKey? : Option String

/-- The choices of a declaration in both directions. -/
structure ManyToManyOptions where
  alias? : Option String
  inverseAlias? : Option String
  /-- The junction's column that holds the key of the first model. -/
  fromKey? : Option String
  /-- The junction's column that holds the key of the second model. -/
  toKey? : Option String
  /-- The name of a junction model. -/
  through? : Option String

namespace Registry

/-- The registry without relations. -/
def empty : Registry := ⟨[], []⟩

/-- The relations that a model owns, in the order of their declaration. -/
def ownedBy (registry : Registry) (model : String) : List Relation :=
  registry.relations.filter (·.owner == model)

/-- The relation that a model owns under an alias. -/
def get? (registry : Registry) (model aliasName : String) : Option Relation :=
  (registry.ownedBy model).find? (·.aliasName == aliasName)

/-- Whether a model owns a relation under an alias. -/
def has (registry : Registry) (model aliasName : String) : Bool :=
  (registry.get? model aliasName).isSome

/-- The first relation to many that leads to a model with a given foreign key. -/
def inbound? (registry : Registry) (model key : String) : Option Relation :=
  registry.relations.find? fun r => r.target == model && r.isCollection && r.foreignKey == key

/-- What a key means for a model; its own aliases go first. -/
def lookup (registry : Registry) (model key : String) : Option RelationLookup :=
  match registry.get? model key with
  | some r => some (.owned r)
  | none => (registry.inbound? model key).map .inbound

/-- The junction model of a given name. -/
def junction? (registry : Registry) (name : String) : Option Model := registry.junctions.get? name

/-! ## Declarations -/

/-- A change of the registry that may fail. -/
abbrev Declaring := ExceptT Error (StateM Registry)

/-- Adds a relation. Declaring the same relation again changes nothing; another one under its alias
is refused. -/
def register (relation : Relation) : Declaring Unit := do
  let registry ← get
  match registry.get? relation.owner relation.aliasName with
  | some existing =>
    if existing = relation then pure ()
    else throw (.configuration (.aliasTaken relation.aliasName relation.owner))
  | none => set { registry with relations := registry.relations ++ [relation] }

/-- The junction of a declaration: the resolved model, or nothing if none was named. -/
def resolved? (fault : String → ConfigurationFault) (junction? : Option Model)
    (name? : Option String) : Result (Option Model) :=
  match junction?, name? with
  | some junction, _ => .ok (some junction)
  | none, some name => .error (.configuration (fault name))
  | none, none => .ok none

/-- The default key of a junction for one of its sides. -/
def keyFor (model : Model) : String := Inflection.foreignKeyFor model.name model.primaryKey

/-- The default alias of a relation to many. -/
def pluralAlias (target : Model) : String := Inflection.pluralize (Text.lower target.name)

/-- The default alias of a relation to one. -/
def singularAlias (target : Model) : String := Inflection.singularize (Text.lower target.name)

/-- Declares that `owner` has many of `target`, whose key lies in the target or in a junction. -/
def declareHasMany (owner target : Model) (junction? : Option Model) (options : HasManyOptions) :
    Declaring Unit := do
  let some foreignKey := options.foreignKey?
    | throw (.configuration (.missingForeignKey "hasMany" owner.name target.name))
  let junction? ← resolved? (.unknownJunction "hasMany" owner.name "->" target.name) junction?
    options.through?
  register {
    kind := .hasMany
    aliasName := options.alias?.getD (pluralAlias target)
    owner := owner.name
    target := target.name
    foreignKey
    junction? := junction?.map fun j =>
      ⟨j.name, j.table, options.throughKey?.getD (keyFor target)⟩ }

/-- Declares that `owner` belongs to one of `target`, whose key lies in the owner. -/
def declareBelongsTo (owner target : Model) (options : BelongsToOptions) : Declaring Unit := do
  let some foreignKey := options.foreignKey?
    | throw (.configuration (.missingForeignKey "belongsTo" owner.name target.name))
  register {
    kind := .belongsTo
    aliasName := options.alias?.getD (singularAlias target)
    owner := owner.name
    target := target.name
    foreignKey
    junction? := none }

/-- The two names of a pair of models, in order. -/
def sortedPair (first second : Model) : String × String :=
  if first.name ≤ second.name then (first.name, second.name) else (second.name, first.name)

/-- The name of the junction model made for a pair. -/
def junctionName (first second : Model) : String :=
  let (low, high) := sortedPair first second
  low ++ high

/-- The table of the junction model made for a pair. -/
def junctionTable (first second : Model) : String :=
  let (low, high) := sortedPair first second
  Text.lower (low ++ "_" ++ high)

/-- The model with a numeric attribute of the given name; one that it has already stays. -/
def withKey (model : Model) (key : String) : Model :=
  if model.hasAttribute key then model else model.declare (.plain key .number)

/-- The junction model made for a pair, with the given keys. It is made once and gains the keys of
later declarations. -/
def ensureJunction (first second : Model) (fromKey toKey : String) : Declaring Model := do
  let registry ← get
  let name := junctionName first second
  let known := (registry.junction? name).getD
    { Model.empty name with table? := some (junctionTable first second) }
  let junction := withKey (withKey known fromKey) toKey
  set { registry with junctions := registry.junctions.insert name junction }
  pure junction

/-- Declares that many of `first` go with many of `second`, in both directions, through the given
junction or one made for the pair. -/
def declareManyToMany (first second : Model) (junction? : Option Model)
    (options : ManyToManyOptions) : Declaring Unit := do
  let fromKey := options.fromKey?.getD (keyFor first)
  let toKey := options.toKey?.getD (keyFor second)
  if fromKey = toKey then
    throw (.configuration (.sameJunctionKeys first.name second.name fromKey))
  let junction? ← resolved? (.unknownJunction "manyToMany" first.name "<->" second.name) junction?
    options.through?
  let junction ← match junction? with
    | some junction => pure junction
    | none => ensureJunction first second fromKey toKey
  declareBelongsTo junction first ⟨some (singularAlias first), some fromKey⟩
  declareBelongsTo junction second ⟨some (singularAlias second), some toKey⟩
  register {
    kind := .manyToMany
    aliasName := options.alias?.getD (pluralAlias second)
    owner := first.name
    target := second.name
    foreignKey := fromKey
    junction? := some ⟨junction.name, junction.table, toKey⟩ }
  register {
    kind := .manyToMany
    aliasName := options.inverseAlias?.getD (pluralAlias first)
    owner := second.name
    target := first.name
    foreignKey := toKey
    junction? := some ⟨junction.name, junction.table, fromKey⟩ }

end Registry

end RecordMapping
