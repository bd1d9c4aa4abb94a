import RecordMapping.Repository

/-!
# Related records

The records that a relation leads to from a given record: as a page, as the single record of a
relation to one, or as a new record that points back.
-/

namespace RecordMapping

open Sql

/-- A relation with the repository of its target. -/
structure Related where
  relation : Relation
  target : Repository

/-- The relation that the model of a repository owns under an alias. -/
def Repository.related (repo : Repository) (aliasName : String) : Result Related :=
  match repo.mapping.schema.relation? repo.model.name aliasName with
  | some relation => do .ok ⟨relation, ← repo.mapping.repository relation.target⟩
  | none => .error (.relationship (.unknownRelation repo.model.name aliasName))

namespace Related

/-- The foreign key by which a record points to the target of a relation to one. -/
def pointer (r : Related) (owner : Record) : Result Value :=
  match (owner.get? r.relation.foreignKey).filter fun value => !value.isNull with
  | some key => .ok key
  | none => .error (.notFound r.target.model.table "NULL")

/-- The condition that a target belongs to a record. -/
def scope (r : Related) (owner : Record) : Result Condition :=
  match r.relation.kind with
  | .belongsTo => do .ok (.equal r.target.model.primaryKey (← r.pointer owner))
  | .hasMany | .manyToMany => do .ok (.equal r.relation.foreignKey (← Repository.keyOf owner))

/-- The query for the targets that belong to a record, among those that a descriptor asks for. -/
def scopedQuery (r : Related) (owner : Record) (d? : Option Descriptor) : Result Query := do
  let query ← Query.ofDescriptor r.target.mapping.config (d?.getD .empty)
  let condition ← r.scope owner
  .ok { query with conditions := query.conditions ++ [condition] }

/-- Compiles the query for the targets that belong to a record. -/
def prepare (r : Related) (owner : Record) (d? : Option Descriptor) : Result Prepared := do
  r.target.prepareQuery (← r.scopedQuery owner d?)

/-- The statement for the targets that belong to a record. -/
def compile (r : Related) (owner : Record) (d? : Option Descriptor) : Result Statement := do
  .ok (← r.prepare owner d?).statement

/-- The page of the targets that belong to a record. -/
def all (r : Related) (owner : Record) (d? : Option Descriptor) : Run Page := do
  let prepared ← Run.ofResult (r.prepare owner d?)
  r.target.page prepared

/-- The single target of a relation to one. -/
def get (r : Related) (owner : Record) : Run Record := do
  if r.relation.kind ≠ .belongsTo then
    throw (.failed (.relationship (.isCollection r.relation.aliasName)))
  let key ← Run.ofResult (r.pointer owner)
  r.target.find (.key key)

/-- A new target, not stored yet, that points back to a record. -/
def create (r : Related) (owner : Record) (values : List (String × Value)) : Result Record :=
  if r.relation.kind = .belongsTo || r.relation.junction?.isSome then
    .error (.relationship (.cannotCreate r.relation.aliasName))
  else do
    let key ← Repository.keyOf owner
    .ok ((r.target.newRecord values).set r.relation.foreignKey key)

end Related

end RecordMapping
