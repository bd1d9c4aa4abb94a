import RecordMapping.Assembly
import RecordMapping.Pool
import RecordMapping.Query.Normal
import RecordMapping.Sql.Columns
import RecordMapping.Sql.Text

/-!
# Repositories

A mapping joins a schema with a configuration that passes its check. The repository of a model
compiles descriptors, reads pages of records and single ones, and writes records.
-/

namespace RecordMapping

open Sql

/-- A schema with the configuration under which its records are read and written. -/
structure Mapping where
  schema : Schema
  config : Config
  valid : config.validate = .ok ()

namespace Mapping

/-- The mapping of a schema under a configuration, which is checked. -/
def of (schema : Schema) (config : Config) : Result Mapping :=
  match h : config.validate with
  | .ok () => .ok ⟨schema, config, h⟩
  | .error e => .error e

end Mapping

/-- The records of one model. -/
structure Repository where
  mapping : Mapping
  model : Model

/-- The repository of the model of a given name. -/
def Mapping.repository (mapping : Mapping) (name : String) : Result Repository := do
  .ok ⟨mapping, ← mapping.schema.model name⟩

/-- A compiled query, with what is needed to read its result. -/
structure Prepared where
  statement : Statement
  /-- For a select: the statement that counts the records on all pages. -/
  count? : Option Statement
  included : List Included
  baseAlias : String
  limit? : Option Int64
  offset? : Option Int64

/-- One page of records. -/
structure Page where
  data : List Record
  limit : Int64
  offset : Int64
  /-- The number of records on all pages. -/
  total : Int64

/-- What a single record is looked for by. -/
inductive Lookup where
  | key (value : Value)
  | query (descriptor : Descriptor)

namespace Repository

/-! ## Compiling -/

/-- The statement of the select that counts records, if there is one. -/
def countStatement? (schema : Schema) : Option Select → Result (Option Statement)
  | none => .ok none
  | some count => some <$> (Tree.select (count.stored schema)).statement

/-- Compiles a query. -/
def prepareQuery (repo : Repository) (query : Query) : Result Prepared := do
  let schema := repo.mapping.schema
  let expansion ← Expansion.ofQuery schema repo.mapping.config.dateStorage repo.model query
  let count? ← countStatement? schema expansion.count?
  let statement ← (expansion.tree.stored schema).statement
  .ok ⟨statement, count?, expansion.included, expansion.baseAlias, query.limit?, query.offset?⟩

/-- Compiles what a descriptor asks for. -/
def prepare (repo : Repository) (d : Descriptor) : Result Prepared := do
  repo.prepareQuery (← Query.ofDescriptor repo.mapping.config d)

/-- The statement for a descriptor. -/
def compile (repo : Repository) (d : Descriptor) : Result Statement := do
  .ok (← repo.prepare d).statement

/-! ## Reading -/

/-- Runs a statement. -/
def run (repo : Repository) (statement : Statement) : Run Outcome :=
  Pool.execute repo.mapping.config.retries statement

/-- Runs a compiled query and reads its records. -/
def fetch (repo : Repository) (prepared : Prepared) : Run (List Record) := do
  let outcome ← repo.run prepared.statement
  if prepared.included.isEmpty then return Hydration.plainRecords repo.model outcome.rows
  else
    let rows ← Run.ofResult
      (Hydration.nestedRows repo.model prepared.baseAlias prepared.included outcome.rows)
    return Assembly.assemble prepared.included rows

/-- The number of records that the answer to a count reports. -/
def totalOf (outcome : Outcome) : Int64 :=
  ((outcome.rows.head?.bind (·.get? "total")).bind Value.asInt64?).getD 0

/-- Runs a compiled query for a page: first the count, then the records. -/
def page (repo : Repository) (prepared : Prepared) : Run Page := do
  let total ← match prepared.count? with
    | some count => totalOf <$> repo.run count
    | none => pure 0
  let data ← repo.fetch prepared
  return {
    data
    limit := prepared.limit?.getD repo.mapping.config.defaultLimit
    offset := prepared.offset?.getD 0
    total }

/-- The page of records that a descriptor asks for. -/
def all (repo : Repository) (d : Descriptor) : Run Page := do
  let prepared ← Run.ofResult (repo.prepare d)
  repo.page prepared

/-- The page of records that a JSON descriptor asks for. -/
def runQuery (repo : Repository) (json : Json) : Run Page := do
  let d ← Run.ofResult (Descriptor.ofJson json)
  repo.all d

/-- The query that looks for a single record. -/
def lookupQuery (repo : Repository) (lookup : Lookup) : Result Query := do
  let query ← match lookup with
    | .key value => do
      let query ← Query.ofDescriptor repo.mapping.config .empty
      pure { query with
        conditions := query.conditions ++ [.equal repo.model.primaryKey value] }
    | .query d => Query.ofDescriptor repo.mapping.config d
  .ok { query with limit? := some 1 }

/-- What was looked for, as messages tell it. -/
def lookupText : Lookup → String
  | .key value => value.text
  | .query d => d.toJson.text

/-- The first record that a lookup finds. -/
def find (repo : Repository) (lookup : Lookup) : Run Record := do
  let prepared ← Run.ofResult (repo.lookupQuery lookup >>= repo.prepareQuery)
  match ← repo.fetch prepared with
  | record :: _ => return record
  | [] => throw (.failed (.notFound repo.model.table (lookupText lookup)))

/-- A record of the model, not stored yet. -/
def newRecord (repo : Repository) (values : List (String × Value)) : Record :=
  .ofValues repo.model values

/-! ## Writing -/

/-- Refuses a record of another model. -/
def check (repo : Repository) (record : Record) : Result Unit :=
  if record.model.name == repo.model.name then .ok ()
  else .error (.query (.wrongModel record.model.name repo.model.name))

/-- The primary key of a record, which must have one. -/
def keyOf (record : Record) : Result Value :=
  match record.primaryKey? with
  | some key => .ok key
  | none => .error .missingPrimaryKey

/-- Compiles and runs a write. -/
def write (repo : Repository) (query : Query) : Run Outcome := do
  let prepared ← Run.ofResult (repo.prepareQuery query)
  repo.run prepared.statement

/-- The query that inserts a record. -/
def insertQuery (record : Record) : Query :=
  { Query.empty .insert with
    values := record.values.map fun (name, value) => (name, some value) }

/-- The condition that a record has a given primary key. -/
def keyCondition (repo : Repository) (key : Value) : Condition := .equal repo.model.primaryKey key

/-- The record after it was inserted: with the key that was generated, if one was, and with nothing
left to write. -/
def afterInsert (record : Record) (outcome : Outcome) : Record :=
  let keyed := match outcome.insertId? with
    | some id => record.setPrimaryKey (.ofNat id)
    | none => record
  keyed.clearChanges

/-- Inserts a record. The result is the values that are stored now, beside the record afterwards: a
failure leaves it as it was. -/
def persist (repo : Repository) (record : Record) :
    StateM Pool (Except Halt (List (String × Value)) × Record) := do
  match repo.check record with
  | .error e => return (.error (.failed e), record)
  | .ok () =>
    match ← repo.write (insertQuery record) with
    | .error halt => return (.error halt, record)
    | .ok outcome =>
      let stored := afterInsert record outcome
      return (.ok stored.values, stored)

/-- The changed values of a record that an update sets. The primary key is not one of them. -/
def updateValues (repo : Repository) (record : Record) : List (String × Option Value) :=
  (record.changes.filter fun (name, _) => name != repo.model.primaryKey).map fun (name, value) =>
    (name, some value)

/-- Writes the changed values of a record; without any, no statement is sent. The result is the
number of rows written, beside the record afterwards: a failure leaves it as it was. -/
def update (repo : Repository) (record : Record) : StateM Pool (Except Halt Nat × Record) := do
  match repo.check record >>= fun _ => keyOf record with
  | .error e => return (.error (.failed e), record)
  | .ok key =>
    let values := repo.updateValues record
    if values.isEmpty then return (.ok 0, record)
    else
      let query := { Query.empty .update with values, conditions := [repo.keyCondition key] }
      match ← repo.write query with
      | .error halt => return (.error halt, record)
      | .ok outcome => return (.ok outcome.affected, record.clearChanges)

/-- Deletes the row of a record. The result is the number of rows deleted. -/
def remove (repo : Repository) (record : Record) : Run Nat := do
  let key ← Run.ofResult (repo.check record >>= fun _ => keyOf record)
  let outcome ← repo.write { Query.empty .delete with conditions := [repo.keyCondition key] }
  return outcome.affected

end Repository

end RecordMapping
