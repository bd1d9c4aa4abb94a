import RecordMapping.Query
import RecordMapping.Schema
import RecordMapping.Sql.Tree
import RecordMapping.Storage
import RecordMapping.Text.Split

/-!
# From queries to statement trees

A query for the records of one model becomes a statement tree, still with the names of attributes.
Keys of conditions that name relations turn into joins; relations to be loaded with the records turn
into left joins whose columns are told apart by prefixes. Joined rows outnumber records, so the page
is then cut by a derived table of the records' keys, and the joins are made around it. A select also
comes with the select that counts its records.
-/

namespace RecordMapping

open Sql

/-- A relation that is loaded with the records. -/
structure Included where
  aliasName : String
  relation : Relation
  target : Model

namespace Included

/-- The ending of the names of marker columns. -/
def markerEnding : String := "_fk"

/-- The column of the result that ties a related row to its record. -/
def marker (included : Included) : String := included.aliasName ++ "_" ++ markerEnding

end Included

/-- A statement tree for a query, with what is needed to read its result. -/
structure Expansion where
  tree : Tree
  /-- For a select: how many records there are on all pages. -/
  count? : Option Select
  included : List Included
  /-- The alias of the model's own table, which is also the prefix of its columns. -/
  baseAlias : String

namespace Expansion

/-- A name that is qualified by a table stays so; any other belongs to the given table. -/
def qualify (table name : String) : ColumnRef :=
  match Text.splitFirst? '.' name with
  | some (table, column) => ⟨table, column⟩
  | none => ⟨table, name⟩

/-- The primary key of a model, as a column of a table. -/
def keyRef (model : Model) (aliasName : String) : ColumnRef := ⟨aliasName, model.primaryKey⟩

/-! ## Conditions -/

/-- A table that the key of a condition brings into a query; its column `key` holds the primary key
of the records that the query is for. -/
structure Link where
  table : TableRef
  key : String
deriving DecidableEq, Repr

/-- The inner join that a link stands for. -/
def Link.join (link : Link) (baseKey : ColumnRef) : Join Select :=
  .stored .inner link.table [(⟨link.table.aliasName, link.key⟩, .column baseKey)]

/-- Adds the join of a link, unless its alias is joined already. -/
def addLink (baseKey : ColumnRef) (joins : List (Join Select)) : Option Link → List (Join Select)
  | none => joins
  | some link =>
    if hasAlias joins link.table.aliasName then joins else joins ++ [link.join baseKey]

/-- What the alias of a relation means that the model owns: a column, and the link that it needs.
The key of a relation to one is a column of the model itself. -/
def ownedKey (schema : Schema) (base : TableRef) (r : Relation) :
    Result (ColumnRef × Option Link) :=
  if r.kind = .belongsTo then .ok (⟨base.aliasName, r.foreignKey⟩, none)
  else
    match r.junction? with
    | some j => .ok (⟨j.table, j.key⟩, some ⟨.plain j.table (some j.model), r.foreignKey⟩)
    | none => do
      let target ← schema.model r.target
      .ok (keyRef target r.aliasName,
        some ⟨⟨target.table, r.aliasName, some target.name⟩, r.foreignKey⟩)

/-- What the foreign key of a relation means that leads to the model. -/
def inboundKey (base : TableRef) (key : String) (r : Relation) : ColumnRef × Option Link :=
  match r.junction? with
  | some j => (⟨j.table, r.foreignKey⟩, some ⟨.plain j.table (some j.model), j.key⟩)
  | none => (⟨base.aliasName, key⟩, none)

/-- The column that the key of a condition means, and the link that the column needs. -/
def resolveKey (schema : Schema) (model : Model) (base : TableRef) (key : String) :
    Result (ColumnRef × Option Link) :=
  match Text.splitFirst? '.' key with
  | some (table, column) => .ok (⟨table, column⟩, none)
  | none =>
    match schema.lookup model.name key with
    | some (.owned r) => ownedKey schema base r
    | some (.inbound r) => .ok (inboundKey base key r)
    | none => .ok (⟨base.aliasName, key⟩, none)

/-- A comparison of a column; operands for a declared attribute of the model take their
stored form. -/
def predicate (model : Model) (base : TableRef) (storage : DateStorage) (column : ColumnRef)
    (condition : Condition) : Predicate :=
  let plain : Predicate := ⟨column, condition.op, condition.value?, condition.values⟩
  if column.table == base.aliasName then
    match model.attribute? column.column with
    | some a =>
      let stored (v : Value) : Value := Storage.toStorage model.table (some a) v storage
      { plain with value? := plain.value?.map stored, values := plain.values.map stored }
    | none => plain
  else plain

/-- The comparisons for conditions, and the joins that they need. -/
def resolveConditions (schema : Schema) (model : Model) (base : TableRef) (storage : DateStorage) :
    List Condition → List (Join Select) → Result (List Predicate × List (Join Select))
  | [], joins => .ok ([], joins)
  | condition :: rest, joins => do
    let (column, link?) ← resolveKey schema model base condition.column
    let joins := addLink (keyRef model base.aliasName) joins link?
    let (predicates, joins) ← resolveConditions schema model base storage rest joins
    .ok (predicate model base storage column condition :: predicates, joins)

/-- A join that the query asks for. -/
def explicitJoin (schema : Schema) (base : TableRef) (spec : JoinSpec) : Join Select :=
  let model? := (schema.modelForTable? spec.table).map (·.name)
  .stored spec.kind (.plain spec.table model?) <| spec.on.map fun (column, operand) =>
    (⟨spec.table, column⟩, match operand with
      | .column reference => .column (qualify base.aliasName reference)
      | .value v => .value v)

/-! ## Written values -/

/-- The stored form of the values to write. -/
def storedForm (model : Model) (storage : DateStorage) (values : List (String × Option Value)) :
    List (String × Value) :=
  values.filterMap fun (name, value?) =>
    value?.map fun v => (name, Storage.toStorage model.table (model.attribute? name) v storage)

/-- Refuses joins in a statement that cannot have any. -/
def rejectJoins (joins : List (Join Select)) (kind : String) : Result Unit :=
  if joins.isEmpty then .ok () else .error (.query (.relationsInWrite kind))

/-! ## Loaded relations -/

/-- The given attributes, or all declared ones, and the primary key, behind a prefix. -/
def prefixedItems (model : Model) (aliasName : String) (requested : List String) :
    List SelectItem :=
  let names := if requested.isEmpty then model.attributes.map (·.name) else requested
  let names := if names.contains model.primaryKey then names else model.primaryKey :: names
  names.map fun name => .column ⟨aliasName, name⟩ (.prefixed aliasName)

/-- The left joins that load a relation, and the column that marks which record a row belongs to. -/
def relationJoins (base : TableRef) (model : Model) (r : Relation) (target : Model)
    (aliasName : String) : List (Join Select) × ColumnRef :=
  let table : TableRef := ⟨target.table, aliasName, some target.name⟩
  let baseKey := keyRef model base.aliasName
  let targetKey := keyRef target aliasName
  match r.kind, r.junction? with
  | .belongsTo, _ =>
    ([.stored .left table [(targetKey, .column ⟨base.aliasName, r.foreignKey⟩)]], targetKey)
  | _, some j =>
    let through := aliasName ++ "_through"
    let marker : ColumnRef := ⟨through, r.foreignKey⟩
    ([.stored .left ⟨j.table, through, some j.model⟩ [(marker, .column baseKey)],
      .stored .left table [(targetKey, .column ⟨through, j.key⟩)]], marker)
  | _, none =>
    let marker : ColumnRef := ⟨aliasName, r.foreignKey⟩
    ([.stored .left table [(marker, .column baseKey)]], marker)

/-- What loaded relations add to a select. -/
structure Loading where
  joins : List (Join Select)
  items : List SelectItem
  included : List Included

/-- Adds a relation to those that are loaded. An alias that names no relation, or one that is loaded
already, is passed over. -/
def loadRelation (schema : Schema) (model : Model) (base : TableRef) (loading : Loading)
    (aliasName : String) : Result Loading :=
  if loading.included.any (·.aliasName == aliasName) then .ok loading
  else
    match schema.relation? model.name aliasName with
    | none => .ok loading
    | some r =>
      if aliasName == base.aliasName || hasAlias loading.joins aliasName then
        .error (.relationship (.includeCollision aliasName))
      else do
        let target ← schema.model r.target
        let included : Included := ⟨aliasName, r, target⟩
        let (joins, marker) := relationJoins base model r target aliasName
        .ok {
          joins := loading.joins ++ joins
          items := loading.items ++ prefixedItems target aliasName []
            ++ [.column marker (.exact included.marker)]
          included := loading.included ++ [included] }

/-- What the relations under the given aliases add to a select. -/
def loadRelations (schema : Schema) (model : Model) (base : TableRef) (aliases : List String) :
    Result Loading :=
  aliases.foldlM (loadRelation schema model base) ⟨[], [], []⟩

/-! ## Selects -/

/-- The select that counts the records that meet the conditions. -/
def countSelect (model : Model) (base : TableRef) (joins : List (Join Select))
    (predicates : List Predicate) : Select :=
  { Select.ofTable base with
    items := [.countDistinct (keyRef model base.aliasName) "total"]
    joins
    predicates }

/-- The select of the keys on a page. To be distinct it must also return what it is sorted by. -/
def keySelect (model : Model) (base : TableRef) (plain : Select) : Select :=
  let sorted (term : OrderTerm) (i : Nat) : SelectItem :=
    .column term.column (.exact ("order_" ++ toString i))
  { plain with
    distinct := true
    items := .column (keyRef model base.aliasName) .bare
      :: plain.order.zipIdx.map fun (term, i) => sorted term i }

/-- The alias of the derived table of keys. -/
def pageAlias (base : TableRef) : String := base.aliasName ++ "_page"

/-- The join of the records with the derived table of the keys on the page. -/
def pageJoin (model : Model) (base : TableRef) (plain : Select) : Join Select where
  kind := .inner
  table := ⟨base.table, pageAlias base, base.model?⟩
  derived? := some (keySelect model base plain)
  on := [(keyRef model (pageAlias base), .column (keyRef model base.aliasName))]

/-- The select of the records whose keys are on the page, joined with the loaded relations. -/
def loadingSelect (model : Model) (base : TableRef) (columns : List String) (plain : Select)
    (loading : Loading) : Select :=
  { Select.ofTable base with
    items := prefixedItems model base.aliasName columns ++ loading.items
    joins := pageJoin model base plain :: loading.joins
    order := plain.order }

/-- The select with loaded relations; none of them may have the alias of the derived table. -/
def pagedSelect (model : Model) (base : TableRef) (columns : List String) (plain : Select)
    (loading : Loading) : Result Select :=
  if loading.included.any (·.aliasName == pageAlias base) then
    .error (.relationship (.pageCollision (pageAlias base)))
  else .ok (loadingSelect model base columns plain loading)

/-- The select itself if no relations are loaded, and otherwise the one that loads them. -/
def selectWith (model : Model) (base : TableRef) (columns : List String) (plain : Select)
    (loading : Loading) : Result Select :=
  if loading.included.isEmpty then .ok plain else pagedSelect model base columns plain loading

/-- What a select without loaded relations returns. -/
def plainItems (base : TableRef) (columns : List String) : List SelectItem :=
  if columns.isEmpty then [.all base.aliasName]
  else columns.map fun name => .column (qualify base.aliasName name) .bare

/-- The select of the records that meet the conditions, without loaded relations. -/
def plainSelect (base : TableRef) (query : Query) (joins : List (Join Select))
    (predicates : List Predicate) : Select where
  distinct := false
  table := base
  items := plainItems base query.columns
  joins
  predicates
  groupBy := query.groupBy.map (qualify base.aliasName)
  order := query.order.map fun (name, direction) => ⟨qualify base.aliasName name, direction⟩
  limit? := query.limit?
  offset? := query.offset?

/-- The expansion of a select. -/
def ofSelect (schema : Schema) (model : Model) (base : TableRef) (query : Query)
    (joins : List (Join Select)) (predicates : List Predicate) : Result Expansion := do
  let plain := plainSelect base query joins predicates
  let loading ← loadRelations schema model base query.includes
  let select ← selectWith model base query.columns plain loading
  let count := countSelect model base joins predicates
  .ok ⟨.select select, some count, loading.included, base.aliasName⟩

/-- The table of a query: that of the model, unless the query names another one. -/
def baseTable (model : Model) (query : Query) : TableRef :=
  .plain (query.table?.getD model.table) (some model.name)

/-- The expansion of a query for the records of a model. -/
def ofQuery (schema : Schema) (storage : DateStorage) (model : Model) (query : Query) :
    Result Expansion := do
  let base := baseTable model query
  let (predicates, joins) ← resolveConditions schema model base storage query.conditions []
  let joins := joins ++ query.joins.map (explicitJoin schema base)
  let values := storedForm model storage query.values
  match query.kind with
  | .select => ofSelect schema model base query joins predicates
  | .insert => .ok ⟨.insert base values, none, [], base.aliasName⟩
  | .update => do
    rejectJoins joins "update"
    .ok ⟨.update base values predicates, none, [], base.aliasName⟩
  | .delete => do
    rejectJoins joins "delete"
    .ok ⟨.delete base predicates, none, [], base.aliasName⟩

end Expansion

end RecordMapping
