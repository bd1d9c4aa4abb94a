import RecordMapping.Schema
import RecordMapping.Sql.Tree

/-!
# Storage columns

A statement tree is built with the names of attributes. Here every column takes the name under which
it is stored, as told by the model of the table that it belongs to. Each select is a scope of its
own: a table alias means what it means in the same select. Columns of tables without a model stay.
-/

namespace RecordMapping.Sql

/-- The model of the table that has a given alias. Of several the last one with a model counts. -/
def modelOf? (schema : Schema) (tables : List TableRef) (aliasName : String) : Option Model :=
  tables.reverse.findSome? fun t =>
    if t.aliasName == aliasName then t.model?.bind schema.model? else none

/-- The storage column of a reference. -/
def ColumnRef.stored (schema : Schema) (tables : List TableRef) (ref : ColumnRef) : ColumnRef :=
  match modelOf? schema tables ref.table with
  | some model => ⟨ref.table, model.columnFor ref.column⟩
  | none => ref

/-- The storage column of what a select returns; its output name stays. -/
def SelectItem.stored (schema : Schema) (tables : List TableRef) : SelectItem → SelectItem
  | all aliasName => all aliasName
  | column ref output => column (ref.stored schema tables) output
  | countDistinct ref output => countDistinct (ref.stored schema tables) output

/-- The storage column of an operand, if it is a column. -/
def Operand.stored (schema : Schema) (tables : List TableRef) : Operand → Operand
  | column ref => column (ref.stored schema tables)
  | value v => value v

/-- The storage column of a comparison. -/
def Predicate.stored (schema : Schema) (tables : List TableRef) (p : Predicate) : Predicate :=
  { p with column := p.column.stored schema tables }

/-- The storage column of a term of an order. -/
def OrderTerm.stored (schema : Schema) (tables : List TableRef) (t : OrderTerm) : OrderTerm :=
  { t with column := t.column.stored schema tables }

/-- The storage columns of the condition of a join. -/
def storedOn (schema : Schema) (tables : List TableRef) (on : List (ColumnRef × Operand)) :
    List (ColumnRef × Operand) :=
  on.map fun (ref, operand) => (ref.stored schema tables, operand.stored schema tables)

mutual

/-- A select with storage columns throughout. -/
def Select.stored (schema : Schema) : Select → Select
  | ⟨distinct, table, items, joins, predicates, groupBy, order, limit?, offset?⟩ =>
    let tables := table :: joins.map (·.table)
    ⟨distinct, table, items.map (·.stored schema tables), storedJoins schema tables joins,
      predicates.map (·.stored schema tables), groupBy.map (·.stored schema tables),
      order.map (·.stored schema tables), limit?, offset?⟩

/-- Joins with storage columns; `tables` are those of the select that they are part of. -/
def storedJoins (schema : Schema) (tables : List TableRef) : List (Join Select) → List (Join Select)
  | [] => []
  | ⟨kind, table, derived?, on⟩ :: rest =>
    ⟨kind, table, storedDerived schema derived?, storedOn schema tables on⟩
      :: storedJoins schema tables rest

/-- A derived table with storage columns. -/
def storedDerived (schema : Schema) : Option Select → Option Select
  | none => none
  | some s => some (s.stored schema)

end

/-- Written values under the names of their columns. -/
def storedValues (schema : Schema) (table : TableRef) (values : List (String × Value)) :
    List (String × Value) :=
  match modelOf? schema [table] table.aliasName with
  | some model => values.map fun (name, value) => (model.columnFor name, value)
  | none => values

/-- A statement with storage columns throughout. -/
def Tree.stored (schema : Schema) : Tree → Tree
  | select s => select (s.stored schema)
  | insert table values => insert table (storedValues schema table values)
  | update table values predicates =>
    update table (storedValues schema table values) (predicates.map (·.stored schema [table]))
  | delete table predicates => delete table (predicates.map (·.stored schema [table]))

end RecordMapping.Sql
