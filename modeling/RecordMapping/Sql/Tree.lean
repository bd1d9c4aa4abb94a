import RecordMapping.Query.Operator
import RecordMapping.Value

/-!
# Statement trees

A statement as a tree of tables, columns and values, before it is written as text. A select may join
the result of another select under an alias, so selects nest to any depth.
-/

namespace RecordMapping.Sql

/-- A table in a statement. The model says which attributes its columns stand for. -/
structure TableRef where
  table : String
  aliasName : String
  model? : Option String
deriving DecidableEq, Repr

namespace TableRef

/-- A table under its own name. -/
def plain (table : String) (model? : Option String) : TableRef := ⟨table, table, model?⟩

end TableRef

/-- A column of a table, which is named by its alias. -/
structure ColumnRef where
  table : String
  column : String
deriving DecidableEq, Repr

/-- The name under which a selected column is returned: its own, its own behind a prefix and an
underscore, or a given one. -/
inductive OutputName where
  | bare
  | prefixed (start : String)
  | exact (name : String)
deriving DecidableEq, Repr

/-- The name of a column in the result. -/
def OutputName.apply (column : String) : OutputName → String
  | bare => column
  | prefixed start => start ++ "_" ++ column
  | exact name => name

/-- What a select returns. -/
inductive SelectItem where
  | all (aliasName : String)
  | column (ref : ColumnRef) (output : OutputName)
  | countDistinct (ref : ColumnRef) (output : String)
deriving DecidableEq, Repr

/-- What a column is compared with in a join. -/
inductive Operand where
  | column (ref : ColumnRef)
  | value (v : Value)

/-- A comparison of a column. -/
structure Predicate where
  column : ColumnRef
  op : Operator
  value? : Option Value
  values : List Value

/-- A column to sort by. -/
structure OrderTerm where
  column : ColumnRef
  direction : Direction

/-- A joined table, or a derived one: the result of a select of type `σ` under the table's alias. -/
structure Join (σ : Type) where
  kind : JoinKind
  table : TableRef
  derived? : Option σ
  on : List (ColumnRef × Operand)

namespace Join

/-- A join of a stored table. -/
def stored {σ : Type} (kind : JoinKind) (table : TableRef) (on : List (ColumnRef × Operand)) :
    Join σ :=
  ⟨kind, table, none, on⟩

end Join

/-- A select. -/
structure Select where
  distinct : Bool
  table : TableRef
  items : List SelectItem
  joins : List (Join Select)
  predicates : List Predicate
  groupBy : List ColumnRef
  order : List OrderTerm
  limit? : Option Int64
  offset? : Option Int64

namespace Select

/-- The select of everything from a table. -/
def ofTable (table : TableRef) : Select := ⟨false, table, [], [], [], [], [], none, none⟩

/-- The tables of a select, the first one in front. -/
def tables (s : Select) : List TableRef := s.table :: s.joins.map (·.table)

end Select

/-- Whether one of the joins has a given alias. -/
def hasAlias (joins : List (Join Select)) (aliasName : String) : Bool :=
  joins.any (·.table.aliasName == aliasName)

/-- A statement. -/
inductive Tree where
  | select (s : Select)
  | insert (table : TableRef) (values : List (String × Value))
  | update (table : TableRef) (values : List (String × Value)) (predicates : List Predicate)
  | delete (table : TableRef) (predicates : List Predicate)

end RecordMapping.Sql
