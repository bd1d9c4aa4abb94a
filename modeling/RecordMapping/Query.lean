import RecordMapping.Query.Operator
import RecordMapping.Value

/-!
# Queries

The one form that every descriptor takes before it is worked on: what is done, with which columns
and under which conditions.
-/

namespace RecordMapping

/-- A comparison of a column; its name may be qualified by a table or name a relation. Tests for
null have no operand, tests of membership a list, and all others one value. -/
structure Condition where
  column : String
  op : Operator
  value? : Option Value
  values : List Value

namespace Condition

/-- A comparison with one value. -/
def compare (column : String) (op : Operator) (value : Value) : Condition :=
  ⟨column, op, some value, []⟩

/-- A comparison for equality. -/
def equal (column : String) (value : Value) : Condition := compare column .equal value

/-- A test of membership. -/
def list (column : String) (op : Operator) (values : List Value) : Condition :=
  ⟨column, op, none, values⟩

/-- A test for null. -/
def unary (column : String) (op : Operator) : Condition := ⟨column, op, none, []⟩

end Condition

/-- What a column of a joined table is compared with. -/
inductive JoinOperand where
  | column (reference : String)
  | value (v : Value)

/-- A join that a descriptor asks for: columns of the joined table and what they equal. -/
structure JoinSpec where
  kind : JoinKind
  table : String
  on : List (String × JoinOperand)

/-- A query. -/
structure Query where
  kind : QueryKind
  table? : Option String
  columns : List String
  conditions : List Condition
  joins : List JoinSpec
  /-- The values to write; a name without a value is left out of the statement. -/
  values : List (String × Option Value)
  order : List (String × Direction)
  groupBy : List String
  offset? : Option Int64
  limit? : Option Int64
  includes : List String

/-- The query of a given kind that asks for nothing in particular. -/
def Query.empty (kind : QueryKind) : Query :=
  ⟨kind, none, [], [], [], [], [], [], none, none, []⟩

end RecordMapping
