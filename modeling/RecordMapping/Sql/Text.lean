import RecordMapping.Error
import RecordMapping.Sql.Statement
import RecordMapping.Sql.Tree

/-!
# Writing statements

The MySQL text of a statement tree. It is a function of the tree alone: the values are bound in the
order in which their question marks stand in the text.
-/

namespace RecordMapping.Sql

open Piece

/-- Parts with a separator between them. -/
def separated (separator : String) (parts : List (List Piece)) : List Piece :=
  [word separator].intercalate parts

/-- A clause that is left out when it has no parts. -/
def clause (start separator : String) : List (List Piece) → List Piece
  | [] => []
  | parts => word start :: separated separator parts

/-- A column behind the alias of its table. -/
def ColumnRef.pieces (ref : ColumnRef) : List Piece := [name ref.table, word ".", name ref.column]

/-- A table, with its alias if that is another name. -/
def TableRef.pieces (t : TableRef) : List Piece :=
  if t.aliasName == t.table then [name t.table] else [name t.table, word " AS ", name t.aliasName]

/-- What a select returns. A column under its own name needs no alias. -/
def SelectItem.pieces : SelectItem → List Piece
  | all aliasName => [name aliasName, word ".*"]
  | column ref .bare => ref.pieces
  | column ref output => ref.pieces ++ [word " AS ", name (output.apply ref.column)]
  | countDistinct ref output =>
    word "COUNT(DISTINCT " :: ref.pieces ++ [word ") AS ", name output]

/-- One condition of a join. -/
def onPieces : ColumnRef × Operand → List Piece
  | (ref, .column other) => ref.pieces ++ word " = " :: other.pieces
  | (ref, .value v) => ref.pieces ++ [word " = ", param v]

/-- A comparison. Equality with null is a test for null; nothing is a member of an empty list. -/
def Predicate.pieces (p : Predicate) : Result (List Piece) :=
  let test (sql : String) : Result (List Piece) := .ok (p.column.pieces ++ [word (" " ++ sql)])
  let members : Result (List Piece) :=
    .ok (p.column.pieces ++ word (" " ++ p.op.sql ++ " (")
      :: separated ", " (p.values.map fun v => [param v]) ++ [word ")"])
  let comparison : Result (List Piece) :=
    match p.value? with
    | some v => .ok (p.column.pieces ++ [word (" " ++ p.op.sql ++ " "), param v])
    | none => .error (.query (.valueRequired p.op p.column.column))
  let isNullValue := p.value?.all Value.isNull
  match p.op with
  | .isNull | .isNotNull => test p.op.sql
  | .equal => if isNullValue then test "IS NULL" else comparison
  | .notEqual => if isNullValue then test "IS NOT NULL" else comparison
  | .isIn => if p.values.isEmpty then .ok [word "1 = 0"] else members
  | .notIn => if p.values.isEmpty then .ok [word "1 = 1"] else members
  | _ => comparison

/-- The conditions that rows must meet. -/
def wherePieces (predicates : List Predicate) : Result (List Piece) := do
  .ok (clause " WHERE " " AND " (← predicates.mapM Predicate.pieces))

/-- A term of an order. -/
def OrderTerm.pieces (t : OrderTerm) : List Piece :=
  t.column.pieces ++ [word (" " ++ t.direction.sql)]

/-- The limit and the offset; an offset without a limit is not written. -/
def pagePieces : Option Int64 → Option Int64 → List Piece
  | none, _ => []
  | some limit, none => [word (" LIMIT " ++ toString limit.toInt)]
  | some limit, some offset =>
    [word (" LIMIT " ++ toString limit.toInt), word (" OFFSET " ++ toString offset.toInt)]

/-- The list of what is returned: without any items, everything from the first table. -/
def itemPieces (table : TableRef) : List SelectItem → List Piece
  | [] => (SelectItem.all table.aliasName).pieces
  | items => separated ", " (items.map SelectItem.pieces)

/-- A select up to its conditions; `joined` are its joins. -/
def headPieces (distinct : Bool) (table : TableRef) (items : List SelectItem)
    (joined : List Piece) : List Piece :=
  word (if distinct then "SELECT DISTINCT " else "SELECT ") :: itemPieces table items
    ++ word " FROM " :: table.pieces ++ joined

/-- A select behind its conditions. -/
def tailPieces (groupBy : List ColumnRef) (order : List OrderTerm)
    (limit? offset? : Option Int64) : List Piece :=
  clause " GROUP BY " ", " (groupBy.map ColumnRef.pieces)
    ++ clause " ORDER BY " ", " (order.map OrderTerm.pieces) ++ pagePieces limit? offset?

mutual

/-- A select. -/
def Select.pieces : Select → Result (List Piece)
  | ⟨distinct, table, items, joins, predicates, groupBy, order, limit?, offset?⟩ => do
    let joined ← joinPieces joins
    let conditions ← wherePieces predicates
    .ok (headPieces distinct table items joined ++ conditions
      ++ tailPieces groupBy order limit? offset?)

/-- The joins of a select. -/
def joinPieces : List (Join Select) → Result (List Piece)
  | [] => .ok []
  | ⟨kind, table, derived?, on⟩ :: rest => do
    let source ← sourcePieces table derived?
    let others ← joinPieces rest
    .ok (word (" " ++ kind.sql ++ " ") :: source
      ++ word " ON " :: separated " AND " (on.map onPieces) ++ others)

/-- What is joined: a stored table, or a select in parentheses under an alias. -/
def sourcePieces (table : TableRef) : Option Select → Result (List Piece)
  | none => .ok table.pieces
  | some s => do
    let inner ← s.pieces
    .ok (word "(" :: inner ++ [word ") AS ", name table.aliasName])

end

/-- The pieces of a statement. An update must set something. -/
def Tree.pieces : Tree → Result (List Piece)
  | select s => s.pieces
  | insert table values =>
    .ok (word "INSERT INTO " :: name table.table :: word " ("
      :: separated ", " (values.map fun (column, _) => [name column])
      ++ word ") VALUES (" :: separated ", " (values.map fun (_, v) => [param v]) ++ [word ")"])
  | update table [] _ => .error (.query (.nothingToSet table.table))
  | update table values predicates => do
    let conditions ← wherePieces predicates
    .ok (word "UPDATE " :: name table.table :: word " SET "
      :: separated ", " (values.map fun (column, v) => [name column, word " = ", param v])
      ++ conditions)
  | delete table predicates => do
    let conditions ← wherePieces predicates
    .ok (word "DELETE FROM " :: name table.table :: conditions)

/-- The statement that a tree stands for. -/
def Tree.statement (tree : Tree) : Result Statement := do
  .ok (.ofPieces (← tree.pieces))

end RecordMapping.Sql
