import RecordMapping.Value

/-!
# Rows and outcomes

What the database reports about a statement: result rows, whose columns keep their order and have
each name once, the number of rows that were written, and the key that an insert generated.
-/

namespace RecordMapping

/-- A result row. -/
structure Row where
  cells : List (String × Value)

namespace Row

/-- The row without columns. -/
def empty : Row := ⟨[]⟩

/-- Puts a value in the place of the column of its name, or at the end. -/
def insertCell (name : String) (value : Value) : List (String × Value) → List (String × Value)
  | [] => [(name, value)]
  | (column, old) :: rest =>
    if column == name then (name, value) :: rest else (column, old) :: insertCell name value rest

/-- Adds a column, in place of an earlier one of the same name. -/
def insert (row : Row) (name : String) (value : Value) : Row := ⟨insertCell name value row.cells⟩

/-- The row of a list of columns. -/
def ofList (pairs : List (String × Value)) : Row :=
  pairs.foldl (fun row (name, value) => row.insert name value) empty

/-- The value of a column. -/
def get? (row : Row) (name : String) : Option Value :=
  (row.cells.find? (·.1 == name)).map (·.2)

/-- The names of the columns, in order. -/
def names (row : Row) : List String := row.cells.map (·.1)

/-- The row as a JSON object. -/
def toJson (row : Row) : Json :=
  .obj (Fields.ofList (row.cells.map fun (name, value) => (name, value.toJson)))

end Row

/-- A column of a result. -/
structure ColumnInfo where
  name : String
  type? : Option String

/-- What the database reports about a statement. -/
structure Outcome where
  rows : List Row
  columns : List ColumnInfo
  affected : Nat
  insertId? : Option Nat

namespace Outcome

/-- The outcome that reports nothing. -/
def empty : Outcome := ⟨[], [], 0, none⟩

/-- The outcome of a read; the first row tells the columns. -/
def ofRows (rows : List Row) : Outcome :=
  let columns := match rows with
    | row :: _ => row.names.map fun name => (⟨name, none⟩ : ColumnInfo)
    | [] => []
  { empty with rows, columns }

/-- The outcome of an insert that generated a key. -/
def inserted (id : Nat) : Outcome := { empty with affected := 1, insertId? := some id }

/-- The outcome of a write. -/
def wrote (count : Nat) : Outcome := { empty with affected := count }

end Outcome

end RecordMapping
