import RecordMapping.Query.Expansion
import RecordMapping.Record
import RecordMapping.Row

/-!
# From rows to records

Rows of a plain select carry the columns of one table. In rows of a select with loaded relations
each column has a prefix: the alias of the records' own table, or the alias of a relation. The
longest prefix that fits decides. The marker column of a relation tells which record its part of the
row belongs to.
-/

namespace RecordMapping

/-- What a row holds of a loaded relation. -/
structure RelatedRow where
  aliasName : String
  /-- The related record, if the outer join found one. -/
  record? : Option Record
  /-- What ties it to its record. -/
  marker? : Option Value

/-- What a row holds: a record, and a part for every loaded relation. -/
structure HydratedRow where
  record : Record
  related : List RelatedRow

namespace Hydration

/-- The record of a model in the given columns. Of two columns for one attribute the later one
counts. -/
def record (model : Model) (cells : List (String × Value)) : Record :=
  .ofStored model <| Fields.ofList <| cells.map fun (column, value) =>
    match model.attributeForColumn? column with
    | some a => (a.name, Storage.fromStorage a value)
    | none => (column, value)

/-! ## Columns with prefixes -/

/-- Where a column of a row belongs: to the record, or to a loaded relation, counted from zero. -/
inductive Place where
  | base (column : String)
  | related (relation : Nat) (column : String)
  | marker (relation : Nat)
deriving DecidableEq, Repr

/-- The column behind a prefix and an underscore. -/
def stripStart? (start column : String) : Option String :=
  let whole := start.toList ++ ['_']
  if whole.isPrefixOf column.toList then some (String.ofList (column.toList.drop whole.length))
  else none

/-- The prefixes of columns, the longest first. Nothing stands for the record itself, and a number
for a loaded relation. Of two that are equally long the one in front stays in front. -/
def sortedStarts (base : String) (aliases : List String) : List (String × Option Nat) :=
  let starts := (base, none) :: aliases.zipIdx.map fun (aliasName, i) => (aliasName, some i)
  starts.mergeSort fun a b => b.1.utf8ByteSize ≤ a.1.utf8ByteSize

/-- Where a column belongs. One without a known prefix is the record's. -/
def place (starts : List (String × Option Nat)) (column : String) : Place :=
  let fit (start : String × Option Nat) : Option (String × Option Nat) :=
    (stripStart? start.1 column).map fun rest => (rest, start.2)
  match starts.findSome? fit with
  | some (rest, none) => .base rest
  | some (rest, some i) => if rest == Included.markerEnding then .marker i else .related i rest
  | none => .base column

/-- The record's own columns. -/
def baseCells (placed : List (Place × Value)) : List (String × Value) :=
  placed.filterMap fun (place, value) =>
    match place with
    | .base column => some (column, value)
    | _ => none

/-- The columns of a loaded relation. -/
def relatedCells (placed : List (Place × Value)) (i : Nat) : List (String × Value) :=
  placed.filterMap fun (place, value) =>
    match place with
    | .related j column => if i == j then some (column, value) else none
    | _ => none

/-- The marker of a loaded relation; null is no marker. -/
def markerOf? (placed : List (Place × Value)) (i : Nat) : Option Value :=
  let markers := placed.filterMap fun (place, value) =>
    if place = .marker i then some value else none
  markers.getLast?.filter fun value => !value.isNull

/-- What a row of a select with loaded relations holds. -/
def nestedRow (model : Model) (base : String) (included : List Included) (row : Row) :
    Result HydratedRow :=
  let starts := sortedStarts base (included.map (·.aliasName))
  let placed := row.cells.map fun (column, value) => (place starts column, value)
  let own := record model (baseCells placed)
  if own.primaryKey?.isNone then
    .error (.hydration (.missingKeyColumn model.name (base ++ "_" ++ model.primaryKeyColumn)))
  else
    let related := included.zipIdx.map fun (relation, i) =>
      let found := record relation.target (relatedCells placed i)
      { aliasName := relation.aliasName
        record? := if found.primaryKey?.isSome then some found else none
        marker? := markerOf? placed i : RelatedRow }
    .ok ⟨own, related⟩

/-- What a row of a plain select holds. -/
def plainRow (model : Model) (row : Row) : HydratedRow := ⟨record model row.cells, []⟩

/-- What the rows of a select with loaded relations hold. -/
def nestedRows (model : Model) (base : String) (included : List Included) (rows : List Row) :
    Result (List HydratedRow) :=
  rows.mapM (nestedRow model base included)

/-- The records in the rows of a plain select. -/
def plainRecords (model : Model) (rows : List Row) : List Record :=
  rows.map fun row => (plainRow model row).record

end Hydration

end RecordMapping
