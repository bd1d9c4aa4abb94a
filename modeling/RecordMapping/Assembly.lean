import RecordMapping.Hydration

/-!
# Putting records together

A join repeats a record for every related row. Here each record appears once, in the order in which
it was first seen, and holds under every alias the related records that belong to it, each once.
-/

namespace RecordMapping

namespace Assembly

/-- A record with the related records found for it so far, one list for every loaded relation. -/
structure Parent where
  record : Record
  groups : List (List Record)

/-- Adds a related record unless it has no identity or is there already. -/
def addToGroup (record : Record) (group : List Record) : List Record :=
  match record.identity? with
  | none => group
  | some key => if group.any (·.identity? == some key) then group else group ++ [record]

/-- The position of the record with a given identity. -/
def position? (parents : List Parent) (key : String) : Option Nat :=
  parents.findIdx? (·.record.identity? == some key)

/-- The position of a row's record, which is added if it was not seen before. A record without
identity is new every time. -/
def locate (included : List Included) (parents : List Parent) (record : Record) :
    List Parent × Nat :=
  match record.identity?.bind (position? parents) with
  | some i => (parents, i)
  | none => (parents ++ [⟨record, included.map fun _ => []⟩], parents.length)

/-- The position of the record that a related row belongs to, by the marker. For a relation to one
it is the record of the same row, if its foreign key is the marker. -/
def owner? (parents : List Parent) (here : Nat) (relation : Relation) (marker : String) :
    Option Nat :=
  if relation.kind = .belongsTo then
    let key := parents[here]?.bind fun parent =>
      (parent.record.get? relation.foreignKey).bind Value.identity?
    if key == some marker then some here else none
  else position? parents marker

/-- Adds what a row holds of a loaded relation to the record that it belongs to. -/
def addRelated (included : List Included) (here : Nat) (parents : List Parent)
    (related : RelatedRow) : List Parent :=
  let target? : Option (Nat × Nat × Record) := do
    let slot ← included.findIdx? (·.aliasName == related.aliasName)
    let record ← related.record?
    let marker ← related.marker?.bind Value.identity?
    let relation ← included[slot]?
    let owner ← owner? parents here relation.relation marker
    some (owner, slot, record)
  match target? with
  | none => parents
  | some (owner, slot, record) =>
    parents.modify owner fun parent =>
      { parent with groups := parent.groups.modify slot (addToGroup record) }

/-- Adds a row to the records seen so far. -/
def addRow (included : List Included) (parents : List Parent) (row : HydratedRow) : List Parent :=
  let (parents, here) := locate included parents row.record
  row.related.foldl (addRelated included here) parents

/-- The record with its related records under their aliases. -/
def finish (included : List Included) (parent : Parent) : Record :=
  (included.zip parent.groups).foldl
    (fun record (relation, group) => record.attach relation.aliasName group) parent.record

/-- The records in the rows of a select with loaded relations. -/
def assemble (included : List Included) (rows : List HydratedRow) : List Record :=
  (rows.foldl (addRow included) []).map (finish included)

end Assembly

end RecordMapping
