import RecordMapping.Error

/-!
# Descriptors

A descriptor is what a caller writes to ask for records: a JSON object. It comes in two styles. In a
shorthand every key that is not reserved is a condition; a structured descriptor keeps its
conditions under `where` or names tables to join, and other keys mean nothing. The style is decided
once, by the keys with which the descriptor begins.
-/

namespace RecordMapping

/-- A descriptor: its style and its keys. -/
structure Descriptor where
  isStructured : Bool
  fields : Fields Json

namespace Descriptor

/-- The keys that never name a condition. -/
def reservedKeys : List String :=
  ["columns", "table", "type", "values", "where", "offset", "limit", "sort", "order", "groupBy",
    "include", "page", "pageSize"]

/-- Whether a key never names a condition. -/
def isReserved (key : String) : Bool := reservedKeys.contains key

/-- Whether a key names a join. -/
def isJoinKey (key : String) : Bool := "Join".toList.isSuffixOf key.toList

/-- Whether a key marks a descriptor as structured. -/
def isStructuredKey (key : String) : Bool := key == "where" || isJoinKey key

/-- The descriptor that asks for everything. -/
def empty : Descriptor := ⟨true, []⟩

/-- The descriptor with the given keys. -/
def ofFields (fields : Fields Json) : Descriptor :=
  ⟨fields.any fun (key, _) => isStructuredKey key, fields⟩

/-- The descriptor that a JSON value is; null asks for everything. -/
def ofJson : Json → Result Descriptor
  | .null => .ok empty
  | .obj fields => .ok (ofFields fields)
  | other => .error (.query (.notAnObject other))

/-- The descriptor as JSON. -/
def toJson (d : Descriptor) : Json := .obj d.fields

/-! ## Adding to a descriptor -/

/-- Puts a value under a key. -/
def put (d : Descriptor) (key : String) (value : Json) : Descriptor :=
  { d with fields := d.fields.insert key value }

/-- Adds a condition, in the place where the style keeps them. -/
def filter (d : Descriptor) (key : String) (value : Json) : Descriptor :=
  if d.isStructured then
    let clause := match d.fields.get? "where" with
      | some (.obj clause) => clause
      | _ => ([] : Fields Json)
    d.put "where" (.obj (Fields.insert key value clause))
  else d.put key value

/-- Adds a name to the comma list under a key; a value that is not a text is replaced. -/
def addName (d : Descriptor) (key name : String) : Descriptor :=
  let merged := match (d.fields.get? key).bind Json.asString? with
    | some existing => if existing.isEmpty then name else existing ++ "," ++ name
    | none => name
  d.put key (.str merged)

/-- Asks for a relation to be loaded with the records. -/
def includeRelation (d : Descriptor) (aliasName : String) : Descriptor :=
  d.addName "include" aliasName

/-- Asks for an order by one more column; a hyphen in front sorts downwards. -/
def orderBy (d : Descriptor) (column : String) : Descriptor := d.addName "order" column

/-- Sets the limit. -/
def limit (d : Descriptor) (n : Int64) : Descriptor := d.put "limit" (.int n.toInt)

/-- Sets the offset. -/
def offset (d : Descriptor) (n : Int64) : Descriptor := d.put "offset" (.int n.toInt)

/-- Asks for a page of a given size; pages are counted from zero. -/
def page (d : Descriptor) (number size : Int64) : Descriptor :=
  (d.put "page" (.int number.toInt)).put "pageSize" (.int size.toInt)

/-- Sets the columns. -/
def columns (d : Descriptor) (names : List String) : Descriptor :=
  d.put "columns" (.arr (names.map .str))

end Descriptor

end RecordMapping
