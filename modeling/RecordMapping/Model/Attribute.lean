import RecordMapping.Json.Decoding
import RecordMapping.Text.LetterCase
import RecordMapping.Value

/-!
# Attributes

The declared attributes of a model: their types, the columns they are stored in and how their values
are put into storage.
-/

namespace RecordMapping

/-- What the values of an attribute mean. -/
inductive AttributeType where
  | string
  | number
  | boolean
  | date
  | json
deriving DecidableEq, Repr

namespace AttributeType

/-- The written names of the types. -/
def choice : List (String × AttributeType) :=
  [("String", string), ("Number", number), ("Boolean", boolean), ("Date", date), ("Json", json)]

/-- The written name of a type. -/
def name : AttributeType → String
  | string => "String"
  | number => "Number"
  | boolean => "Boolean"
  | date => "Date"
  | json => "Json"

/-- Reads a written type. -/
def decode : Json → Decoded AttributeType := Json.decodeVariant choice

end AttributeType

/-- How a date is represented in its column: as text with milliseconds, as text to the second, or as
the number of seconds since the beginning of 1970. -/
inductive DateStorage where
  | datetime
  | timestamp
  | epoch
deriving DecidableEq, Repr

namespace DateStorage

/-- The representation with a given name, in any case. -/
def ofName? (name : String) : Option DateStorage :=
  match Text.lower name with
  | "datetime" | "iso" => some datetime
  | "timestamp" => some timestamp
  | "epoch" | "integer" | "number" => some epoch
  | _ => none

/-- The message about a name that no representation has. -/
def unsupported (name : String) : String := "Unsupported date storage: " ++ Text.lower name

/-- The written names of the representations. -/
def choice : List (String × DateStorage) :=
  [("Datetime", datetime), ("Timestamp", timestamp), ("Epoch", epoch)]

/-- The written name of a representation. -/
def name : DateStorage → String
  | datetime => "Datetime"
  | timestamp => "Timestamp"
  | epoch => "Epoch"

/-- Reads a written representation. -/
def decode : Json → Decoded DateStorage := Json.decodeVariant choice

/-- Writes a representation. -/
def encode (storage : DateStorage) : Json := .str storage.name

end DateStorage

/-- A declared attribute. -/
structure Attribute where
  name : String
  type : AttributeType
  /-- The column, where its name differs from the attribute's. -/
  column? : Option String
  /-- The representation of dates, where it differs from the default. -/
  dateStorage? : Option DateStorage
  /-- A conversion into storage that replaces every other; it is given the name of the table. -/
  formatter? : Option (String → Value → Value)

/-- The column that an attribute is stored in. -/
def Attribute.column (a : Attribute) : String := a.column?.getD a.name

/-- An attribute that is stored under its own name. -/
def Attribute.plain (name : String) (type : AttributeType) : Attribute :=
  ⟨name, type, none, none, none⟩

end RecordMapping
