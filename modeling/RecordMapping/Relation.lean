import RecordMapping.Json.Decoding

/-!
# Relations

A relation leads from the records of one model, its owner, to those of another, its target. Where
the key lies depends on the kind:

* to many, without a junction: the foreign key is a column of the target and holds the owner's key;
* to many, through a junction: the foreign key is a column of the junction and holds the owner's
  key, and the junction's own key holds the target's;
* to one: the foreign key is a column of the owner and holds the target's key.
-/

namespace RecordMapping

/-- How many records a relation leads to, and from where. -/
inductive RelationKind where
  | hasMany
  | belongsTo
  | manyToMany
deriving DecidableEq, Repr

namespace RelationKind

/-- Whether the relation leads to a collection. -/
def isCollection : RelationKind → Bool
  | hasMany | manyToMany => true
  | belongsTo => false

/-- The written names of the kinds. -/
def choice : List (String × RelationKind) :=
  [("HasMany", hasMany), ("BelongsTo", belongsTo), ("ManyToMany", manyToMany)]

/-- The written name of a kind. -/
def name : RelationKind → String
  | hasMany => "HasMany"
  | belongsTo => "BelongsTo"
  | manyToMany => "ManyToMany"

/-- Reads a written kind. -/
def decode : Json → Decoded RelationKind := Json.decodeVariant choice

end RelationKind

/-- The model between the two sides of a relation; `key` is its column that holds the
target's key. -/
structure Junction where
  model : String
  table : String
  key : String
deriving DecidableEq, Repr

/-- A relation, as its owner sees it. -/
structure Relation where
  kind : RelationKind
  aliasName : String
  owner : String
  target : String
  foreignKey : String
  junction? : Option Junction
deriving DecidableEq, Repr

namespace Junction

/-- The fields of a written junction. -/
def fieldRules : List Json.FieldRule :=
  ["model", "table", "through_key"].map (.of · Json.decodeString)

/-- Reads a written junction. -/
def decode (json : Json) : Decoded Junction := do
  let fields ← Json.decodeFields "struct ThroughConfig" fieldRules json
  return {
    model := ← Json.requiredField Json.decodeString "model" fields
    table := ← Json.requiredField Json.decodeString "table" fields
    key := ← Json.requiredField Json.decodeString "through_key" fields }

/-- Writes a junction. -/
def encode (junction : Junction) : Json :=
  .obj (Fields.ofList [("model", .str junction.model), ("table", .str junction.table),
    ("through_key", .str junction.key)])

end Junction

namespace Relation

/-- Whether the relation leads to a collection. -/
def isCollection (relation : Relation) : Bool := relation.kind.isCollection

/-- The junction's column that holds the target's key. -/
def throughKey? (relation : Relation) : Option String := relation.junction?.map (·.key)

/-- The fields of a written relation. -/
def fieldRules : List Json.FieldRule :=
  [.of "kind" RelationKind.decode, .of "alias" Json.decodeString, .of "owner" Json.decodeString,
    .of "target" Json.decodeString, .of "foreign_key" Json.decodeString,
    .of "through" (Json.decodeOption Junction.decode)]

/-- Reads a written relation; one without a junction may leave it out. -/
def decode (json : Json) : Decoded Relation := do
  let fields ← Json.decodeFields "struct RelationDefinition" fieldRules json
  return {
    kind := ← Json.requiredField RelationKind.decode "kind" fields
    aliasName := ← Json.requiredField Json.decodeString "alias" fields
    owner := ← Json.requiredField Json.decodeString "owner" fields
    target := ← Json.requiredField Json.decodeString "target" fields
    foreignKey := ← Json.requiredField Json.decodeString "foreign_key" fields
    junction? := ← Json.optionalField (Json.decodeOption Junction.decode) "through" fields none }

/-- Writes a relation. -/
def encode (relation : Relation) : Json :=
  .obj (Fields.ofList [("kind", .str relation.kind.name), ("alias", .str relation.aliasName),
    ("owner", .str relation.owner), ("target", .str relation.target),
    ("foreign_key", .str relation.foreignKey),
    ("through", (relation.junction?.map Junction.encode).getD .null)])

end Relation

end RecordMapping
