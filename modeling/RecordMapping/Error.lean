import RecordMapping.Json.Decoding
import RecordMapping.Query.Operator
import RecordMapping.Text.Blank
import RecordMapping.Url

/-!
# Errors

Everything that can go wrong, by cause. Each kind of error has a status, as web services number
them, and a message; a kind whose causes are texts of the database carries them as they are.
-/

namespace RecordMapping

open Text

/-- Why a setup was refused. -/
inductive ConfigurationFault where
  | reported (text : String)
  | maximumNotPositive
  | defaultNotPositive
  | defaultAboveMaximum (default maximum : Int64)
  | invalidSetting (raw name : String)
  | modelRegisteredTwice (name : String)
  | unknownModel (name : String)
  | missingForeignKey (relation owner target : String)
  | unknownJunction (relation owner arrow target junction : String)
  | sameJunctionKeys (first second key : String)
  | aliasTaken (aliasName owner : String)

/-- Why a relation could not be followed. -/
inductive RelationshipFault where
  | reported (text : String)
  | unknownModel (name : String)
  | unknownRelation (model aliasName : String)
  | noJunction (aliasName : String)
  | includeCollision (aliasName : String)
  | pageCollision (aliasName : String)
  | isCollection (aliasName : String)
  | cannotCreate (aliasName : String)

/-- Why a query was refused. -/
inductive QueryFault where
  | reported (text : String)
  | notAnObject (got : Json)
  | unknownKind (name : String)
  | invalidKind (got : Json)
  | whereNotObject (got : Json)
  | unknownOperator (token key : String)
  | listExpected (op : Operator) (key : String)
  | unsupportedJoin (key : String)
  | joinNotObject (key : String)
  | joinConditionsNotObject (table : String)
  | valuesNotObject (got : Json)
  | entryNotString (field : String)
  | namesExpected (field : String) (got : Json)
  | invalidDirection (got : Json) (column : String)
  | outOfRange (field : String)
  | textNotNumeric (field text : String)
  | notNumeric (field : String) (got : Json)
  | pageOutOfRange (page size : Int64)
  | relationsInWrite (kind : String)
  | valueRequired (op : Operator) (column : String)
  | nothingToSet (table : String)
  | wrongModel (instanceModel mapperModel : String)

/-- Why a record could not be converted. -/
inductive SerializationFault where
  | reported (text : String)
  | decoding (fault : DecodeFault)
  | notAnObject (model : String)
  | instanceMismatch (model : String) (fault : DecodeFault)

/-- Why a result row could not be turned into a record. -/
inductive HydrationFault where
  | reported (text : String)
  | missingKeyColumn (model column : String)

/-- Why there is no connection to a database. -/
inductive ConnectionFault where
  | reported (text : String)
  | invalidScheme
  | invalidUrl (fault : Url.Fault)
  | missingHost
  | missingDatabase

/-- What can go wrong. -/
inductive Error where
  | notFound (table key : String)
  | transientConflict (text : String)
  | database (text : String)
  | connection (fault : ConnectionFault)
  | configuration (fault : ConfigurationFault)
  | relationship (fault : RelationshipFault)
  | query (fault : QueryFault)
  | serialization (fault : SerializationFault)
  | hydration (fault : HydrationFault)
  | missingPrimaryKey

/-- A result or the error that prevented it. -/
abbrev Result (α : Type) := Except Error α

/-- A text between single quotes. -/
def inQuotes (text : String) : String := "'" ++ text ++ "'"

namespace ConfigurationFault

/-- The message of a fault. -/
def message : ConfigurationFault → String
  | reported text => text
  | maximumNotPositive => "Maximum limit must be greater than 0"
  | defaultNotPositive => "Default limit must be greater than 0"
  | defaultAboveMaximum default maximum =>
    "Default limit " ++ toString default.toInt ++ " exceeds maximum limit "
      ++ toString maximum.toInt
  | invalidSetting raw name => "Invalid value " ++ inQuotes raw ++ " for " ++ name
  | modelRegisteredTwice name => "Model " ++ inQuotes name ++ " is already registered"
  | unknownModel name => "Unknown model " ++ inQuotes name
  | missingForeignKey relation owner target =>
    relation ++ " " ++ owner ++ " -> " ++ target ++ " requires a foreign key"
  | unknownJunction relation owner arrow target junction =>
    relation ++ " " ++ owner ++ " " ++ arrow ++ " " ++ target ++ " goes through unknown model "
      ++ inQuotes junction
  | sameJunctionKeys first second key =>
    "manyToMany " ++ first ++ " <-> " ++ second ++ " needs distinct junction keys, both are "
      ++ inQuotes key
  | aliasTaken aliasName owner =>
    "Relation alias " ++ inQuotes aliasName ++ " is already declared on " ++ owner

end ConfigurationFault

namespace RelationshipFault

/-- The message of a fault. -/
def message : RelationshipFault → String
  | reported text => text
  | unknownModel name => "Unknown model " ++ inQuotes name
  | unknownRelation model aliasName => model ++ " has no relation named " ++ inQuotes aliasName
  | noJunction aliasName => inQuotes aliasName ++ " has no junction"
  | includeCollision aliasName =>
    "Include alias " ++ inQuotes aliasName ++ " collides with a table already in the query"
  | pageCollision aliasName =>
    "Include alias " ++ inQuotes aliasName ++ " collides with the paging table"
  | isCollection aliasName => inQuotes aliasName ++ " is a collection; use \x60all\x60"
  | cannotCreate aliasName => inQuotes aliasName ++ " cannot create related records directly"

end RelationshipFault

namespace QueryFault

/-- The message of a fault. -/
def message : QueryFault → String
  | reported text => text
  | notAnObject got => "Query descriptor must be an object, got " ++ got.text
  | unknownKind name => "Unknown query type " ++ inQuotes name
  | invalidKind got => "Invalid query type " ++ got.text
  | whereNotObject got => "'where' must be an object, got " ++ got.text
  | unknownOperator token key => "Unknown operator " ++ inQuotes token ++ " on " ++ inQuotes key
  | listExpected op key => "Operator " ++ op.sql ++ " on " ++ inQuotes key ++ " expects an array"
  | unsupportedJoin key => "Unsupported join " ++ inQuotes key
  | joinNotObject key => inQuotes key ++ " must be an object"
  | joinConditionsNotObject table =>
    "Join conditions for " ++ inQuotes table ++ " must be an object"
  | valuesNotObject got => "'values' must be an object, got " ++ got.text
  | entryNotString field => inQuotes field ++ " entries must be strings"
  | namesExpected field got => inQuotes field ++ " must be a string or array, got " ++ got.text
  | invalidDirection got column => "Invalid direction " ++ got.text ++ " for " ++ inQuotes column
  | outOfRange field => inQuotes field ++ " is out of range"
  | textNotNumeric field text => inQuotes field ++ " must be numeric, got " ++ inQuotes text
  | notNumeric field got => inQuotes field ++ " must be numeric, got " ++ got.text
  | pageOutOfRange page size =>
    "page " ++ toString page.toInt ++ " with page size " ++ toString size.toInt
      ++ " is out of range"
  | relationsInWrite kind =>
    "Relation predicates and joins are not supported in " ++ kind ++ " queries"
  | valueRequired op column =>
    "Operator " ++ op.sql ++ " on " ++ inQuotes column ++ " requires a value"
  | nothingToSet table => "Update of " ++ inQuotes table ++ " has no values to set"
  | wrongModel instanceModel mapperModel =>
    instanceModel ++ " instance passed to the " ++ mapperModel ++ " mapper"

end QueryFault

namespace SerializationFault

/-- The message of a fault. -/
def message : SerializationFault → String
  | reported text => text
  | decoding fault => fault.message
  | notAnObject model => model ++ " must serialize to an object"
  | instanceMismatch model fault =>
    "Failed to deserialize " ++ model ++ " instance: " ++ fault.message

end SerializationFault

namespace HydrationFault

/-- The message of a fault. -/
def message : HydrationFault → String
  | reported text => text
  | missingKeyColumn model column =>
    "Row for " ++ model ++ " has no primary key column " ++ inQuotes column

end HydrationFault

namespace ConnectionFault

/-- The message of a fault. -/
def message : ConnectionFault → String
  | reported text => text
  | invalidScheme => "Invalid MySQL URL scheme"
  | invalidUrl fault => "Invalid database URL: " ++ fault.message
  | missingHost => "Missing host in database URL"
  | missingDatabase => "Missing database name in URL"

end ConnectionFault

namespace Error

/-- The message of an error. -/
def message : Error → String
  | notFound table key => "Record not found in table " ++ inQuotes table ++ ": " ++ key
  | transientConflict text => "Transient conflict: " ++ text
  | database text => "Database error: " ++ text
  | connection fault => "Connection error: " ++ fault.message
  | configuration fault => "Configuration error: " ++ fault.message
  | relationship fault => "Relationship error: " ++ fault.message
  | query fault => "Query error: " ++ fault.message
  | serialization fault => "Serialization error: " ++ fault.message
  | hydration fault => "Hydration error: " ++ fault.message
  | missingPrimaryKey => "Primary key is missing or invalid"

/-- The name of the kind of an error. -/
def kind : Error → String
  | notFound _ _ => "NotFound"
  | transientConflict _ => "TransientConflict"
  | database _ => "Database"
  | connection _ => "Connection"
  | configuration _ => "Configuration"
  | relationship _ => "Relationship"
  | query _ => "Query"
  | serialization _ => "Serialization"
  | hydration _ => "Hydration"
  | missingPrimaryKey => "MissingPrimaryKey"

/-- The status by which web services report an error. -/
def status : Error → Nat
  | notFound _ _ => 404
  | query _ | missingPrimaryKey => 400
  | transientConflict _ => 409
  | _ => 500

/-- Whether a record was looked for and not found. -/
def isNotFound : Error → Bool
  | notFound _ _ => true
  | _ => false

/-- The text without a leading `error` and a space, in any case of letters. -/
def dropErrorWord (cs : List Char) : List Char :=
  if (cs.take 6).map Char.toLower == "error ".toList then cs.drop 6 else cs

/-- The text begins with the number of a lock error, and no further digit follows. -/
def startsWithLockCode (text : String) : Bool :=
  let rest := dropErrorWord (dropBlanks text.toList)
  ["1213", "1205"].any fun code =>
    code.toList.isPrefixOf rest
      && match rest.drop 4 with
        | c :: _ => !isDigit c
        | [] => true

/-- Whether a word occurs in a text. -/
def hasInfix (word : List Char) : List Char → Bool
  | [] => word.isEmpty
  | c :: cs => word.isPrefixOf (c :: cs) || hasInfix word cs

/-- Whether a text speaks of a deadlock, in any case of letters. No letter outside ASCII has an
uppercase form that could complete the word. -/
def mentionsDeadlock (text : String) : Bool :=
  hasInfix "DEADLOCK".toList (text.toList.map Char.toUpper)

/-- Whether the error is a deadlock or an expired wait for a lock, which may not occur again. -/
def isTransient : Error → Bool
  | transientConflict _ => true
  | database text => mentionsDeadlock text || startsWithLockCode text
  | _ => false

end Error

end RecordMapping
