import RecordMapping.Error
import RecordMapping.Model.Attribute
import RecordMapping.Number.Literal

/-!
# Configuration

The limits of pages, the number of retries after a conflict and the way dates are stored by default,
with their defaults, the check they must pass and the settings that override them.
-/

namespace RecordMapping

open Number Text

/-- What a mapper is set up with. -/
structure Config where
  defaultLimit : Int64
  maxLimit : Int64
  retries : UInt32
  dateStorage : DateStorage
deriving DecidableEq

/-- How a connection pool is set up unless told otherwise. -/
structure PoolConfig where
  maxConnections : Nat
  minConnections : Nat
  acquireTimeoutSeconds : Nat
  idleTimeoutSeconds : Option Nat
  maxLifetimeSeconds : Option Nat
  testBeforeAcquire : Bool
deriving DecidableEq

namespace PoolConfig

/-- The defaults of a pool. -/
def default : PoolConfig := ⟨10, 1, 30, some 600, some 1800, true⟩

end PoolConfig

namespace Config

/-- The default configuration. -/
def default : Config := ⟨50, 200, 3, .epoch⟩

/-- Both limits are positive, and the default is within the maximum. -/
def validate (config : Config) : Result Unit :=
  if config.maxLimit ≤ 0 then .error (.configuration .maximumNotPositive)
  else if config.defaultLimit ≤ 0 then .error (.configuration .defaultNotPositive)
  else if config.maxLimit < config.defaultLimit then
    .error (.configuration (.defaultAboveMaximum config.defaultLimit config.maxLimit))
  else .ok ()

/-- The default configuration passes the check. -/
theorem validate_default : default.validate = .ok () := rfl

/-- The value of a setting, blanks at its ends aside; the given value if it is not set. -/
def setting {α : Type} (settings : Fields String) (name : String) (read? : String → Option α)
    (otherwise : α) : Result α :=
  match settings.get? name with
  | none => .ok otherwise
  | some raw =>
    match read? (trim raw) with
    | some value => .ok value
    | none => .error (.configuration (.invalidSetting raw name))

/-- An unsigned number of 32 bits, which may have a plus in front. -/
def readUInt32? (s : String) : Option UInt32 := do
  let digits := match s.toList with
    | '+' :: rest => rest
    | cs => cs
  if digits.isEmpty || !digits.all isDigit then none
  else
    let n := ofDigits digits
    if n < UInt32.size then some (UInt32.ofNat n) else none

/-- The configuration that settings describe, the default standing in for what is not set. -/
def ofSettings (settings : Fields String) : Result Config := do
  let defaultLimit ← setting settings "MAPPER_DEFAULT_LIMIT" readInt64? default.defaultLimit
  let maxLimit ← setting settings "MAPPER_MAX_LIMIT" readInt64? default.maxLimit
  let retries ← setting settings "MAPPER_CONFLICT_RETRIES" readUInt32? default.retries
  let dateStorage ← setting settings "MAPPER_DATE_STORAGE" DateStorage.ofName? default.dateStorage
  let config : Config := ⟨defaultLimit, maxLimit, retries, dateStorage⟩
  config.validate
  .ok config

/-- The fields of a written configuration. -/
def fieldRules : List Json.FieldRule :=
  [.of "default_limit" Json.decodeInt64, .of "max_limit" Json.decodeInt64,
    .of "max_conflict_retries" Json.decodeUInt32, .of "date_storage" DateStorage.decode]

/-- Reads a written configuration. -/
def decode (json : Json) : Decoded Config := do
  let fields ← Json.decodeFields "struct MapperConfig" fieldRules json
  return {
    defaultLimit := ← Json.requiredField Json.decodeInt64 "default_limit" fields
    maxLimit := ← Json.requiredField Json.decodeInt64 "max_limit" fields
    retries := ← Json.requiredField Json.decodeUInt32 "max_conflict_retries" fields
    dateStorage := ← Json.requiredField DateStorage.decode "date_storage" fields }

/-- Writes a configuration. -/
def encode (config : Config) : Json :=
  .obj (Fields.ofList [("default_limit", .int config.defaultLimit.toInt),
    ("max_limit", .int config.maxLimit.toInt), ("max_conflict_retries", .int config.retries.toNat),
    ("date_storage", config.dateStorage.encode)])

end Config

end RecordMapping
