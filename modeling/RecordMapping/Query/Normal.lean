import RecordMapping.Config
import RecordMapping.Query
import RecordMapping.Query.Descriptor
import RecordMapping.Text.Split

/-!
# From descriptors to queries

Reading a descriptor: the conditions of a shorthand are collected under `where`, texts that denote
numbers become numbers, `sort` is another word for `order`, and a page is cut to the configured
limits. The keys of an object are taken in the order of their names.
-/

namespace RecordMapping

open Number Text

/-- The number that a text denotes: an integer if it is one that fits a word, otherwise the nearest
float. -/
def Value.numeric? (text : String) : Option Value :=
  match readInt64? text with
  | some n => some (.int n)
  | none => (readFinite? text).map .float

namespace Query

/-- The value of a JSON operand; a text that denotes a number becomes one. -/
def readOperand : Json → Value
  | .str text => (Value.numeric? text).getD (.str text)
  | other => .ofJson other

/-! ## Conditions -/

/-- A condition with an explicit operator. A test for null with `false` is the opposite test. -/
def readOperator (key : String) (op : Operator) (operand : Json) : Result Condition :=
  if op.isUnary then
    .ok <| .unary key <| match operand with
      | .bool false => op.flipNull
      | _ => op
  else if op.takesList then
    match operand with
    | .arr items => .ok (.list key op (items.map readOperand))
    | _ => .error (.query (.listExpected op key))
  else .ok (.compare key op (readOperand operand))

/-- Whether an object consists of operators. -/
def isOperators (fields : Fields Json) : Bool :=
  !fields.isEmpty && fields.all fun (key, _) => ['$'].isPrefixOf key.toList

/-- The conditions on one key: one for each operator, membership for an array, equality
otherwise. -/
def readCriteria (key : String) (value : Json) : Result (List Condition) :=
  let equality : Result (List Condition) := .ok [.equal key (readOperand value)]
  match value with
  | .obj operators =>
    if isOperators operators then
      operators.mapM fun (token, operand) =>
        match Operator.ofToken? token with
        | some op => readOperator key op operand
        | none => .error (.query (.unknownOperator token key))
    else equality
  | .arr items => .ok [.list key .isIn (items.map readOperand)]
  | _ => equality

/-- The conditions of a `where` object. -/
def readWhere : Json → Result (List Condition)
  | .obj clause => do
    let conditions ← clause.mapM fun (key, value) => readCriteria key value
    .ok conditions.flatten
  | other => .error (.query (.whereNotObject other))

/-- The conditions of a descriptor; without a `where` there are none. -/
def readConditions : Option Json → Result (List Condition)
  | none => .ok []
  | some clause => readWhere clause

/-! ## Joins and values -/

/-- The reference between two dollar signs, if a text is one. -/
def reference? (text : String) : Option String :=
  match text.toList with
  | '$' :: rest =>
    match rest.reverse with
    | '$' :: body => if body.isEmpty then none else some (String.ofList body.reverse)
    | _ => none
  | _ => none

/-- What a column of a joined table is compared with: a reference between dollar signs, or a
value. -/
def readJoinOperand (operand : Json) : JoinOperand :=
  match operand.asString?.bind reference? with
  | some reference => .column reference
  | none => .value (readOperand operand)

/-- The joins under a join key, one for each table. -/
def readJoins (key : String) (value : Json) : Result (List JoinSpec) := do
  let some kind := JoinKind.ofKey? key | .error (.query (.unsupportedJoin key))
  let .obj tables := value | .error (.query (.joinNotObject key))
  tables.mapM fun (table, conditions) =>
    match conditions with
    | .obj conditions => .ok ⟨kind, table, Fields.mapValues readJoinOperand conditions⟩
    | _ => .error (.query (.joinConditionsNotObject table))

/-- The joins under all join keys. -/
def readAllJoins (fields : Fields Json) : Result (List JoinSpec) := do
  let joins ← (fields.filter fun (key, _) => Descriptor.isJoinKey key).mapM fun (key, value) =>
    readJoins key value
  .ok joins.flatten

/-- The values to write, if there are any. -/
def readValues : Option Json → Result (List (String × Option Value))
  | none => .ok []
  | some (.obj values) => .ok (Fields.mapValues (fun value => some (.ofJson value)) values)
  | some other => .error (.query (.valuesNotObject other))

/-! ## Names and order -/

/-- A list of names: a text divided by commas, or an array of texts. -/
def readNames (field : String) : Option Json → Result (List String)
  | none | some .null => .ok []
  | some (.str text) => .ok (splitNames text)
  | some (.arr items) => do
    let names ← items.mapM fun item =>
      match item with
      | .str text => Except.ok (trim text)
      | _ => .error (.query (.entryNotString field))
    .ok (names.filter (· != ""))
  | some other => .error (.query (.namesExpected field other))

/-- Equality of texts up to the case of ASCII letters. -/
def sameWord (a b : String) : Bool := upperAscii a == upperAscii b

/-- The direction that a value in an order object asks for. -/
def readDirection (column : String) (value : Json) : Result Direction :=
  let invalid : Result Direction := .error (.query (.invalidDirection value column))
  match value with
  | .str word =>
    if sameWord word "desc" then .ok .desc else if sameWord word "asc" then .ok .asc else invalid
  | .int n => if n == -1 then .ok .desc else if n == 1 then .ok .asc else invalid
  | _ => invalid

/-- An entry of an order list: a column with a hyphen in front, or a column and perhaps a
direction. -/
def readOrderEntry (entry : String) : String × Direction :=
  match entry.toList with
  | '-' :: column => (String.ofList (trimChars column), .desc)
  | _ =>
    match splitBlanks entry with
    | column :: direction :: _ => (column, if sameWord direction "desc" then .desc else .asc)
    | [column] => (column, .asc)
    | [] => ("", .asc)

/-- The order of a descriptor: an object from columns to directions, or a list of entries. -/
def readOrder : Option Json → Result (List (String × Direction))
  | some (.obj columns) =>
    columns.mapM fun (column, value) => do .ok (column, ← readDirection column value)
  | other => do .ok ((← readNames "order" other).map readOrderEntry)

/-! ## Pages -/

/-- The integer part of a float, if it fits a word. -/
def truncate? (x : Float) : Option Int64 :=
  (Dyadic.ofFloat? x).bind fun d => int64? d.truncate

/-- A whole number, given as a number or a text; what stands behind the point is cut off. -/
def readWholeNumber (field : String) : Option Json → Result (Option Int64)
  | none | some .null => .ok none
  | some (.int n) => inRange (int64? n)
  | some (.float x) => inRange (truncate? x)
  | some (.str text) =>
    match Value.numeric? (trim text) with
    | some (.int n) => .ok (some n)
    | some (.float x) => inRange (truncate? x)
    | _ => .error (.query (.textNotNumeric field text))
  | some other => .error (.query (.notNumeric field other))
where
  inRange : Option Int64 → Result (Option Int64)
    | some n => .ok (some n)
    | none => .error (.query (.outOfRange field))

/-- The number of records on a page: what is asked for, or else the default, within the maximum. -/
def pageLimit (config : Config) (requested : Option Int64) : Int64 :=
  match requested with
  | some n => if 0 < n then min n config.maxLimit else min config.defaultLimit config.maxLimit
  | none => min config.defaultLimit config.maxLimit

/-- The offset of a page; pages before the first count as the first. -/
def pageOffset (page limit : Int64) : Result Int64 :=
  match int64? (max page.toInt 0 * limit.toInt) with
  | some offset => .ok offset
  | none => .error (.query (.pageOutOfRange page limit))

/-- The limit and the offset that a descriptor asks for. -/
def readPage (config : Config) (fields : Fields Json) : Result (Int64 × Int64) := do
  let requested ← match ← readWholeNumber "pageSize" (fields.get? "pageSize") with
    | some size => pure (some size)
    | none => readWholeNumber "limit" (fields.get? "limit")
  let limit := pageLimit config requested
  let offset ← match ← readWholeNumber "page" (fields.get? "page") with
    | some page => pageOffset page limit
    | none => do
      let offset ← readWholeNumber "offset" (fields.get? "offset")
      pure (max (offset.getD 0) 0)
  .ok (limit, offset)

/-- The limit and the offset of a query; only a select has pages. -/
def readPageOf (config : Config) (kind : QueryKind) (fields : Fields Json) :
    Result (Option (Int64 × Int64)) :=
  if kind = .select then some <$> readPage config fields else .ok none

/-! ## The whole descriptor -/

/-- Whether a key of a shorthand names a condition. -/
def isConditionKey (key : String) : Bool :=
  !Descriptor.isReserved key && !Descriptor.isStructuredKey key

/-- The keys of a descriptor in the structured style. -/
def structuredFields (d : Descriptor) : Fields Json :=
  if d.isStructured then d.fields
  else
    let clause := d.fields.filter fun (key, _) => isConditionKey key
    if clause.isEmpty then d.fields
    else
      Fields.insert "where" (.obj clause) (d.fields.filter fun (key, _) => !isConditionKey key)

/-- The keys with `sort` under its other name, unless that is there already. -/
def withOrder (fields : Fields Json) : Fields Json :=
  match fields.get? "sort" with
  | none => fields
  | some sort =>
    let rest := fields.erase "sort"
    if rest.contains "order" then rest else rest.insert "order" sort

/-- What a descriptor asks to be done. -/
def readKind : Option Json → Result QueryKind
  | none | some .null => .ok .select
  | some (.str name) =>
    match QueryKind.ofName? name with
    | some kind => .ok kind
    | none => .error (.query (.unknownKind name))
  | some other => .error (.query (.invalidKind other))

/-- The query that a descriptor stands for. -/
def ofDescriptor (config : Config) (d : Descriptor) : Result Query := do
  let fields := withOrder (structuredFields d)
  let kind ← readKind (fields.get? "type")
  let columns ← readNames "columns" (fields.get? "columns")
  let groupBy ← readNames "groupBy" (fields.get? "groupBy")
  let includes ← readNames "include" (fields.get? "include")
  let order ← readOrder (fields.get? "order")
  let conditions ← readConditions (fields.get? "where")
  let joins ← readAllJoins fields
  let values ← readValues (fields.get? "values")
  let page? ← readPageOf config kind fields
  .ok {
    kind
    table? := (fields.get? "table").bind Json.asString?
    columns
    conditions
    joins
    values
    order
    groupBy
    offset? := page?.map (·.2)
    limit? := page?.map (·.1)
    includes }

end Query

end RecordMapping
