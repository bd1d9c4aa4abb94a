import RecordMapping.Json.Reader
import RecordMapping.Model

/-!
# Storage

How values pass between records and columns. On the way in, dates take the representation of their
column, JSON becomes text, true becomes one and false becomes null. On the way out, the type of the
attribute says how the stored value is read.
-/

namespace RecordMapping

open Calendar Number

/-- The instant that a value denotes: numbers are seconds since the beginning of 1970, a text is
such a number or a written date, a date is its midnight. -/
def Value.instant? : Value → Option Instant
  | .instant t => some t
  | .date d => Instant.ofDate? d
  | .int n => Instant.of? n.toInt 0
  | .float x => Instant.ofEpoch? x
  | .str s =>
    match readFinite? (Text.trim s) with
    | some x => Instant.ofEpoch? x
    | none => readInstant? s
  | _ => none

/-- The value in its date form if it denotes an instant, and as it is otherwise. -/
def Value.asInstant (value : Value) : Value :=
  match value.instant? with
  | some t => .instant t
  | none => value

namespace Storage

/-- The value that an attribute takes when it is given a value: dates are put into their form. -/
def normalizeInput (a : Attribute) (value : Value) : Value :=
  if a.type == .date then
    match value with
    | .instant t => .instant t
    | .null => .null
    | other => other.asInstant
  else value

/-- An instant in one of the representations of dates. -/
def renderInstant (t : Instant) : DateStorage → Value
  | .datetime => .str t.millisText
  | .timestamp => .str t.timestampText
  | .epoch => .int (Int64.ofInt t.seconds)

/-- The stored form of a value that no attribute has a say in. -/
def plainStorage : Value → Value
  | .json j => .str j.text
  | .bool b => if b then .int 1 else .null
  | other => other

/-- The stored form of a value. A formatter goes before everything else; a date that cannot be
understood is stored as it is. -/
def toStorage (table : String) (a? : Option Attribute) (value : Value) (default : DateStorage) :
    Value :=
  match a? with
  | none => plainStorage value
  | some a =>
    match a.formatter? with
    | some format => format table value
    | none =>
      if a.type == .date then
        match value.instant? with
        | some t => renderInstant t (a.dateStorage?.getD default)
        | none => value
      else plainStorage value

/-- The value that a stored value means for an attribute. -/
def fromStorage (a : Attribute) (value : Value) : Value :=
  match a.type with
  | .boolean => .bool value.isTruthy
  | .date =>
    match value with
    | .null => .null
    | other => other.asInstant
  | .json =>
    match value with
    | .str text =>
      match Json.read? text with
      | some j => .json j
      | none => .str text
    | other => other
  | .string | .number => value

end Storage

end RecordMapping
