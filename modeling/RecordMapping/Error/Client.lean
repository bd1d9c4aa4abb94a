import RecordMapping.Error

/-!
# Faults of the database client

What the client library of the database reports, and the kind of error that each report becomes.
Deadlocks and expired waits for locks are told apart by their codes, so that they may be tried
again.
-/

namespace RecordMapping

/-- What the client library reports. -/
inductive ClientFault where
  /-- The database refused a statement, perhaps with a code. -/
  | refused (code? : Option String) (text : String)
  | poolTimedOut
  | poolClosed
  | rowNotFound
  | workerCrashed
  | protocol (text : String)
  | columnNotFound (name : String)

namespace ClientFault

/-- The codes of deadlocks and expired waits for locks. -/
def lockCodes : List String := ["1213", "1205", "40001"]

/-- The message of a fault. -/
def message : ClientFault → String
  | refused _ text => "error returned from database: " ++ text
  | poolTimedOut => "pool timed out while waiting for an open connection"
  | poolClosed => "attempted to acquire a connection on a closed pool"
  | rowNotFound => "no rows returned by a query that expected to return at least one row"
  | workerCrashed => "attempted to communicate with a crashed background worker"
  | protocol text => "encountered unexpected or invalid data: " ++ text
  | columnNotFound name => "no column found for name: " ++ name

/-- The error that a fault becomes. A conflict keeps the text of the database; without a code that
says so there is no conflict. -/
def toError (fault : ClientFault) : Error :=
  match fault with
  | refused (some code) text =>
    if lockCodes.contains code then .transientConflict text else .database fault.message
  | poolTimedOut | poolClosed => .connection (.reported fault.message)
  | _ => .database fault.message

end ClientFault

end RecordMapping
