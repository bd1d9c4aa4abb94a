import RecordMapping.Error
import RecordMapping.Row
import RecordMapping.Sql.Statement

/-!
# Running statements

A pool is seen as a conversation: the statements that were sent, and the answers that are still to
come. When no answer is left, a statement succeeds and reports nothing.

A statement that fails because of a conflict with another one is sent again, unchanged, up to a
number of times; every other answer is final.
-/

namespace RecordMapping

open Sql

/-- A conversation with the database. -/
structure Pool where
  answers : List (Result Outcome)
  sent : List Statement

/-- Why a computation that talks to the database has no result. -/
inductive Halt where
  /-- It returns an error. -/
  | failed (e : Error)
  /-- A count would go beyond its word. This stops the program, and nothing is returned. -/
  | overflow

/-- A computation that talks to the database and may halt. -/
abbrev Run := ExceptT Halt (StateM Pool)

namespace Run

variable {α : Type}

/-- How a computation ends that returns: with a result or with an error. -/
def returned (result : Result α) : Except Halt α := result.mapError .failed

/-- The computation that has its result without talking to the database. -/
def ofResult (result : Result α) : Run α := ExceptT.mk (pure (returned result))

end Run

namespace Pool

/-- The conversation that has not begun and in which the given answers will come. -/
def ofAnswers (answers : List (Result Outcome)) : Pool := ⟨answers, []⟩

/-- Sends a statement once and takes the answer to it. -/
def send (statement : Statement) : StateM Pool (Result Outcome) := fun pool =>
  match pool.answers with
  | [] => (.ok .empty, { pool with sent := pool.sent ++ [statement] })
  | answer :: rest => (answer, ⟨rest, pool.sent ++ [statement]⟩)

/-- Sends a statement, and again after a conflict, with the given number of retries left. -/
def sendRetrying (statement : Statement) : Nat → StateM Pool (Result Outcome)
  | 0 => send statement
  | retries + 1 => do
    match ← send statement with
    | .error e => if e.isTransient then sendRetrying statement retries else pure (.error e)
    | .ok outcome => pure (.ok outcome)

/-- Runs a statement with a cap on retries. The attempts are counted in words of 32 bits, and the
bound on them, which counts the first one as well, must be such a word. -/
def execute (retries : UInt32) (statement : Statement) : Run Outcome :=
  if retries.toNat + 1 < UInt32.size then
    ExceptT.mk (Run.returned <$> sendRetrying statement retries.toNat)
  else throw .overflow

end Pool

end RecordMapping
