import RecordMapping.Text.LetterCase

/-!
# The words of queries

What a query may do, how a condition compares, how tables are joined and which way rows are sorted,
with the words by which descriptors name them.
-/

namespace RecordMapping

/-- What a query does. -/
inductive QueryKind where
  | select
  | insert
  | update
  | delete
deriving DecidableEq, Repr

/-- The kind of query with a given name, in any case. -/
def QueryKind.ofName? (name : String) : Option QueryKind :=
  match Text.lower name with
  | "select" => some select
  | "insert" => some insert
  | "update" => some update
  | "delete" | "remove" => some delete
  | _ => none

/-- How a condition compares a column. -/
inductive Operator where
  | equal
  | notEqual
  | greater
  | greaterOrEqual
  | less
  | lessOrEqual
  | like
  | notLike
  | isIn
  | notIn
  | isNull
  | isNotNull
deriving DecidableEq, Repr

namespace Operator

/-- The operator for a word that begins with a dollar sign. -/
def ofToken? : String → Option Operator
  | "$eq" => some equal
  | "$ne" => some notEqual
  | "$gt" => some greater
  | "$gte" => some greaterOrEqual
  | "$lt" => some less
  | "$lte" => some lessOrEqual
  | "$like" => some like
  | "$nlike" => some notLike
  | "$in" => some isIn
  | "$nin" => some notIn
  | "$null" => some isNull
  | "$notNull" => some isNotNull
  | _ => none

/-- The operator in SQL. -/
def sql : Operator → String
  | equal => "="
  | notEqual => "!="
  | greater => ">"
  | greaterOrEqual => ">="
  | less => "<"
  | lessOrEqual => "<="
  | like => "LIKE"
  | notLike => "NOT LIKE"
  | isIn => "IN"
  | notIn => "NOT IN"
  | isNull => "IS NULL"
  | isNotNull => "IS NOT NULL"

/-- The operator compares with a list of values. -/
def takesList : Operator → Bool
  | isIn | notIn => true
  | _ => false

/-- The operator compares with nothing. -/
def isUnary : Operator → Bool
  | isNull | isNotNull => true
  | _ => false

/-- The other one of the two tests for null; any other operator stays. -/
def flipNull : Operator → Operator
  | isNull => isNotNull
  | isNotNull => isNull
  | op => op

end Operator

/-- Which rows of two tables a join keeps. -/
inductive JoinKind where
  | inner
  | left
  | right
deriving DecidableEq, Repr

namespace JoinKind

/-- The join that a descriptor key such as `leftOuterJoin` asks for. -/
def ofKey? (key : String) : Option JoinKind :=
  if key.endsWith "Join" then
    match Text.lower (key.dropEnd 4).toString with
    | "" | "inner" => some inner
    | "left" | "leftouter" => some left
    | "right" | "rightouter" => some right
    | _ => none
  else none

/-- The join in SQL. -/
def sql : JoinKind → String
  | inner => "INNER JOIN"
  | left => "LEFT JOIN"
  | right => "RIGHT JOIN"

end JoinKind

/-- Which way rows are sorted. -/
inductive Direction where
  | asc
  | desc
deriving DecidableEq, Repr

/-- The direction in SQL. -/
def Direction.sql : Direction → String
  | asc => "ASC"
  | desc => "DESC"

end RecordMapping
