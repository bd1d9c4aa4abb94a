import RecordMapping.Proofs.Sql.Evaluation

/-!
# The truth of a written condition

In SQL a condition need not be true or false of a row. A comparison with null is unknown, `IN` is a
disjunction of comparisons, and `NOT IN` its negation. Here a condition is read from its text in
this way, and a row is selected if it is true.

* `Truth`: the three values and their connectives;
* `verdict?`: the truth of a written condition;
* `exists_verdict`: every comparison that can be written is true of the rows that meet it.
-/

namespace RecordMapping.Sql

open Piece

/-! ## Truth values -/

/-- What a condition may be of a row. -/
inductive Truth where
  | yes
  | no
  | unknown
deriving DecidableEq

namespace Truth

/-- The truth of what is known. -/
def ofBool (b : Bool) : Truth := if b then yes else no

/-- The negation of something unknown is unknown. -/
def not : Truth → Truth
  | yes => no
  | no => yes
  | unknown => unknown

/-- A disjunction is true if one side is, whatever the other one is. -/
def or : Truth → Truth → Truth
  | yes, _ | _, yes => yes
  | no, no => no
  | _, _ => unknown

/-- The disjunction of a list. -/
def any (truths : List Truth) : Truth := truths.foldr or no

theorem ofBool_eq_yes {b : Bool} : ofBool b = yes ↔ b = true := by cases b <;> decide

theorem ofBool_eq_no {b : Bool} : ofBool b = no ↔ b = false := by cases b <;> decide

theorem not_eq_yes {t : Truth} : t.not = yes ↔ t = no := by cases t <;> decide

theorem or_eq_yes {s t : Truth} : s.or t = yes ↔ s = yes ∨ t = yes := by
  cases s <;> cases t <;> decide

theorem or_eq_no {s t : Truth} : s.or t = no ↔ s = no ∧ t = no := by
  cases s <;> cases t <;> decide

theorem any_eq_yes {truths : List Truth} : any truths = yes ↔ ∃ t ∈ truths, t = yes := by
  induction truths with
  | nil => simp [any]
  | cons t truths ih =>
    show t.or (any truths) = yes ↔ _
    rw [or_eq_yes, ih, List.exists_mem_cons_iff]

theorem any_eq_no {truths : List Truth} : any truths = no ↔ ∀ t ∈ truths, t = no := by
  induction truths with
  | nil => simp [any]
  | cons t truths ih =>
    show t.or (any truths) = no ↔ _
    rw [or_eq_no, ih, List.forall_mem_cons]

end Truth

/-! ## Reading conditions -/

/-- The operators that stand between a column and a value. -/
def comparison? : String → Option Operator
  | " = " => some .equal
  | " != " => some .notEqual
  | " > " => some .greater
  | " >= " => some .greaterOrEqual
  | " < " => some .less
  | " <= " => some .lessOrEqual
  | " LIKE " => some .like
  | " NOT LIKE " => some .notLike
  | _ => none

/-- The values of a list, which ends with a parenthesis. -/
def operands? : List Piece → Option (List Value)
  | [param v, word ")"] => some [v]
  | param v :: word ", " :: rest => (operands? rest).map (v :: ·)
  | _ => none

variable {δ : Type}

/-- The truth of a comparison. With null, nothing is known. -/
def Cell.compare (holds : δ → δ → Bool) (a b : Cell δ) : Truth :=
  match (a : Option δ), (b : Option δ) with
  | some a, some b => .ofBool (holds a b)
  | _, _ => .unknown

variable [LinearOrder δ] (db : Database δ)

/-- The truth of membership in a list: that of equality with one of the values. -/
def Cell.member (cell : Cell δ) (values : List Value) : Truth :=
  .any (values.map fun v => cell.compare (compareData db .equal) (db.cell v))

/-- The truth of what is written behind a column. -/
def Cell.verdict? (cell : Cell δ) : List Piece → Option Truth
  | word " IN (" :: list => (operands? list).map (cell.member db)
  | word " NOT IN (" :: list => (operands? list).map fun values => (cell.member db values).not
  | [word " IS NULL"] => some (.ofBool (cell = ⊥))
  | [word " IS NOT NULL"] => some (.ofBool (cell ≠ ⊥))
  | [word op, param v] =>
    (comparison? op).map fun op => cell.compare (compareData db op) (db.cell v)
  | _ => none

/-- The truth of a written condition, of a row of joined tables. -/
def verdict? (row : JoinedRow δ) : List Piece → Option Truth
  | [word "1 = 0"] => some .no
  | [word "1 = 1"] => some .yes
  | name table :: word "." :: name column :: rest => (row table column).verdict? db rest
  | _ => none

variable {db : Database δ}

/-! ## What is true -/

omit [LinearOrder δ] in
theorem Cell.compare_eq_yes {holds : δ → δ → Bool} {a b : Cell δ} :
    a.compare holds b = .yes ↔ Cell.test holds a b = true := by
  match (a : Option δ), (b : Option δ) with
  | some a, some b => exact Truth.ofBool_eq_yes
  | none, _ | some _, none => exact ⟨nofun, nofun⟩

/-- What is not equal is known to differ. -/
theorem Cell.compare_equal_eq_no {a b : Cell δ} :
    a.compare (compareData db .equal) b = .no
      ↔ Cell.test (compareData db .notEqual) a b = true := by
  match (a : Option δ), (b : Option δ) with
  | some a, some b =>
    show Truth.ofBool (decide (a = b)) = .no ↔ decide (a ≠ b) = true
    rw [Truth.ofBool_eq_no, decide_eq_false_iff_not, decide_eq_true_iff]
  | none, _ | some _, none => exact ⟨nofun, nofun⟩

/-- Only data differ, and a datum does not differ from itself. -/
theorem Cell.ne_of_test_notEqual {a b : Cell δ}
    (h : Cell.test (compareData db .notEqual) a b = true) : a ≠ ⊥ ∧ b ≠ ⊥ ∧ a ≠ b := by
  refine ⟨?_, ?_, ?_⟩
  · rintro rfl
    exact absurd h nofun
  · rintro rfl
    match (a : Option δ), h with
    | none, h | some _, h => exact absurd h nofun
  · rintro rfl
    match (a : Option δ), h with
    | none, h => exact absurd h nofun
    | some d, h => exact of_decide_eq_true h rfl

theorem Cell.member_eq_yes {cell : Cell δ} {values : List Value} :
    cell.member db values = .yes
      ↔ (values.any fun v => Cell.test (compareData db .equal) cell (db.cell v)) = true := by
  simp [Cell.member, Truth.any_eq_yes, Cell.compare_eq_yes]

theorem Cell.member_eq_no {cell : Cell δ} {values : List Value} :
    cell.member db values = .no
      ↔ (values.all fun v => Cell.test (compareData db .notEqual) cell (db.cell v)) = true := by
  simp [Cell.member, Truth.any_eq_no, Cell.compare_equal_eq_no]

/-! ## What is written -/

/-- A list is read as it was written. -/
theorem operands?_separated {values : List Value} (h : values ≠ []) :
    operands? (separated ", " (values.map fun v => [param v]) ++ [word ")"]) = some values := by
  induction values with
  | nil => exact absurd rfl h
  | cons v values ih =>
    cases values with
    | nil => rfl
    | cons next values =>
      have hrest := ih (List.cons_ne_nil next values)
      show (operands? (separated ", " ((next :: values).map fun v => [param v]) ++ [word ")"])).map
        (v :: ·) = _
      rw [hrest]
      rfl

/-- The other operators stand between the column and a value. -/
theorem verdict?_comparison {op : Operator} (hlist : op.takesList = false)
    (hunary : op.isUnary = false) (cell : Cell δ) (v : Value) :
    cell.verdict? db [word (" " ++ op.sql ++ " "), param v]
      = some (cell.compare (compareData db op) (db.cell v)) := by
  cases op with
  | isIn | notIn => exact absurd hlist nofun
  | isNull | isNotNull => exact absurd hunary nofun
  | _ => rfl

theorem verdict?_isIn (cell : Cell δ) {values : List Value} (h : values ≠ []) :
    cell.verdict? db (word " IN (" ::
        (separated ", " (values.map fun v => [param v]) ++ [word ")"]))
      = some (cell.member db values) := by
  show (operands? _).map _ = _
  rw [operands?_separated h, Option.map_some]

theorem verdict?_notIn (cell : Cell δ) {values : List Value} (h : values ≠ []) :
    cell.verdict? db (word " NOT IN (" ::
        (separated ", " (values.map fun v => [param v]) ++ [word ")"]))
      = some (cell.member db values).not := by
  show (operands? _).map _ = _
  rw [operands?_separated h, Option.map_some]

/-- A comparison with a value is written if there is one. -/
theorem exists_verdict_comparison {op : Operator} (hlist : op.takesList = false)
    (hunary : op.isUnary = false) {column : ColumnRef} {value? : Option Value} {ps : List Piece}
    (hps : (match value? with
      | some v => (.ok (column.pieces ++ [word (" " ++ op.sql ++ " "), param v]) : Result _)
      | none => .error (.query (.valueRequired op column.column))) = .ok ps) (row : JoinedRow δ) :
    ∃ truth, verdict? db row ps = some truth ∧ (truth = .yes ↔ (value?.any fun v =>
      Cell.test (compareData db op) (column.cell row) (db.cell v)) = true) := by
  cases value? with
  | none => exact absurd hps nofun
  | some v =>
    obtain rfl := Except.ok.inj hps
    exact ⟨_, verdict?_comparison hlist hunary (column.cell row) v, Cell.compare_eq_yes⟩

/-- **A written comparison is true of the rows that meet it.** Every comparison that can be written
can be read, and what is read is true of a row if and only if the row meets the comparison. Of other
rows it is false or unknown. -/
theorem exists_verdict {p : Predicate} {ps : List Piece} (hps : p.pieces = .ok ps)
    (row : JoinedRow δ) :
    ∃ truth, verdict? db row ps = some truth ∧ (truth = .yes ↔ p.holds db row = true) := by
  obtain ⟨column, op, value?, values⟩ := p
  have htest {sql : String} {b : Bool}
      (hps : (.ok (column.pieces ++ [word sql]) : Result _) = .ok ps)
      (hsql : (column.cell row).verdict? db [word sql] = some (.ofBool b)) :
      ∃ truth, verdict? db row ps = some truth ∧ (truth = .yes ↔ b = true) := by
    obtain rfl := Except.ok.inj hps
    exact ⟨_, hsql, Truth.ofBool_eq_yes⟩
  cases op with
  | isNull | isNotNull => exact htest hps rfl
  | equal | notEqual =>
    -- compared with null, they are tests for it
    dsimp only [Predicate.pieces] at hps
    dsimp only [Predicate.holds]
    split at hps
    · rename_i hnull
      rw [if_pos hnull]
      exact htest hps rfl
    · rename_i hvalue
      rw [if_neg hvalue]
      exact exists_verdict_comparison rfl rfl hps row
  | isIn =>
    dsimp only [Predicate.pieces] at hps
    split at hps
    · rename_i hempty
      obtain rfl := List.isEmpty_iff.mp hempty
      obtain rfl := Except.ok.inj hps
      exact ⟨.no, rfl, nofun, nofun⟩
    · rename_i hvalues
      obtain rfl := Except.ok.inj hps
      rw [List.append_assoc]
      exact ⟨_, verdict?_isIn (column.cell row) (by simpa using hvalues), Cell.member_eq_yes⟩
  | notIn =>
    dsimp only [Predicate.pieces] at hps
    split at hps
    · rename_i hempty
      obtain rfl := List.isEmpty_iff.mp hempty
      obtain rfl := Except.ok.inj hps
      exact ⟨.yes, rfl, fun _ => rfl, fun _ => rfl⟩
    · rename_i hvalues
      obtain rfl := Except.ok.inj hps
      rw [List.append_assoc]
      exact ⟨_, verdict?_notIn (column.cell row) (by simpa using hvalues),
        Truth.not_eq_yes.trans Cell.member_eq_no⟩
  | _ => exact exists_verdict_comparison rfl rfl hps row

end RecordMapping.Sql
