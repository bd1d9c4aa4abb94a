import Mathlib.Data.List.Sort
import Mathlib.Order.WithBot
import RecordMapping.Proofs.Sql.Clauses

/-!
# What a select returns

The rules of SQL for selects, on given contents of a database. Tables are joined from left to right.
A comparison with null is neither true nor false, so that nulls meet no condition and are joined
with nothing. Groups and distinct rows are represented by any of their rows, and rows that the order
does not tell apart come in any order. A select may therefore have several answers; `Select.Yields`
says which ones.

* `exists_answers`: a select whose tables have different aliases has an answer;
* `sources_stored`: what is joined are the tables themselves, unless one is derived;
* `exists_extend_left`: a left join loses no row.
-/

namespace RecordMapping.Sql

variable {δ : Type}

/-! ## Contents -/

/-- What stands in a column of a row: a datum, or null, which is sorted before all data. -/
abbrev Cell (δ : Type) := WithBot δ

/-- Two cells hold the same datum. A null is not the same as anything. -/
def Cell.Same (a b : Cell δ) : Prop := ∃ d : δ, a = d ∧ b = d

theorem Cell.Same.eq {a b : Cell δ} (h : a.Same b) : a = b := by
  rcases h with ⟨d, rfl, rfl⟩
  rfl

/-- Equal cells hold the same datum, unless they are null. -/
theorem Cell.same_of_eq {a b : Cell δ} (h : a = b) (hb : b ≠ ⊥) : a.Same b := by
  rcases WithBot.ne_bot_iff_exists.mp hb with ⟨d, hd⟩
  exact ⟨d, h.trans hd.symm, hd.symm⟩

/-- A row of a table. -/
abbrev Tuple (δ : Type) := String → Cell δ

/-- A table: the names of its columns, and its rows. -/
structure Table (δ : Type) where
  columns : List String
  rows : List (Tuple δ)

/-- The contents of a database, and what it takes the values for that a statement binds. -/
structure Database (δ : Type) where
  table : String → Table δ
  cell : Value → Cell δ
  cell_null : cell .null = ⊥
  like : δ → δ → Bool

/-- A row of joined tables: for each alias a row of the table. -/
abbrev JoinedRow (δ : Type) := String → Tuple δ

/-- The cell of a column. -/
def ColumnRef.cell (ref : ColumnRef) (row : JoinedRow δ) : Cell δ := row ref.table ref.column

/-- The row in which there are nulls only. -/
def nulls : Tuple δ := fun _ => ⊥

/-- What a select returns: the names and columns of what is returned, and the rows. -/
structure Answer (δ : Type) where
  outputs : List (String × ColumnRef)
  rows : List (JoinedRow δ)

/-- An answer as a table. -/
def Answer.table (answer : Answer δ) : Table δ where
  columns := answer.outputs.map (·.1)
  -- of two columns of one name the first one is read
  rows := answer.rows.map fun row name =>
    match answer.outputs.find? (·.1 == name) with
    | some (_, ref) => ref.cell row
    | none => ⊥

variable [LinearOrder δ] (db : Database δ)

/-! ## Conditions -/

/-- Whether two cells hold data that compare in a given way. -/
def Cell.test (holds : δ → δ → Bool) (a b : Cell δ) : Bool :=
  match (a : Option δ), (b : Option δ) with
  | some a, some b => holds a b
  | _, _ => false

theorem Cell.test_eq_iff {a b : Cell δ} :
    Cell.test (fun a b => decide (a = b)) a b = true ↔ Same a b := by
  induction a using WithBot.recBotCoe with
  | bot =>
    refine ⟨fun h => absurd h Bool.false_ne_true, ?_⟩
    rintro ⟨d, hd, -⟩
    exact absurd hd.symm WithBot.coe_ne_bot
  | coe a =>
    induction b using WithBot.recBotCoe with
    | bot =>
      refine ⟨fun h => absurd h Bool.false_ne_true, ?_⟩
      rintro ⟨d, -, hd⟩
      exact absurd hd.symm WithBot.coe_ne_bot
    | coe b =>
      show decide (a = b) = true ↔ _
      rw [decide_eq_true_iff]
      constructor
      · rintro rfl
        exact ⟨a, rfl, rfl⟩
      · rintro ⟨d, ha, hb⟩
        exact WithBot.coe_injective (ha.trans hb.symm)

/-- How an operator compares two data. -/
def compareData (op : Operator) (a b : δ) : Bool :=
  match op with
  | .equal => a = b
  | .notEqual => a ≠ b
  | .greater => b < a
  | .greaterOrEqual => b ≤ a
  | .less => a < b
  | .lessOrEqual => a ≤ b
  | .like => db.like a b
  | .notLike => !db.like a b
  | _ => false

/-- Whether a row meets a comparison, as the comparison is written: equality with null is a test for
null, and nothing is a member of an empty list. -/
def Predicate.holds (p : Predicate) (row : JoinedRow δ) : Bool :=
  let cell := p.column.cell row
  let comparison (v? : Option Value) : Bool :=
    v?.any fun v => Cell.test (compareData db p.op) cell (db.cell v)
  match p.op with
  | .isNull => cell = ⊥
  | .isNotNull => cell ≠ ⊥
  | .equal => if p.value?.all Value.isNull then cell = ⊥ else comparison p.value?
  | .notEqual => if p.value?.all Value.isNull then cell ≠ ⊥ else comparison p.value?
  -- a null is compared with nothing, so that it passes neither test
  | .isIn => p.values.any fun v => Cell.test (compareData db .equal) cell (db.cell v)
  | .notIn => p.values.all fun v => Cell.test (compareData db .notEqual) cell (db.cell v)
  | _ => comparison p.value?

/-- The cell of an operand. -/
def Operand.cell (operand : Operand) (row : JoinedRow δ) : Cell δ :=
  match operand with
  | .column ref => ref.cell row
  | .value v => db.cell v

/-- Whether a row meets the condition of a join. -/
def meets (on : List (ColumnRef × Operand)) (row : JoinedRow δ) : Bool :=
  on.all fun (ref, operand) =>
    Cell.test (fun a b => decide (a = b)) (ref.cell row) (operand.cell db row)

/-! ## Joins -/

/-- A row, joined with each row of a table that it meets the condition with. -/
def partners (join : Join Select) (source : Table δ) (row : JoinedRow δ) : List (JoinedRow δ) :=
  (source.rows.map (Function.update row join.table.aliasName)).filter (meets db join.on)

/-- The given rows, or one with nulls if there are none. -/
def orNulls (rows : List (JoinedRow δ)) (row : JoinedRow δ) : List (JoinedRow δ) :=
  if rows.isEmpty then [row] else rows

/-- Rows, joined with a table. -/
def extend (rows : List (JoinedRow δ)) (join : Join Select) (source : Table δ) :
    List (JoinedRow δ) :=
  match join.kind with
  | .inner => rows.flatMap (partners db join source)
  | .left => rows.flatMap fun row =>
    orNulls (partners db join source row) (Function.update row join.table.aliasName nulls)
  | .right => source.rows.flatMap fun tuple =>
    orNulls (rows.flatMap (partners db join ⟨source.columns, [tuple]⟩))
      (Function.update (fun _ => nulls) join.table.aliasName tuple)

/-- The rows of a table under an alias. -/
def tableRows (table : TableRef) : List (JoinedRow δ) :=
  (db.table table.table).rows.map (Function.update (fun _ => nulls) table.aliasName)

/-- Rows, joined with one table after the other. -/
def extendAll (rows : List (JoinedRow δ)) (joins : List (Join Select × Table δ)) :
    List (JoinedRow δ) :=
  joins.foldl (fun rows (join, source) => extend db rows join source) rows

/-- The joined rows that meet the conditions of a select. -/
def Select.matching (s : Select) (sources : List (Table δ)) : List (JoinedRow δ) :=
  (extendAll db (tableRows db s.table) (s.joins.zip sources)).filter fun row =>
    s.predicates.all (·.holds db row)

/-! ## Groups, order and pages -/

/-- One row for each key that rows have. -/
structure OnePer {ρ κ : Type} (key : ρ → κ) (rows reps : List ρ) : Prop where
  mem : ∀ row ∈ reps, row ∈ rows
  covers : ∀ row ∈ rows, ∃ rep ∈ reps, key rep = key row
  nodup : (reps.map key).Nodup

/-- The given rows, or one for each key. -/
def Reduces {ρ κ : Type} (once : Bool) (key : ρ → κ) (rows reps : List ρ) : Prop :=
  if once then OnePer key rows reps else reps = rows

/-- By a term of an order, the first row comes before the second one. -/
def OrderTerm.Before (term : OrderTerm) (a b : JoinedRow δ) : Prop :=
  match term.direction with
  | .asc => term.column.cell a < term.column.cell b
  | .desc => term.column.cell b < term.column.cell a

/-- The first row comes before the second one, or the order does not tell them apart. -/
def InOrder : List OrderTerm → JoinedRow δ → JoinedRow δ → Prop
  | [], _, _ => True
  | term :: rest, a, b =>
    term.Before a b ∨ term.column.cell a = term.column.cell b ∧ InOrder rest a b

/-- The part of a list that a page shows. Without a limit it is all of it. -/
def window {α : Type} (limit? offset? : Option Int64) (rows : List α) : List α :=
  match limit? with
  | none => rows
  | some limit => (rows.drop (offset?.getD 0).toInt.toNat).take limit.toInt.toNat

/-! ## Selects -/

/-- The names and columns that an item returns; `columns` are those of the table of an alias. -/
def SelectItem.outputs (columns : String → List String) : SelectItem → List (String × ColumnRef)
  | all aliasName => (columns aliasName).map fun column => (column, ⟨aliasName, column⟩)
  | column ref output => [(output.apply ref.column, ref)]
  | countDistinct _ _ => []

/-- The names and columns that a select returns: without any items, all of its first table. -/
def Select.outputs (s : Select) (sources : List (Table δ)) : List (String × ColumnRef) :=
  let tables := (s.tables.map (·.aliasName)).zip (db.table s.table.table :: sources)
  let columns aliasName := (tables.find? (·.1 == aliasName)).elim [] (·.2.columns)
  let items := if s.items.isEmpty then [.all s.table.aliasName] else s.items
  items.flatMap (SelectItem.outputs columns)

/-- An answer to a select that joins the given tables. The aliases must be different, and no item
counts rows. -/
structure Select.Answers (s : Select) (sources : List (Table δ)) (answer : Answer δ) : Prop where
  aliases : (s.tables.map (·.aliasName)).Nodup
  columns : ∀ ref output, .countDistinct ref output ∉ s.items
  outputs : answer.outputs = s.outputs db sources
  -- groups come first, then distinct rows, their order, and last the page
  rows : ∃ grouped kept sorted,
    Reduces (!s.groupBy.isEmpty) (fun row => s.groupBy.map (·.cell row)) (s.matching db sources)
      grouped
    ∧ Reduces s.distinct (fun row => answer.outputs.map (·.2.cell row)) grouped kept
    ∧ sorted.Perm kept ∧ sorted.Pairwise (InOrder s.order)
    ∧ answer.rows = window s.limit? s.offset? sorted

mutual

/-- An answer to a select. -/
def Select.Yields (db : Database δ) : Select → Answer δ → Prop
  | ⟨distinct, table, items, joins, predicates, groupBy, order, limit?, offset?⟩, answer =>
    ∃ sources, Sources db joins sources
      ∧ Select.Answers db
        ⟨distinct, table, items, joins, predicates, groupBy, order, limit?, offset?⟩ sources answer

/-- What is joined, table by table. -/
def Sources (db : Database δ) : List (Join Select) → List (Table δ) → Prop
  | [], sources => sources = []
  | ⟨_, table, derived?, _⟩ :: rest, sources =>
    ∃ source others, Source db table derived? source ∧ Sources db rest others
      ∧ sources = source :: others

/-- What is joined: a table, or a derived one, which is an answer to its select. -/
def Source (db : Database δ) (table : TableRef) : Option Select → Table δ → Prop
  | none, source => source = db.table table.table
  | some s, source => ∃ answer, s.Yields db answer ∧ source = answer.table

end

variable {db : Database δ}

theorem Select.yields_iff {s : Select} {answer : Answer δ} :
    s.Yields db answer ↔ ∃ sources, Sources db s.joins sources ∧ s.Answers db sources answer := by
  rcases s with ⟨distinct, table, items, joins, predicates, groupBy, order, limit?, offset?⟩
  rw [Select.Yields]

/-- If no table is derived, the tables themselves are joined. -/
theorem sources_stored {joins : List (Join Select)} (hjoins : JoinsTables joins)
    {sources : List (Table δ)} :
    Sources db joins sources ↔ sources = joins.map fun join => db.table join.table.table := by
  induction joins generalizing sources with
  | nil => rw [Sources, List.map_nil]
  | cons join joins ih =>
    rcases join with ⟨kind, table, derived?, on⟩
    obtain rfl : derived? = none := hjoins _ List.mem_cons_self
    have hrest : JoinsTables joins :=
      fun other hother => hjoins other (List.mem_cons_of_mem _ hother)
    simp only [Sources, Source, ih hrest]
    simp

/-- A select that joins no derived table is answered from the tables themselves. -/
theorem Select.yields_stored {s : Select} (hjoins : JoinsTables s.joins) {answer : Answer δ} :
    s.Yields db answer
      ↔ s.Answers db (s.joins.map fun join => db.table join.table.table) answer := by
  rw [Select.yields_iff]
  constructor
  · rintro ⟨sources, hsources, hanswer⟩
    rwa [(sources_stored hjoins).mp hsources] at hanswer
  · intro hanswer
    exact ⟨_, (sources_stored hjoins).mpr rfl, hanswer⟩

/-- If the first table is derived, it is an answer to its select. -/
theorem sources_derived {join : Join Select} {s : Select} {rest : List (Join Select)}
    (hderived : join.derived? = some s) (hrest : JoinsTables rest) {sources : List (Table δ)} :
    Sources db (join :: rest) sources ↔ ∃ answer, s.Yields db answer
      ∧ sources = answer.table :: rest.map fun other => db.table other.table.table := by
  rcases join with ⟨kind, table, derived?, on⟩
  obtain rfl : derived? = some s := hderived
  simp only [Sources, Source, sources_stored hrest]
  constructor
  · rintro ⟨source, others, ⟨answer, hanswer, rfl⟩, rfl, rfl⟩
    exact ⟨answer, hanswer, rfl⟩
  · rintro ⟨answer, hanswer, rfl⟩
    exact ⟨_, _, ⟨answer, hanswer, rfl⟩, rfl, rfl⟩

/-! ## Answers exist -/

/-- Rows have representatives. -/
theorem exists_onePer {ρ κ : Type} (key : ρ → κ) (rows : List ρ) :
    ∃ reps, OnePer key rows reps := by
  induction rows with
  | nil => exact ⟨[], nofun, nofun, List.nodup_nil⟩
  | cons row rows ih =>
    rcases ih with ⟨reps, hmem, hcovers, hnodup⟩
    -- a row is needed only if none of the others has its key
    by_cases hkey : key row ∈ reps.map key
    · refine ⟨reps, fun rep hrep => List.mem_cons_of_mem row (hmem rep hrep), ?_, hnodup⟩
      intro other hother
      rcases List.mem_cons.mp hother with rfl | hother
      · exact List.mem_map.mp hkey
      · exact hcovers other hother
    · refine ⟨row :: reps, ?_, ?_, List.nodup_cons.mpr ⟨hkey, hnodup⟩⟩
      · intro rep hrep
        exact List.mem_cons.mpr ((List.mem_cons.mp hrep).imp id (hmem rep))
      · intro other hother
        rcases List.mem_cons.mp hother with rfl | hother
        · exact ⟨other, List.mem_cons_self, rfl⟩
        · rcases hcovers other hother with ⟨rep, hrep, hsame⟩
          exact ⟨rep, List.mem_cons_of_mem row hrep, hsame⟩

theorem OrderTerm.before_trichotomy (term : OrderTerm) (a b : JoinedRow δ) :
    term.Before a b ∨ term.column.cell a = term.column.cell b ∨ term.Before b a := by
  unfold OrderTerm.Before
  cases term.direction with
  | asc => exact lt_trichotomy _ _
  | desc => exact (lt_trichotomy (term.column.cell b) _).imp id (Or.imp Eq.symm id)

theorem OrderTerm.before_trans (term : OrderTerm) {a b c : JoinedRow δ} (hab : term.Before a b)
    (hbc : term.Before b c) : term.Before a c := by
  unfold OrderTerm.Before at *
  cases hd : term.direction with
  | asc =>
    rw [hd] at hab hbc
    exact lt_trans hab hbc
  | desc =>
    rw [hd] at hab hbc
    exact lt_trans hbc hab

/-- Rows with the same cell come before the same rows. -/
theorem OrderTerm.before_congr (term : OrderTerm) {a a' b b' : JoinedRow δ}
    (ha : term.column.cell a = term.column.cell a')
    (hb : term.column.cell b = term.column.cell b') :
    term.Before a b ↔ term.Before a' b' := by
  unfold OrderTerm.Before
  rw [ha, hb]

theorem exists_reduces {ρ κ : Type} (once : Bool) (key : ρ → κ) (rows : List ρ) :
    ∃ reps, Reduces once key rows reps := by
  unfold Reduces
  cases once with
  | false => exact ⟨rows, rfl⟩
  | true => exact exists_onePer key rows

/-- Of two rows one comes before the other one, or the order does not tell them apart. -/
theorem inOrder_total (order : List OrderTerm) (a b : JoinedRow δ) :
    InOrder order a b ∨ InOrder order b a := by
  induction order with
  | nil => exact .inl trivial
  | cons term order ih =>
    rcases term.before_trichotomy a b with h | h | h
    · exact .inl (.inl h)
    · exact ih.imp (fun hrest => .inr ⟨h, hrest⟩) fun hrest => .inr ⟨h.symm, hrest⟩
    · exact .inr (.inl h)

theorem inOrder_trans (order : List OrderTerm) {a b c : JoinedRow δ} (hab : InOrder order a b)
    (hbc : InOrder order b c) : InOrder order a c := by
  induction order with
  | nil => trivial
  | cons term order ih =>
    -- the first term that tells two of the rows apart decides
    rcases hab with hab | ⟨hab, hrest⟩
    · refine .inl ?_
      rcases hbc with hbc | ⟨hbc, -⟩
      · exact term.before_trans hab hbc
      · exact (term.before_congr rfl hbc).mp hab
    · rcases hbc with hbc | ⟨hbc, hrest'⟩
      · exact .inl ((term.before_congr hab rfl).mpr hbc)
      · exact .inr ⟨hab.trans hbc, ih hrest hrest'⟩

/-- Rows can be sorted. -/
theorem exists_sorted (order : List OrderTerm) (rows : List (JoinedRow δ)) :
    ∃ sorted : List (JoinedRow δ), sorted.Perm rows ∧ sorted.Pairwise (InOrder order) := by
  classical
  have : Std.Total (InOrder order : JoinedRow δ → JoinedRow δ → Prop) := ⟨inOrder_total order⟩
  have : IsTrans (JoinedRow δ) (InOrder order) := ⟨fun _ _ _ => inOrder_trans order⟩
  exact ⟨rows.insertionSort (InOrder order), List.perm_insertionSort _ _,
    List.pairwise_insertionSort _ _⟩

/-- A select has an answer if its tables have different aliases and it does not count. -/
theorem exists_answers {s : Select} (sources : List (Table δ))
    (haliases : (s.tables.map (·.aliasName)).Nodup)
    (hcolumns : ∀ ref output, .countDistinct ref output ∉ s.items) :
    ∃ answer, s.Answers db sources answer := by
  rcases exists_reduces (!s.groupBy.isEmpty) (fun row => s.groupBy.map (·.cell row))
    (s.matching db sources) with ⟨grouped, hgrouped⟩
  rcases exists_reduces s.distinct (fun row => (s.outputs db sources).map (·.2.cell row)) grouped
    with ⟨kept, hkept⟩
  rcases exists_sorted s.order kept with ⟨sorted, hperm, hsorted⟩
  exact ⟨⟨s.outputs db sources, window s.limit? s.offset? sorted⟩, haliases, hcolumns, rfl,
    grouped, kept, sorted, hgrouped, hkept, hperm, hsorted, rfl⟩

/-- Items that do not count do not count under their storage names. -/
theorem not_counts_stored {schema : Schema} {tables : List TableRef} {items : List SelectItem}
    (h : ∀ ref output, .countDistinct ref output ∉ items) (ref : ColumnRef) (output : String) :
    .countDistinct ref output ∉ items.map (·.stored schema tables) := by
  intro hmem
  rcases List.mem_map.mp hmem with ⟨item, hitem, hsame⟩
  cases item with
  | countDistinct ref' output' => exact h ref' output' hitem
  | all aliasName => exact absurd hsame nofun
  | column ref' output' => exact absurd hsame nofun

/-- Under its storage names, a select has an answer if it joins stored tables under different
aliases and does not count. -/
theorem Select.exists_yields {schema : Schema} {s : Select} (hjoins : JoinsTables s.joins)
    (haliases : (s.tables.map (·.aliasName)).Nodup)
    (hcolumns : ∀ ref output, .countDistinct ref output ∉ s.items) :
    ∃ answer, (s.stored schema).Yields db answer := by
  have hstored (ref : ColumnRef) (output : String) :
      .countDistinct ref output ∉ (s.stored schema).items := by
    rw [Select.stored_eq]
    exact not_counts_stored hcolumns ref output
  rcases exists_answers ((s.stored schema).joins.map fun join => db.table join.table.table)
    (by rwa [Select.stored_tables]) hstored with ⟨answer, hanswer⟩
  exact ⟨answer, (Select.yields_stored (Select.joinsTables_stored hjoins)).mpr hanswer⟩

/-! ## Rows of answers -/

theorem mem_of_reduces {ρ κ : Type} {once : Bool} {key : ρ → κ} {rows reps : List ρ}
    (h : Reduces once key rows reps) {row : ρ} (hrow : row ∈ reps) : row ∈ rows := by
  unfold Reduces at h
  cases once with
  | false => rwa [show reps = rows from h] at hrow
  | true => exact h.mem row hrow

theorem mem_of_mem_window {α : Type} {limit? offset? : Option Int64} {rows : List α} {row : α}
    (h : row ∈ window limit? offset? rows) : row ∈ rows := by
  unfold window at h
  cases limit? with
  | none => exact h
  | some limit => exact List.mem_of_mem_drop (List.mem_of_mem_take h)

/-- All rows of an answer meet the conditions. -/
theorem Select.Answers.mem_matching {s : Select} {sources : List (Table δ)} {answer : Answer δ}
    (h : s.Answers db sources answer) {row : JoinedRow δ} (hrow : row ∈ answer.rows) :
    row ∈ s.matching db sources := by
  rcases h.rows with ⟨grouped, kept, sorted, hgrouped, hkept, hperm, -, hrows⟩
  rw [hrows] at hrow
  exact mem_of_reduces hgrouped (mem_of_reduces hkept (hperm.mem_iff.mp (mem_of_mem_window hrow)))

/-- Without groups and limit, and if rows may be repeated, all rows that meet the conditions are
returned. -/
theorem Select.Answers.perm_matching {s : Select} {sources : List (Table δ)} {answer : Answer δ}
    (h : s.Answers db sources answer) (hgroups : s.groupBy = []) (hdistinct : s.distinct = false)
    (hlimit : s.limit? = none) : answer.rows.Perm (s.matching db sources) := by
  rcases h.rows with ⟨grouped, kept, sorted, hgrouped, hkept, hperm, -, hrows⟩
  rw [hgroups] at hgrouped
  rw [hdistinct] at hkept
  rw [hlimit] at hrows
  obtain rfl : grouped = _ := hgrouped
  obtain rfl : kept = _ := hkept
  rw [hrows]
  exact hperm

/-! ## Joined rows -/

theorem meets_update {aliasName column start other : String} (hapart : start ≠ aliasName)
    (row : JoinedRow δ) (tuple : Tuple δ) :
    meets db [(⟨aliasName, column⟩, .column ⟨start, other⟩)] (Function.update row aliasName tuple)
        = true
      ↔ (tuple column).Same (row start other) := by
  simp [meets, ColumnRef.cell, Operand.cell, Cell.test_eq_iff, hapart]

variable {rows : List (JoinedRow δ)} {join : Join Select} {source : Table δ}

theorem mem_partners {row joined : JoinedRow δ} :
    joined ∈ partners db join source row ↔ ∃ tuple ∈ source.rows,
      joined = Function.update row join.table.aliasName tuple ∧ meets db join.on joined = true := by
  rw [partners, List.mem_filter, List.mem_map]
  constructor
  · rintro ⟨⟨tuple, htuple, rfl⟩, hmeets⟩
    exact ⟨tuple, htuple, rfl, hmeets⟩
  · rintro ⟨tuple, htuple, rfl, hmeets⟩
    exact ⟨⟨tuple, htuple, rfl⟩, hmeets⟩

/-- An inner join has the rows that meet its condition. -/
theorem mem_extend_inner (hkind : join.kind = .inner) {joined : JoinedRow δ} :
    joined ∈ extend db rows join source ↔ ∃ row ∈ rows, ∃ tuple ∈ source.rows,
      joined = Function.update row join.table.aliasName tuple ∧ meets db join.on joined = true := by
  simp only [extend, hkind, List.mem_flatMap, mem_partners]

/-- A left join has the rows that meet its condition, and the others with nulls. -/
theorem mem_extend_left (hkind : join.kind = .left) {joined : JoinedRow δ} :
    joined ∈ extend db rows join source ↔ ∃ row ∈ rows,
      joined ∈ partners db join source row
      ∨ partners db join source row = []
        ∧ joined = Function.update row join.table.aliasName nulls := by
  simp only [extend, hkind, List.mem_flatMap]
  refine exists_congr fun row => and_congr_right fun _ => ?_
  unfold orNulls
  cases hpartners : partners db join source row with
  | nil => simp
  | cons first rest => simp

/-- A left join loses no row, and changes nothing but what it joins. -/
theorem exists_extend_left {P : JoinedRow δ → Prop} (hkind : join.kind = .left)
    (hP : ∀ row tuple, P (Function.update row join.table.aliasName tuple) ↔ P row) :
    (∃ row ∈ extend db rows join source, P row) ↔ ∃ row ∈ rows, P row := by
  constructor
  · rintro ⟨joined, hjoined, h⟩
    rcases (mem_extend_left hkind).mp hjoined with ⟨row, hrow, hpartner | ⟨-, rfl⟩⟩
    · rcases mem_partners.mp hpartner with ⟨tuple, -, rfl, -⟩
      exact ⟨row, hrow, (hP row tuple).mp h⟩
    · exact ⟨row, hrow, (hP row nulls).mp h⟩
  · rintro ⟨row, hrow, h⟩
    -- a row without partners stays, beside nulls
    cases hpartners : partners db join source row with
    | nil =>
      refine ⟨_, (mem_extend_left hkind).mpr ⟨row, hrow, .inr ⟨hpartners, rfl⟩⟩, ?_⟩
      exact (hP row nulls).mpr h
    | cons first rest =>
      have hfirst : first ∈ partners db join source row := by simp [hpartners]
      rcases mem_partners.mp hfirst with ⟨tuple, -, rfl, -⟩
      exact ⟨_, (mem_extend_left hkind).mpr ⟨row, hrow, .inl hfirst⟩, (hP row tuple).mpr h⟩

/-- What a left join finds, apart from nulls, are the rows that meet its condition. -/
theorem exists_extend_left_found {P : JoinedRow δ → Prop} (hkind : join.kind = .left)
    (hnulls : ∀ row, ¬ P (Function.update row join.table.aliasName nulls)) :
    (∃ row ∈ extend db rows join source, P row)
      ↔ ∃ row ∈ rows, ∃ tuple ∈ source.rows,
        meets db join.on (Function.update row join.table.aliasName tuple) = true
        ∧ P (Function.update row join.table.aliasName tuple) := by
  constructor
  · rintro ⟨joined, hjoined, h⟩
    rcases (mem_extend_left hkind).mp hjoined with ⟨row, hrow, hpartner | ⟨-, rfl⟩⟩
    · rcases mem_partners.mp hpartner with ⟨tuple, htuple, rfl, hmeets⟩
      exact ⟨row, hrow, tuple, htuple, hmeets, h⟩
    · exact absurd h (hnulls row)
  · rintro ⟨row, hrow, tuple, htuple, hmeets, h⟩
    refine ⟨_, (mem_extend_left hkind).mpr ⟨row, hrow, .inl ?_⟩, h⟩
    exact mem_partners.mpr ⟨tuple, htuple, rfl, hmeets⟩

/-- A left join by one column finds the rows with the same datum. -/
theorem exists_extend_left_on {P : JoinedRow δ → Prop} {B : Tuple δ → Prop} {table : TableRef}
    {column start other : String} (hB : ¬ B nulls) (hapart : start ≠ table.aliasName)
    (hP : ∀ row tuple, P (Function.update row table.aliasName tuple) ↔ P row) :
    (∃ row ∈ extend db rows (.stored .left table
          [(⟨table.aliasName, column⟩, .column ⟨start, other⟩)]) source,
        P row ∧ B (row table.aliasName))
      ↔ ∃ row ∈ rows, P row ∧ ∃ tuple ∈ source.rows, B tuple
        ∧ (tuple column).Same (row start other) := by
  rw [exists_extend_left_found rfl fun row => by simp [Join.stored, hB]]
  simp only [Join.stored, meets_update hapart, hP, Function.update_self]
  constructor
  · rintro ⟨row, hrow, tuple, htuple, hsame, h, hb⟩
    exact ⟨row, hrow, h, tuple, htuple, hb, hsame⟩
  · rintro ⟨row, hrow, h, tuple, htuple, hb, hsame⟩
    exact ⟨row, hrow, tuple, htuple, hsame, h, hb⟩

/-- An inner join by one column keeps the rows that have a row with the same datum. -/
theorem exists_extend_inner_on {P : JoinedRow δ → Prop} {column start other : String}
    (hkind : join.kind = .inner)
    (hon : join.on = [(⟨join.table.aliasName, column⟩, .column ⟨start, other⟩)])
    (hapart : start ≠ join.table.aliasName)
    (hP : ∀ row tuple, P (Function.update row join.table.aliasName tuple) ↔ P row) :
    (∃ row ∈ extend db rows join source, P row)
      ↔ ∃ row ∈ rows, P row ∧ ∃ tuple ∈ source.rows, (tuple column).Same (row start other) := by
  constructor
  · rintro ⟨joined, hjoined, h⟩
    rcases (mem_extend_inner hkind).mp hjoined with ⟨row, hrow, tuple, htuple, rfl, hmeets⟩
    rw [hon, meets_update hapart] at hmeets
    exact ⟨row, hrow, (hP row tuple).mp h, tuple, htuple, hmeets⟩
  · rintro ⟨row, hrow, h, tuple, htuple, hsame⟩
    refine ⟨_, (mem_extend_inner hkind).mpr ⟨row, hrow, tuple, htuple, rfl, ?_⟩,
      (hP row tuple).mpr h⟩
    rw [hon, meets_update hapart]
    exact hsame

omit [LinearOrder δ] in
/-- The first column that an answer returns, in the answer as a table. -/
theorem Answer.exists_table {answer : Answer δ} {column : String} {ref : ColumnRef}
    {outputs : List (String × ColumnRef)} (h : answer.outputs = (column, ref) :: outputs)
    {Q : Cell δ → Prop} :
    (∃ tuple ∈ answer.table.rows, Q (tuple column)) ↔ ∃ row ∈ answer.rows, Q (ref.cell row) := by
  simp [Answer.table, h]

omit [LinearOrder δ] in
/-- The rows of a table under its alias. -/
theorem exists_tableRows {table : TableRef} {Q : Tuple δ → Prop} :
    (∃ row ∈ tableRows db table, Q (row table.aliasName))
      ↔ ∃ tuple ∈ (db.table table.table).rows, Q tuple := by
  simp [tableRows]

/-- Rows, joined with stored tables. -/
def extendStored (db : Database δ) (rows : List (JoinedRow δ)) (joins : List (Join Select)) :
    List (JoinedRow δ) :=
  extendAll db rows (joins.map fun join => (join, db.table join.table.table))

theorem extendStored_append (rows : List (JoinedRow δ)) (joins others : List (Join Select)) :
    extendStored db rows (joins ++ others)
      = extendStored db (extendStored db rows joins) others := by
  simp [extendStored, extendAll]

/-- Left joins lose no row, and change nothing but what they join. -/
theorem exists_extendStored {P : JoinedRow δ → Prop} {joins : List (Join Select)}
    (hkind : ∀ join ∈ joins, join.kind = .left)
    (hP : ∀ join ∈ joins, ∀ row tuple,
      P (Function.update row join.table.aliasName tuple) ↔ P row) :
    (∃ row ∈ extendStored db rows joins, P row) ↔ ∃ row ∈ rows, P row := by
  induction joins generalizing rows with
  | nil => rfl
  | cons join joins ih =>
    show (∃ row ∈ extendStored db (extend db rows join _) joins, P row) ↔ _
    rw [ih (fun other hother => hkind other (List.mem_cons_of_mem _ hother))
      fun other hother => hP other (List.mem_cons_of_mem _ hother)]
    exact exists_extend_left (hkind join List.mem_cons_self) (hP join List.mem_cons_self)

/-- Unless it is a right join, a join leaves the rows of the other tables as they are. -/
theorem exists_of_mem_extend {aliasName : String} (hkind : join.kind ≠ .right)
    (hapart : aliasName ≠ join.table.aliasName) {joined : JoinedRow δ}
    (h : joined ∈ extend db rows join source) : ∃ row ∈ rows, joined aliasName = row aliasName := by
  cases hcase : join.kind with
  | inner =>
    rcases (mem_extend_inner hcase).mp h with ⟨row, hrow, tuple, -, rfl, -⟩
    exact ⟨row, hrow, Function.update_of_ne hapart _ _⟩
  | left =>
    rcases (mem_extend_left hcase).mp h with ⟨row, hrow, hpartner | ⟨-, rfl⟩⟩
    · rcases mem_partners.mp hpartner with ⟨tuple, -, rfl, -⟩
      exact ⟨row, hrow, Function.update_of_ne hapart _ _⟩
    · exact ⟨row, hrow, Function.update_of_ne hapart _ _⟩
  | right => exact absurd hcase hkind

theorem exists_of_mem_extendAll {aliasName : String} {joins : List (Join Select × Table δ)}
    (hjoins : ∀ pair ∈ joins, pair.1.kind ≠ .right ∧ aliasName ≠ pair.1.table.aliasName)
    {joined : JoinedRow δ} (h : joined ∈ extendAll db rows joins) :
    ∃ row ∈ rows, joined aliasName = row aliasName := by
  -- the rows that the first join makes are those that the others start from
  induction joins generalizing rows with
  | nil => exact ⟨joined, h, rfl⟩
  | cons pair joins ih =>
    rcases ih (fun other hother => hjoins other (List.mem_cons_of_mem _ hother)) h with
      ⟨middle, hmiddle, hsame⟩
    rcases hjoins pair List.mem_cons_self with ⟨hkind, hapart⟩
    rcases exists_of_mem_extend hkind hapart hmiddle with ⟨row, hrow, hfirst⟩
    exact ⟨row, hrow, hsame.trans hfirst⟩

/-- Without right joins, the rows of a select have rows of its first table. -/
theorem Select.mem_table_of_mem_matching {s : Select} {sources : List (Table δ)}
    (haliases : (s.tables.map (·.aliasName)).Nodup) (hkind : ∀ join ∈ s.joins, join.kind ≠ .right)
    {row : JoinedRow δ} (h : row ∈ s.matching db sources) :
    row s.table.aliasName ∈ (db.table s.table.table).rows := by
  have hjoined := (List.mem_filter.mp h).1
  have hapart (join : Join Select) (hjoin : join ∈ s.joins) :
      s.table.aliasName ≠ join.table.aliasName := by
    have hfirst := (List.nodup_cons.mp haliases).1
    intro hsame
    exact hfirst (List.mem_map.mpr ⟨join.table, List.mem_map.mpr ⟨join, hjoin, rfl⟩, hsame.symm⟩)
  have hpairs (pair : Join Select × Table δ) (hpair : pair ∈ s.joins.zip sources) :
      pair.1.kind ≠ .right ∧ s.table.aliasName ≠ pair.1.table.aliasName := by
    have hjoin := (List.of_mem_zip hpair).1
    exact ⟨hkind _ hjoin, hapart _ hjoin⟩
  rcases exists_of_mem_extendAll hpairs hjoined with ⟨first, hfirst, hsame⟩
  rcases List.mem_map.mp hfirst with ⟨tuple, htuple, rfl⟩
  rwa [hsame, Function.update_self]

end RecordMapping.Sql
