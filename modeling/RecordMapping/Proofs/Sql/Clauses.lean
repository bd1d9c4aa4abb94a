import RecordMapping.Proofs.Result
import RecordMapping.Sql.Columns
import RecordMapping.Sql.Text

/-!
# The clauses of a statement

How a select that went well was written, clause by clause, and what becomes of its clauses when its
columns take the names under which they are stored. `SelectsWhere` and `SelectsAround` tell where
the `WHERE` clause of a select stands: in the select itself, or in a derived table that it joins
first.
-/

namespace RecordMapping.Sql

open Piece

/-! ## Writing -/

/-- The text of some pieces. -/
def textOf (ps : List Piece) : String := (Statement.ofPieces ps).sql

@[simp] theorem textOf_nil : textOf [] = "" := rfl

@[simp] theorem textOf_cons (p : Piece) (ps : List Piece) :
    textOf (p :: ps) = p.text ++ textOf ps := by
  apply String.toList_injective
  simp [textOf, Statement.ofPieces, String.toList_join]

@[simp] theorem textOf_append (ps qs : List Piece) :
    textOf (ps ++ qs) = textOf ps ++ textOf qs := by
  apply String.toList_injective
  simp [textOf, Statement.ofPieces, String.toList_join]

/-- Conjuncts that are written for comparisons, one for each and in the same order. -/
def Conjuncts (predicates : List Predicate) (conjuncts : List (List Piece)) : Prop :=
  List.Forall₂ (fun p conjunct => p.pieces = .ok conjunct) predicates conjuncts

/-- Comparisons are written in one way only. -/
theorem Conjuncts.unique {predicates : List Predicate} {conjuncts others : List (List Piece)}
    (h : Conjuncts predicates conjuncts) (hothers : Conjuncts predicates others) :
    conjuncts = others :=
  Except.ok.inj ((mapM_eq_ok.mpr h).symm.trans (mapM_eq_ok.mpr hothers))

theorem wherePieces_eq_ok {predicates : List Predicate} {ps : List Piece} :
    wherePieces predicates = .ok ps
      ↔ ∃ conjuncts, Conjuncts predicates conjuncts ∧ ps = clause " WHERE " " AND " conjuncts := by
  unfold wherePieces
  rw [bind_eq_ok]
  constructor
  · intro h
    obtain ⟨conjuncts, hconjuncts, h⟩ := h
    exact ⟨conjuncts, mapM_eq_ok.mp hconjuncts, (Except.ok.inj h).symm⟩
  · intro h
    obtain ⟨conjuncts, hconjuncts, rfl⟩ := h
    exact ⟨conjuncts, mapM_eq_ok.mpr hconjuncts, rfl⟩

/-- A select as it is written, with given joins and given conjuncts of its `WHERE` clause. -/
def Select.written (s : Select) (joined : List Piece) (conjuncts : List (List Piece)) :
    List Piece :=
  headPieces s.distinct s.table s.items joined ++ clause " WHERE " " AND " conjuncts
    ++ tailPieces s.groupBy s.order s.limit? s.offset?

/-- A select is written with its joins and its comparisons. -/
theorem Select.pieces_eq_ok {s : Select} {ps : List Piece} :
    s.pieces = .ok ps
      ↔ ∃ joined conjuncts, joinPieces s.joins = .ok joined ∧ Conjuncts s.predicates conjuncts
        ∧ ps = s.written joined conjuncts := by
  obtain ⟨distinct, table, items, joins, predicates, groupBy, order, limit?, offset?⟩ := s
  rw [Select.pieces, bind_eq_ok]
  constructor
  · intro h
    obtain ⟨joined, hjoined, h⟩ := h
    obtain ⟨conditions, hconditions, h⟩ := bind_eq_ok.mp h
    obtain ⟨conjuncts, hconjuncts, rfl⟩ := wherePieces_eq_ok.mp hconditions
    exact ⟨joined, conjuncts, hjoined, hconjuncts, (Except.ok.inj h).symm⟩
  · intro h
    obtain ⟨joined, conjuncts, hjoined, hconjuncts, rfl⟩ := h
    exact ⟨joined, hjoined, bind_eq_ok.mpr ⟨_, wherePieces_eq_ok.mpr ⟨_, hconjuncts, rfl⟩, rfl⟩⟩

theorem Tree.statement_eq_ok {tree : Tree} {st : Statement} :
    tree.statement = .ok st ↔ ∃ pieces, tree.pieces = .ok pieces ∧ st = .ofPieces pieces := by
  unfold Tree.statement
  rw [bind_eq_ok]
  constructor
  · intro h
    obtain ⟨pieces, hpieces, h⟩ := h
    exact ⟨pieces, hpieces, (Except.ok.inj h).symm⟩
  · intro h
    obtain ⟨pieces, hpieces, rfl⟩ := h
    exact ⟨pieces, hpieces, rfl⟩

/-- The first join as it is written, when it is of a derived table with the given pieces. -/
def derivedJoin (join : Join Select) (derived : List Piece) : List Piece :=
  word (" " ++ join.kind.sql ++ " ") :: (word "(" :: derived
      ++ [word ") AS ", name join.table.aliasName])
    ++ word " ON " :: separated " AND " (join.on.map onPieces)

/-- Joins that begin with one of a derived table. -/
theorem joinPieces_derived {join : Join Select} {s : Select} {rest : List (Join Select)}
    {ps : List Piece} (hderived : join.derived? = some s) (h : joinPieces (join :: rest) = .ok ps) :
    ∃ derived others, s.pieces = .ok derived ∧ joinPieces rest = .ok others
      ∧ ps = derivedJoin join derived ++ others := by
  obtain ⟨kind, table, derived?, on⟩ := join
  subst hderived
  obtain ⟨source, hsource, h⟩ := bind_eq_ok.mp h
  obtain ⟨others, hothers, h⟩ := bind_eq_ok.mp h
  obtain ⟨derived, hs, hsource⟩ := bind_eq_ok.mp hsource
  refine ⟨derived, others, hs, hothers, ?_⟩
  rw [← Except.ok.inj h, ← Except.ok.inj hsource]
  simp only [derivedJoin, List.cons_append, List.append_assoc]

/-! ## Storage columns -/

/-- Joins of stored tables, none of a derived table. -/
def JoinsTables (joins : List (Join Select)) : Prop := ∀ join ∈ joins, join.derived? = none

theorem joinsTables_nil : JoinsTables [] := fun _ hjoin => absurd hjoin List.not_mem_nil

theorem joinsTables_append {joins others : List (Join Select)} (hjoins : JoinsTables joins)
    (hothers : JoinsTables others) : JoinsTables (joins ++ others) :=
  List.forall_mem_append.mpr ⟨hjoins, hothers⟩

/-- A join whose columns take their storage names. -/
def Join.withStorage (schema : Schema) (tables : List TableRef) (join : Join Select) :
    Join Select :=
  { join with
    derived? := storedDerived schema join.derived?
    on := storedOn schema tables join.on }

variable {schema : Schema}

/-- A column stays one of its table under its storage name. -/
theorem ColumnRef.table_stored (tables : List TableRef) (ref : ColumnRef) :
    (ref.stored schema tables).table = ref.table := by
  unfold ColumnRef.stored
  split <;> rfl

theorem storedJoins_eq_map (tables : List TableRef) (joins : List (Join Select)) :
    storedJoins schema tables joins = joins.map (Join.withStorage schema tables) := by
  induction joins with
  | nil => rfl
  | cons join joins ih =>
    rw [storedJoins, ih]
    rfl

/-- Storage names leave the tables of joins as they are. -/
theorem storedJoins_tables (tables : List TableRef) (joins : List (Join Select)) :
    (storedJoins schema tables joins).map (·.table) = joins.map (·.table) := by
  rw [storedJoins_eq_map, List.map_map]
  rfl

theorem joinsTables_storedJoins (tables : List TableRef) {joins : List (Join Select)}
    (hjoins : JoinsTables joins) : JoinsTables (storedJoins schema tables joins) := by
  intro join hjoin
  rw [storedJoins_eq_map] at hjoin
  obtain ⟨source, hsource, rfl⟩ := List.mem_map.mp hjoin
  have hderived := hjoins source hsource
  unfold Join.withStorage
  rw [hderived]
  rfl

/-- Every clause of a select takes its storage names among the tables of the select. -/
theorem Select.stored_eq (s : Select) :
    s.stored schema = { s with
      items := s.items.map (·.stored schema s.tables)
      joins := storedJoins schema s.tables s.joins
      predicates := s.predicates.map (·.stored schema s.tables)
      groupBy := s.groupBy.map (·.stored schema s.tables)
      order := s.order.map (·.stored schema s.tables) } := by
  obtain ⟨distinct, table, items, joins, predicates, groupBy, order, limit?, offset?⟩ := s
  rw [Select.stored]
  rfl

theorem Select.stored_distinct (s : Select) : (s.stored schema).distinct = s.distinct := by
  rw [Select.stored_eq]

theorem Select.stored_table (s : Select) : (s.stored schema).table = s.table := by
  rw [Select.stored_eq]

theorem Select.stored_joins (s : Select) :
    (s.stored schema).joins = storedJoins schema s.tables s.joins := by
  rw [Select.stored_eq]

theorem Select.stored_predicates (s : Select) :
    (s.stored schema).predicates = s.predicates.map (·.stored schema s.tables) := by
  rw [Select.stored_eq]

/-- Storage names leave the tables of a select as they are. -/
theorem Select.stored_tables (s : Select) : (s.stored schema).tables = s.tables := by
  rw [Select.stored_eq, Select.tables, storedJoins_tables]
  rfl

theorem Select.joinsTables_stored {s : Select} (h : JoinsTables s.joins) :
    JoinsTables (s.stored schema).joins := by
  rw [Select.stored_joins]
  exact joinsTables_storedJoins s.tables h

/-! ## What can be written -/

/-- A comparison for equality with a value; equality with null is a test for null. -/
theorem equal_pieces (column : ColumnRef) (v : Value) :
    Predicate.pieces ⟨column, .equal, some v, []⟩
      = .ok (column.pieces ++ if v.isNull then [word " IS NULL"] else [word " = ", param v]) := by
  cases v <;> rfl

/-- Comparisons that can be written one by one can be written together. -/
theorem exists_conjuncts {predicates : List Predicate}
    (h : ∀ p ∈ predicates, ∃ ps, p.pieces = .ok ps) :
    ∃ conjuncts, Conjuncts predicates conjuncts := by
  induction predicates with
  | nil => exact ⟨[], .nil⟩
  | cons p predicates ih =>
    obtain ⟨conjunct, hconjunct⟩ := h p List.mem_cons_self
    obtain ⟨conjuncts, hconjuncts⟩ := ih fun q hq => h q (List.mem_cons_of_mem p hq)
    exact ⟨conjunct :: conjuncts, .cons hconjunct hconjuncts⟩

/-- Joins of stored tables can be written. -/
theorem exists_joinPieces {joins : List (Join Select)} (h : JoinsTables joins) :
    ∃ ps, joinPieces joins = .ok ps := by
  induction joins with
  | nil => exact ⟨[], rfl⟩
  | cons join joins ih =>
    obtain ⟨others, hothers⟩ := ih fun other hother => h other (List.mem_cons_of_mem join hother)
    obtain ⟨kind, table, derived?, on⟩ := join
    obtain rfl : derived? = none := h _ List.mem_cons_self
    exact ⟨_, bind_eq_ok.mpr ⟨table.pieces, rfl, bind_eq_ok.mpr ⟨others, hothers, rfl⟩⟩⟩

/-- A select of stored tables whose comparisons can be written has a statement. -/
theorem exists_statement {s : Select} (hjoins : JoinsTables s.joins)
    (hpredicates : ∀ p ∈ s.predicates, ∃ ps, (p.stored schema s.tables).pieces = .ok ps) :
    ∃ st, ((Tree.select s).stored schema).statement = .ok st := by
  obtain ⟨joined, hjoined⟩ := exists_joinPieces (@Select.joinsTables_stored schema s hjoins)
  obtain ⟨conjuncts, hconjuncts⟩ :
      ∃ conjuncts, Conjuncts (s.stored schema).predicates conjuncts := by
    refine exists_conjuncts fun p hp => ?_
    rw [Select.stored_predicates] at hp
    obtain ⟨q, hq, rfl⟩ := List.mem_map.mp hp
    exact hpredicates q hq
  exact ⟨_, Tree.statement_eq_ok.mpr
    ⟨_, Select.pieces_eq_ok.mpr ⟨joined, conjuncts, hjoined, hconjuncts, rfl⟩, rfl⟩⟩

/-! ## Where conditions stand -/

/-- A select of stored tables, written with the given conjuncts in its `WHERE` clause. -/
def SelectsWhere (tables : List TableRef) (conjuncts : List (List Piece)) (ps : List Piece) :
    Prop :=
  ∃ s joined, Select.tables s = tables ∧ JoinsTables s.joins ∧ joinPieces s.joins = .ok joined
    ∧ ps = s.written joined conjuncts

/-- A select without a `WHERE` clause, written around a derived table of the given pieces. What else
it joins are stored tables. -/
def SelectsAround (derived ps : List Piece) : Prop :=
  ∃ s join rest others, Select.joins s = join :: rest ∧ JoinsTables rest
    ∧ joinPieces rest = .ok others ∧ ps = s.written (derivedJoin join derived ++ others) []

/-- A select of stored tables has its conjuncts in its own `WHERE` clause. -/
theorem selectsWhere_of_pieces {s : Select} {ps : List Piece} (hjoins : JoinsTables s.joins)
    (h : (s.stored schema).pieces = .ok ps) :
    ∃ conjuncts, Conjuncts (s.predicates.map (·.stored schema s.tables)) conjuncts
      ∧ SelectsWhere s.tables conjuncts ps := by
  obtain ⟨joined, conjuncts, hjoined, hconjuncts, rfl⟩ := Select.pieces_eq_ok.mp h
  rw [Select.stored_predicates] at hconjuncts
  exact ⟨conjuncts, hconjuncts, s.stored schema, joined, s.stored_tables,
    Select.joinsTables_stored hjoins, hjoined, rfl⟩

/-- A select without conditions that joins another one first is written around it. -/
theorem selectsAround_of_pieces {s inner : Select} {join : Join Select} {rest : List (Join Select)}
    {ps : List Piece} (hjoins : s.joins = join :: rest) (hderived : join.derived? = some inner)
    (hrest : JoinsTables rest) (hpredicates : s.predicates = [])
    (h : (s.stored schema).pieces = .ok ps) :
    ∃ derived, (inner.stored schema).pieces = .ok derived ∧ SelectsAround derived ps := by
  obtain ⟨joined, conjuncts, hjoined, hconjuncts, rfl⟩ := Select.pieces_eq_ok.mp h
  -- nothing is compared, so the clause is left out
  have hnone : conjuncts = [] := by
    rw [Select.stored_predicates, hpredicates] at hconjuncts
    exact List.forall₂_nil_left_iff.mp hconjuncts
  have hstored : (s.stored schema).joins
      = join.withStorage schema s.tables :: storedJoins schema s.tables rest := by
    rw [Select.stored_joins, hjoins, storedJoins_eq_map, storedJoins_eq_map, List.map_cons]
  have hinner : (join.withStorage schema s.tables).derived? = some (inner.stored schema) := by
    unfold Join.withStorage
    rw [hderived, storedDerived]
  rw [hstored] at hjoined
  obtain ⟨derived, others, hderived, hothers, rfl⟩ := joinPieces_derived hinner hjoined
  refine ⟨derived, hderived, s.stored schema, _, _, others, hstored,
    joinsTables_storedJoins s.tables hrest, hothers, ?_⟩
  rw [hnone]

end RecordMapping.Sql
