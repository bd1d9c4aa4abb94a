import RecordMapping.Proofs.Result
import RecordMapping.Proofs.Sql.Clauses
import RecordMapping.Proofs.Sql.Slots

/-!
# What values do not show

The values of a statement are bound. All that its text can tell of them is how many there are, and
where a column is compared with null. The outline of a tree keeps just that: every value is blotted
out, and what is compared as null is null.

* `Tree.outline_stored`: the columns of a tree take the same storage names as those of its outline;
* `Tree.pieces_outline`: an outline is written with the same words and names as its tree;
* `Tree.face_stored_congr`: so trees with the same outline have the same text and equally many
  parameters, or the same error.
-/

namespace RecordMapping.Sql

open Piece

/-! ## Blots -/

/-- What stands for any value that was blotted out. It is not null. -/
def blot : Value := .bool true

/-- A piece without its value. -/
def Piece.outline : Piece → Piece
  | word text => word text
  | name identifier => name identifier
  | param _ => param blot

/-- A comparison without its values; whether it is a test for null remains. -/
def Predicate.outline (p : Predicate) : Predicate :=
  { p with
    value? := p.value?.map fun _ => if p.isNullTest then .null else blot
    values := p.values.map fun _ => blot }

/-- An operand without its value. -/
def Operand.outline : Operand → Operand
  | column ref => column ref
  | value _ => value blot

/-- The condition of a join without its values. -/
def outlineOn (on : List (ColumnRef × Operand)) : List (ColumnRef × Operand) :=
  on.map fun (ref, operand) => (ref, operand.outline)

mutual

/-- A select without its values. -/
def Select.outline : Select → Select
  | ⟨distinct, table, items, joins, predicates, groupBy, order, limit?, offset?⟩ =>
    ⟨distinct, table, items, outlineJoins joins, predicates.map Predicate.outline, groupBy, order,
      limit?, offset?⟩

/-- Joins without their values. -/
def outlineJoins : List (Join Select) → List (Join Select)
  | [] => []
  | ⟨kind, table, derived?, on⟩ :: rest =>
    ⟨kind, table, outlineDerived derived?, outlineOn on⟩ :: outlineJoins rest

/-- A derived table without its values. -/
def outlineDerived : Option Select → Option Select
  | none => none
  | some s => some s.outline

end

/-- In a select only the joins and the comparisons have values. -/
theorem Select.outline_eq (s : Select) : s.outline = { s with
    joins := outlineJoins s.joins
    predicates := s.predicates.map Predicate.outline } := by
  obtain ⟨distinct, table, items, joins, predicates, groupBy, order, limit?, offset?⟩ := s
  rw [Select.outline]

/-- Written names without their values. -/
def outlineValues (values : List (String × Value)) : List (String × Value) :=
  values.map fun (column, _) => (column, blot)

/-- A statement without its values. -/
def Tree.outline : Tree → Tree
  | select s => select s.outline
  | insert table values => insert table (outlineValues values)
  | update table values predicates =>
    update table (outlineValues values) (predicates.map Predicate.outline)
  | delete table predicates => delete table (predicates.map Predicate.outline)

/-! ## Storage columns -/

variable {schema : Schema}

theorem Operand.outline_stored (tables : List TableRef) (operand : Operand) :
    (operand.stored schema tables).outline = operand.outline.stored schema tables := by
  cases operand <;> rfl

theorem outlineOn_stored (tables : List TableRef) (on : List (ColumnRef × Operand)) :
    outlineOn (storedOn schema tables on) = storedOn schema tables (outlineOn on) := by
  unfold outlineOn storedOn
  rw [List.map_map, List.map_map]
  refine List.map_congr_left fun pair _ => ?_
  exact congrArg (Prod.mk _) (pair.2.outline_stored tables)

theorem Predicate.outline_stored (tables : List TableRef) (predicates : List Predicate) :
    (predicates.map (·.stored schema tables)).map Predicate.outline
      = (predicates.map Predicate.outline).map (·.stored schema tables) := by
  rw [List.map_map, List.map_map]
  rfl

theorem outlineJoins_tables (joins : List (Join Select)) :
    (outlineJoins joins).map (·.table) = joins.map (·.table) := by
  induction joins with
  | nil => rfl
  | cons join joins ih => rw [outlineJoins, List.map_cons, ih, List.map_cons]

mutual

/-- A select takes the same storage columns as its outline, at any depth of derived tables. -/
theorem Select.outline_stored : ∀ s : Select,
    (s.stored schema).outline = s.outline.stored schema
  | ⟨distinct, table, items, joins, predicates, groupBy, order, limit?, offset?⟩ => by
    rw [Select.stored, Select.outline, Select.outline, Select.stored, outlineJoins_tables,
      outlineJoins_stored _ joins, Predicate.outline_stored]

theorem outlineJoins_stored (tables : List TableRef) : ∀ joins : List (Join Select),
    outlineJoins (storedJoins schema tables joins) = storedJoins schema tables (outlineJoins joins)
  | [] => rfl
  | ⟨kind, table, derived?, on⟩ :: rest => by
    rw [storedJoins, outlineJoins, outlineJoins, storedJoins, outlineDerived_stored derived?,
      outlineOn_stored, outlineJoins_stored tables rest]

theorem outlineDerived_stored : ∀ derived? : Option Select,
    outlineDerived (storedDerived schema derived?) = storedDerived schema (outlineDerived derived?)
  | none => rfl
  | some s => by
    rw [storedDerived, outlineDerived, outlineDerived, storedDerived, s.outline_stored]

end

theorem outlineValues_stored (table : TableRef) (values : List (String × Value)) :
    outlineValues (storedValues schema table values)
      = storedValues schema table (outlineValues values) := by
  unfold storedValues outlineValues
  cases modelOf? schema [table] table.aliasName with
  | none => rfl
  | some model =>
    dsimp only
    rw [List.map_map, List.map_map]
    rfl

/-- A statement takes the same storage columns as its outline. -/
theorem Tree.outline_stored (tree : Tree) :
    (tree.stored schema).outline = tree.outline.stored schema := by
  cases tree with
  | select s => exact congrArg select s.outline_stored
  | insert table values => exact congrArg (insert table) (outlineValues_stored table values)
  | update table values predicates =>
    exact congrArg₂ (update table) (outlineValues_stored table values)
      (Predicate.outline_stored [table] predicates)
  | delete table predicates =>
    exact congrArg (delete table) (Predicate.outline_stored [table] predicates)

/-! ## Writing -/

@[simp] theorem outline_columnRef (ref : ColumnRef) :
    ref.pieces.map Piece.outline = ref.pieces := rfl

@[simp] theorem outline_tableRef (t : TableRef) : t.pieces.map Piece.outline = t.pieces := by
  unfold TableRef.pieces
  split <;> rfl

theorem outline_item (item : SelectItem) : item.pieces.map Piece.outline = item.pieces := by
  cases item with
  | all aliasName => rfl
  | column ref output => cases output <;> rfl
  | countDistinct ref output => rfl

theorem outline_separated (separator : String) (parts : List (List Piece)) :
    (separated separator parts).map Piece.outline
      = separated separator (parts.map (List.map Piece.outline)) := by
  unfold separated
  induction parts with
  | nil => rfl
  | cons part parts ih =>
    cases parts with
    | nil => simp
    | cons next parts =>
      rw [List.map_cons] at ih
      rw [List.intercalate_cons_cons, List.map_append, List.map_append, ih, List.map_cons,
        List.map_cons, List.map_nil, List.map_cons (l := parts), List.intercalate_cons_cons]
      rfl

theorem outline_clause (start separator : String) (parts : List (List Piece)) :
    (clause start separator parts).map Piece.outline
      = clause start separator (parts.map (List.map Piece.outline)) := by
  cases parts with
  | nil => rfl
  | cons part parts => exact congrArg (word start :: ·) (outline_separated separator _)

/-- A list of parts that bind no values is its own outline. -/
theorem outline_parts {α : Type} {f : α → List Piece} (h : ∀ x, (f x).map Piece.outline = f x)
    (xs : List α) : (xs.map f).map (List.map Piece.outline) = xs.map f := by
  rw [List.map_map]
  exact List.map_congr_left fun x _ => h x

theorem outline_itemPieces (table : TableRef) (items : List SelectItem) :
    (itemPieces table items).map Piece.outline = itemPieces table items := by
  cases items with
  | nil => rfl
  | cons item items =>
    exact (outline_separated ", " _).trans (congrArg _ (outline_parts outline_item _))

theorem outline_pagePieces (limit? offset? : Option Int64) :
    (pagePieces limit? offset?).map Piece.outline = pagePieces limit? offset? := by
  cases limit? <;> cases offset? <;> rfl

theorem outline_onPieces (on : List (ColumnRef × Operand)) :
    (on.map onPieces).map (List.map Piece.outline) = (outlineOn on).map onPieces := by
  unfold outlineOn
  rw [List.map_map, List.map_map]
  refine List.map_congr_left fun pair _ => ?_
  obtain ⟨ref, operand⟩ := pair
  cases operand <;> rfl

namespace Predicate

theorem isNullTest_outline (p : Predicate) : p.outline.isNullTest = p.isNullTest := by
  obtain ⟨ref, op, value?, values⟩ := p
  cases value? with
  | none => rfl
  | some v =>
    show (op.isUnary || ((op == .equal || op == .notEqual)
      && (if op.isUnary || ((op == .equal || op == .notEqual) && v.isNull) then Value.null
        else blot).isNull)) = (op.isUnary || ((op == .equal || op == .notEqual) && v.isNull))
    cases op.isUnary <;> cases op == .equal || op == .notEqual <;> cases v.isNull <;> rfl

/-- The outline of a comparison is written like the comparison. -/
theorem pieces_outline (p : Predicate) :
    p.outline.pieces = List.map Piece.outline <$> p.pieces := by
  by_cases hnull : p.isNullTest = true
  · -- a test for null has no operand
    rw [pieces_of_isNullTest hnull, pieces_of_isNullTest (p.isNullTest_outline.trans hnull)]
    rfl
  · rw [Bool.not_eq_true] at hnull
    have hnull' := p.isNullTest_outline.trans hnull
    by_cases hlist : p.op.takesList = true
    · have hempty : p.outline.values.isEmpty = p.values.isEmpty := List.isEmpty_map
      rw [pieces_of_takesList hlist, pieces_of_takesList (p := p.outline) hlist, hempty]
      refine congrArg Except.ok ?_
      split
      · rfl
      · show _ = List.map Piece.outline _
        rw [List.map_append, List.map_append, List.map_cons, outline_separated, List.map_map]
        simp [outline, Function.comp_def, Piece.outline]
    · rw [Bool.not_eq_true] at hlist
      rw [pieces_of_compares hnull hlist, pieces_of_compares hnull' hlist]
      cases hvalue : p.value? with
      | none =>
        have hvalue' : p.outline.value? = none := by rw [outline, hvalue, Option.map_none]
        rw [hvalue']
        rfl
      | some v =>
        have hvalue' : p.outline.value? = some blot := by
          rw [outline, hvalue, Option.map_some, if_neg (by simp [hnull])]
        rw [hvalue']
        rfl

end Predicate

theorem wherePieces_outline (predicates : List Predicate) :
    wherePieces (predicates.map Predicate.outline)
      = List.map Piece.outline <$> wherePieces predicates := by
  unfold wherePieces
  rw [mapM_map_eq Predicate.pieces_outline]
  cases predicates.mapM Predicate.pieces with
  | error e => rfl
  | ok conjuncts => exact congrArg Except.ok (outline_clause _ _ conjuncts).symm

theorem outline_headPieces (distinct : Bool) (table : TableRef) (items : List SelectItem)
    (joined : List Piece) : (headPieces distinct table items joined).map Piece.outline
      = headPieces distinct table items (joined.map Piece.outline) := by
  unfold headPieces
  simp [outline_itemPieces, Piece.outline]

theorem outline_tailPieces (groupBy : List ColumnRef) (order : List OrderTerm)
    (limit? offset? : Option Int64) :
    (tailPieces groupBy order limit? offset?).map Piece.outline
      = tailPieces groupBy order limit? offset? := by
  unfold tailPieces
  rw [List.map_append, List.map_append, outline_clause, outline_clause, outline_pagePieces,
    outline_parts outline_columnRef, outline_parts fun _ => rfl]

mutual

/-- The outline of a select is written like the select, at any depth of derived tables. -/
theorem Select.pieces_outline : ∀ s : Select,
    s.outline.pieces = List.map Piece.outline <$> s.pieces
  | ⟨distinct, table, items, joins, predicates, groupBy, order, limit?, offset?⟩ => by
    rw [Select.outline, Select.pieces, Select.pieces, joinPieces_outline joins,
      wherePieces_outline]
    cases joinPieces joins with
    | error e => rfl
    | ok joined =>
      cases wherePieces predicates with
      | error e => rfl
      | ok conditions =>
        refine congrArg Except.ok ?_
        rw [List.map_append, List.map_append, outline_headPieces, outline_tailPieces]

theorem joinPieces_outline : ∀ joins : List (Join Select),
    joinPieces (outlineJoins joins) = List.map Piece.outline <$> joinPieces joins
  | [] => rfl
  | ⟨kind, table, derived?, on⟩ :: rest => by
    rw [outlineJoins, joinPieces, joinPieces, sourcePieces_outline table derived?,
      joinPieces_outline rest]
    cases sourcePieces table derived? with
    | error e => rfl
    | ok source =>
      cases joinPieces rest with
      | error e => rfl
      | ok others =>
        have hon : (separated " AND " (on.map onPieces)).map Piece.outline
            = separated " AND " ((outlineOn on).map onPieces) := by
          rw [outline_separated, outline_onPieces]
        refine congrArg Except.ok ?_
        simp [hon, Piece.outline]

theorem sourcePieces_outline (table : TableRef) : ∀ derived? : Option Select,
    sourcePieces table (outlineDerived derived?)
      = List.map Piece.outline <$> sourcePieces table derived?
  | none => congrArg Except.ok (outline_tableRef table).symm
  | some s => by
    rw [outlineDerived, sourcePieces, sourcePieces, s.pieces_outline]
    cases s.pieces with
    | error e => rfl
    | ok inner =>
      refine congrArg Except.ok ?_
      simp [Piece.outline]

end

/-- The outline of a statement is written like the statement. -/
theorem Tree.pieces_outline (tree : Tree) :
    tree.outline.pieces = List.map Piece.outline <$> tree.pieces := by
  cases tree with
  | select s => exact s.pieces_outline
  | insert table values =>
    refine congrArg Except.ok ?_
    simp [outlineValues, outline_separated, Piece.outline, Function.comp_def]
  | update table values predicates =>
    cases values with
    | nil => rfl
    | cons value values =>
      show (wherePieces (predicates.map _) >>= _) = _ <$> (wherePieces predicates >>= _)
      rw [wherePieces_outline]
      cases wherePieces predicates with
      | error e => rfl
      | ok conditions =>
        refine congrArg Except.ok ?_
        simp [outlineValues, outline_separated, Piece.outline, Function.comp_def]
  | delete table predicates =>
    show (wherePieces (predicates.map _) >>= _) = _ <$> (wherePieces predicates >>= _)
    rw [wherePieces_outline]
    cases wherePieces predicates <;> rfl

/-- What can be told of a statement without its values: its text and how many parameters it has. -/
def Statement.face (st : Statement) : String × Nat := (st.sql, st.params.length)

theorem face_outline (ps : List Piece) :
    (Statement.ofPieces (ps.map Piece.outline)).face = (Statement.ofPieces ps).face := by
  have htext : (ps.map Piece.outline).map Piece.text = ps.map Piece.text := by
    rw [List.map_map]
    exact List.map_congr_left fun p _ => by cases p <;> rfl
  have hlength : ((ps.map Piece.outline).filterMap Piece.value?).length
      = (ps.filterMap Piece.value?).length := by
    rw [List.filterMap_map, List.length_filterMap_eq_countP, List.length_filterMap_eq_countP]
    exact List.countP_congr fun p _ => by cases p <;> rfl
  exact congrArg₂ (fun text n => (String.join text, n)) htext hlength

/-- A statement has the text of its outline and equally many parameters, or the same error. -/
theorem Tree.face_outline (tree : Tree) :
    Statement.face <$> tree.outline.statement = Statement.face <$> tree.statement := by
  unfold Tree.statement
  rw [tree.pieces_outline]
  cases tree.pieces with
  | error e => rfl
  | ok ps => exact congrArg Except.ok (Sql.face_outline ps)

/-- Trees with the same outline are written as the same text with equally many parameters. -/
theorem Tree.face_stored_congr {tree other : Tree} (h : tree.outline = other.outline) :
    Statement.face <$> (tree.stored schema).statement
      = Statement.face <$> (other.stored schema).statement := by
  rw [← Tree.face_outline, ← Tree.face_outline (other.stored schema), Tree.outline_stored,
    Tree.outline_stored, h]

end RecordMapping.Sql
