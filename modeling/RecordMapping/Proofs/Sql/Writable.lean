import RecordMapping.Proofs.Sql.Clauses
import RecordMapping.Proofs.Sql.Slots

/-!
# Which trees can be written

A tree is refused for one of its comparisons, however deep this stands in derived tables, or because
it is an update that sets nothing.

* `Predicate.exists_pieces`: a comparison that has the operands its operator takes can be written;
* `Select.failsLike_pieces`: a select fails like its comparisons, taken one after the other;
* `Tree.statement_eq_error_iff`: if all comparisons have their operands, only an update that sets
  nothing is refused.
-/

namespace RecordMapping

/-- The operands that an operator takes: a list, which may be empty, for a test of membership, none
for a test for null, and exactly one otherwise. -/
def Operator.Takes (op : Operator) (value? : Option Value) (values : List Value) : Prop :=
  if op.takesList then value? = none
  else if op.isUnary then value? = none ∧ values = []
  else value?.isSome ∧ values = []

namespace Operator

variable {op : Operator} {value? : Option Value} {values : List Value}

theorem takes_list (hlist : op.takesList = true) (values : List Value) : op.Takes none values := by
  unfold Takes
  rw [if_pos hlist]

theorem takes_nothing (hunary : op.isUnary = true) : op.Takes none [] := by
  by_cases hlist : op.takesList = true
  · exact takes_list hlist []
  · unfold Takes
    rw [if_neg hlist, if_pos hunary]
    exact ⟨rfl, rfl⟩

theorem takes_one (hlist : op.takesList ≠ true) (hunary : op.isUnary ≠ true) (v : Value) :
    op.Takes (some v) [] := by
  unfold Takes
  rw [if_neg hlist, if_neg hunary]
  exact ⟨rfl, rfl⟩

/-- What happens to each operand by itself changes nothing about their number. -/
theorem Takes.map (h : op.Takes value? values) (f : Value → Value) :
    op.Takes (value?.map f) (values.map f) := by
  unfold Takes at h ⊢
  split
  · rename_i hlist
    rw [if_pos hlist] at h
    rw [h, Option.map_none]
  · rename_i hlist
    rw [if_neg hlist] at h
    split
    · rename_i hunary
      rw [if_pos hunary] at h
      exact ⟨by rw [h.1, Option.map_none], by rw [h.2, List.map_nil]⟩
    · rename_i hunary
      rw [if_neg hunary] at h
      exact ⟨by rw [Option.isSome_map, h.1], by rw [h.2, List.map_nil]⟩

end Operator

namespace Sql

/-! ## Comparisons -/

namespace Predicate

/-- What a comparison compares its column with, and how. -/
def operands (p : Predicate) : Operator × Option Value × List Value := (p.op, p.value?, p.values)

/-- A comparison has the operands that its operator takes. -/
def Formed (p : Predicate) : Prop := p.op.Takes p.value? p.values

variable {p : Predicate}

/-- A comparison with its operands can be written. -/
theorem exists_pieces (h : p.Formed) : ∃ ps, p.pieces = .ok ps := by
  by_cases hnull : p.isNullTest = true
  · exact ⟨_, pieces_of_isNullTest hnull⟩
  · by_cases hlist : p.op.takesList = true
    · exact ⟨_, pieces_of_takesList hlist⟩
    · -- what is neither a test for null nor one of membership has one operand
      have hunary : ¬ p.op.isUnary = true := by
        intro hunary
        apply hnull
        rw [isNullTest, hunary, Bool.true_or]
      unfold Formed Operator.Takes at h
      rw [if_neg hlist, if_neg hunary] at h
      obtain ⟨v, hv⟩ := Option.isSome_iff_exists.mp h.1
      rw [Bool.not_eq_true] at hnull hlist
      rw [pieces_of_compares hnull hlist, hv]
      exact ⟨_, rfl⟩

end Predicate

/-- Comparisons have their operands if others with the same operands do. -/
theorem formed_of_operands {ps qs : List Predicate}
    (h : ps.map Predicate.operands = qs.map Predicate.operands)
    (hqs : ∀ q ∈ qs, q.Formed) : ∀ p ∈ ps, p.Formed := by
  intro p hp
  have hmem : p.operands ∈ qs.map Predicate.operands := by
    rw [← h]
    exact List.mem_map_of_mem hp
  obtain ⟨q, hq, hsame⟩ := List.mem_map.mp hmem
  have hformed : q.operands.1.Takes q.operands.2.1 q.operands.2.2 := hqs q hq
  rwa [hsame] at hformed

/-! ## Comparisons at any depth -/

mutual

/-- The comparisons of a select and of the derived tables in it, in the order in which they are
written. -/
def Select.allPredicates : Select → List Predicate
  | ⟨_, _, _, joins, predicates, _, _, _, _⟩ => joinPredicates joins ++ predicates

/-- The comparisons in the derived tables that are joined. -/
def joinPredicates : List (Join Select) → List Predicate
  | [] => []
  | ⟨_, _, derived?, _⟩ :: rest => sourcePredicates derived? ++ joinPredicates rest

/-- The comparisons in a derived table. -/
def sourcePredicates : Option Select → List Predicate
  | none => []
  | some s => s.allPredicates

end

/-- The comparisons of a statement. -/
def Tree.allPredicates : Tree → List Predicate
  | .select s => s.allPredicates
  | .insert _ _ => []
  | .update _ _ predicates | .delete _ predicates => predicates

theorem Select.allPredicates_eq (s : Select) :
    s.allPredicates = joinPredicates s.joins ++ s.predicates := by
  obtain ⟨distinct, table, items, joins, predicates, groupBy, order, limit?, offset?⟩ := s
  rw [Select.allPredicates]

/-- Joins of stored tables compare nothing. -/
theorem joinPredicates_of_joinsTables {joins : List (Join Select)} (h : JoinsTables joins) :
    joinPredicates joins = [] := by
  induction joins with
  | nil => rfl
  | cons join joins ih =>
    obtain ⟨kind, table, derived?, on⟩ := join
    obtain ⟨hjoin, hjoins⟩ := List.forall_mem_cons.mp h
    obtain rfl : derived? = none := hjoin
    rw [joinPredicates, sourcePredicates, ih hjoins, List.nil_append]

/-! ## Storage columns -/

section

variable (schema : Schema)

theorem operands_stored (tables : List TableRef) (predicates : List Predicate) :
    (predicates.map (·.stored schema tables)).map Predicate.operands
      = predicates.map Predicate.operands := by
  rw [List.map_map]
  rfl

mutual

/-- Storage names touch no operand. -/
theorem Select.operands_stored : ∀ s : Select,
    (s.stored schema).allPredicates.map Predicate.operands
      = s.allPredicates.map Predicate.operands
  | ⟨_, table, _, joins, predicates, _, _, _, _⟩ => by
    rw [Select.stored, Select.allPredicates, Select.allPredicates, List.map_append,
      List.map_append, operands_storedJoins _ joins, Sql.operands_stored]

theorem operands_storedJoins (tables : List TableRef) : ∀ joins : List (Join Select),
    (joinPredicates (storedJoins schema tables joins)).map Predicate.operands
      = (joinPredicates joins).map Predicate.operands
  | [] => rfl
  | ⟨_, _, derived?, _⟩ :: rest => by
    rw [storedJoins, joinPredicates, joinPredicates, List.map_append, List.map_append,
      operands_storedDerived derived?, operands_storedJoins tables rest]

theorem operands_storedDerived : ∀ derived? : Option Select,
    (sourcePredicates (storedDerived schema derived?)).map Predicate.operands
      = (sourcePredicates derived?).map Predicate.operands
  | none => rfl
  | some s => Select.operands_stored s

end

theorem Tree.operands_stored (tree : Tree) :
    (tree.stored schema).allPredicates.map Predicate.operands
      = tree.allPredicates.map Predicate.operands := by
  cases tree with
  | select s => exact s.operands_stored schema
  | insert table values => rfl
  | update table values predicates => exact Sql.operands_stored schema [table] predicates
  | delete table predicates => exact Sql.operands_stored schema [table] predicates

end

/-! ## Errors -/

theorem failsLike_wherePieces (predicates : List Predicate) :
    FailsLike (wherePieces predicates) (predicates.mapM Predicate.pieces) :=
  FailsLike.map (fun _ => Iff.rfl) _

mutual

/-- A select fails for the first of its comparisons that cannot be written. -/
theorem Select.failsLike_pieces : ∀ s : Select,
    FailsLike s.pieces (s.allPredicates.mapM Predicate.pieces)
  | ⟨_, _, _, joins, predicates, _, _, _, _⟩ => by
    rw [Select.pieces, Select.allPredicates, List.mapM_append]
    refine (failsLike_joinPieces joins).bind fun joined written => ?_
    refine (failsLike_wherePieces predicates).bind fun conditions conjuncts => ?_
    exact failsLike_ok _ _

theorem failsLike_joinPieces : ∀ joins : List (Join Select),
    FailsLike (joinPieces joins) ((joinPredicates joins).mapM Predicate.pieces)
  | [] => failsLike_ok _ _
  | ⟨_, table, derived?, _⟩ :: rest => by
    rw [joinPieces, joinPredicates, List.mapM_append]
    refine (failsLike_sourcePieces table derived?).bind fun source written => ?_
    refine (failsLike_joinPieces rest).bind fun others conjuncts => ?_
    exact failsLike_ok _ _

theorem failsLike_sourcePieces (table : TableRef) : ∀ derived? : Option Select,
    FailsLike (sourcePieces table derived?) ((sourcePredicates derived?).mapM Predicate.pieces)
  | none => failsLike_ok _ _
  | some s => (Select.failsLike_pieces s).map _

end

/-- The update sets nothing. -/
def Tree.SetsNothing : Tree → Prop
  | .update _ [] _ => True
  | _ => False

/-- Any other statement fails for the first of its comparisons that cannot be written. -/
theorem Tree.failsLike_statement {tree : Tree} (h : ¬ tree.SetsNothing) :
    FailsLike tree.statement (tree.allPredicates.mapM Predicate.pieces) := by
  apply FailsLike.map
  cases tree with
  | select s => exact s.failsLike_pieces
  | insert table values => exact failsLike_ok _ _
  | update table values predicates =>
    cases values with
    | nil => exact absurd trivial h
    | cons value values => exact (failsLike_wherePieces predicates).map _
  | delete table predicates => exact (failsLike_wherePieces predicates).map _

/-- If all comparisons have their operands, only an update that sets nothing is refused. -/
theorem Tree.statement_eq_error_iff {tree : Tree} (h : ∀ p ∈ tree.allPredicates, p.Formed)
    {e : Error} :
    tree.statement = .error e ↔ ∃ table predicates, tree = .update table [] predicates
      ∧ e = .query (.nothingToSet table.table) := by
  by_cases hempty : tree.SetsNothing
  · cases tree with
    | update table values predicates =>
      cases values with
      | nil =>
        constructor
        · intro herror
          exact ⟨table, predicates, rfl, (Except.error.inj herror).symm⟩
        · rintro ⟨_, _, ⟨⟩, rfl⟩
          rfl
      | cons value values => exact hempty.elim
    | _ => exact hempty.elim
  · obtain ⟨conjuncts, hconjuncts⟩ := exists_conjuncts fun p hp => Predicate.exists_pieces (h p hp)
    rw [failsLike_statement hempty, mapM_eq_ok.mpr hconjuncts]
    constructor
    · exact nofun
    · rintro ⟨table, predicates, rfl, -⟩
      exact absurd trivial hempty

end Sql

end RecordMapping
