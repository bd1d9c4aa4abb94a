import RecordMapping.Proofs.Result
import RecordMapping.Query.Normal

/-!
# The criteria of a descriptor

A descriptor filters by criteria: the plain entries of its object of conditions, and each operator
of those entries that consist of operators. `Descriptor.criteria` lists them in the order in which
they stand, without any regard to how a descriptor is read.

The main statement is `ofDescriptor_conditions`: a query has one condition for each criterion of its
descriptor, in the same order, and it is the condition that the criterion by itself stands for.
-/

namespace RecordMapping

/-- One criterion of an object of conditions. -/
inductive Criterion where
  /-- A key with a plain value. -/
  | entry (key : String) (value : Json)
  /-- One of the operators under a key, by its token. -/
  | operator (key token : String) (operand : Json)

namespace Criterion

/-- The criteria under a key: its operators if its value consists of operators, and the entry itself
otherwise. -/
def under (key : String) (value : Json) : List Criterion :=
  match value with
  | .obj operators =>
    if Query.isOperators operators then
      operators.map fun (token, operand) => .operator key token operand
    else [.entry key value]
  | _ => [.entry key value]

/-- The criteria of an object of conditions. -/
def ofClause (clause : Fields Json) : List Criterion :=
  clause.flatMap fun (key, value) => under key value

/-- The condition that a criterion stands for. An array is a test of membership, any other plain
value one for equality. -/
def condition : Criterion → Result Condition
  | entry key (.arr items) => .ok (.list key .isIn (items.map Query.readOperand))
  | entry key value => .ok (.equal key (Query.readOperand value))
  | operator key token operand =>
    match Operator.ofToken? token with
    | some op => Query.readOperator key op operand
    | none => .error (.query (.unknownOperator token key))

end Criterion

namespace Descriptor

/-- The conditions at the top of a shorthand. -/
def hoisted (d : Descriptor) : Fields Json :=
  if d.isStructured then [] else d.fields.filter fun (key, _) => Query.isConditionKey key

/-- What a descriptor has under `where`: in a shorthand with conditions at its top, an object of
these, which replaces whatever was put there. -/
def clause? (d : Descriptor) : Option Json :=
  if d.hoisted.isEmpty then d.fields.get? "where" else some (.obj d.hoisted)

/-- The criteria of a descriptor. -/
def criteria (d : Descriptor) : List Criterion :=
  match d.clause? with
  | some (.obj clause) => Criterion.ofClause clause
  | _ => []

end Descriptor

namespace Query

/-! ## Reading an object of conditions -/

/-- Conditions that were read one for each criterion, in order. -/
def Meets (criteria : List Criterion) (conditions : List Condition) : Prop :=
  List.Forall₂ (fun criterion condition => criterion.condition = .ok condition) criteria conditions

/-- The conditions on one key are those of the criteria under it. -/
theorem readCriteria_eq_mapM (key : String) (value : Json) :
    readCriteria key value = (Criterion.under key value).mapM Criterion.condition := by
  have hentry (condition : Condition) (h : (Criterion.entry key value).condition = .ok condition) :
      [Criterion.entry key value].mapM Criterion.condition = .ok [condition] := by
    rw [mapM_eq_ok]
    exact .cons h .nil
  unfold readCriteria Criterion.under
  cases value with
  | obj operators =>
    dsimp only
    split
    · -- an operator object: one criterion for each operator
      rw [List.mapM_map]
      rfl
    · exact (hentry _ rfl).symm
  | _ => exact (hentry _ rfl).symm

/-- Criteria that are met key by key are met as a whole. -/
theorem Meets.flatten {clause : Fields Json} {groups : List (List Condition)}
    (h : List.Forall₂ (fun entry group => Meets (Criterion.under entry.1 entry.2) group)
      clause groups) :
    Meets (Criterion.ofClause clause) groups.flatten := by
  induction h with
  | nil => exact .nil
  | cons hgroup _ ih => exact List.rel_append hgroup ih

/-- The conditions of an object are those of its criteria. -/
theorem meets_of_readWhere {clause : Fields Json} {conditions : List Condition}
    (h : readWhere (.obj clause) = .ok conditions) :
    Meets (Criterion.ofClause clause) conditions := by
  obtain ⟨groups, hgroups, hflat⟩ := bind_eq_ok.mp h
  rw [← Except.ok.inj hflat]
  refine Meets.flatten ((mapM_eq_ok.mp hgroups).imp ?_)
  intro (key, value) group hgroup
  exact mapM_eq_ok.mp ((readCriteria_eq_mapM key value).symm.trans hgroup)

/-! ## Where the conditions are found -/

/-- The other name of `sort` makes no difference to conditions. -/
theorem get?_where_withOrder (fields : Fields Json) :
    (withOrder fields).get? "where" = fields.get? "where" := by
  have herase : (fields.erase "sort").get? "where" = fields.get? "where" := by
    rw [Fields.get?_erase, if_neg (by decide)]
  unfold withOrder
  cases fields.get? "sort" with
  | none => rfl
  | some sort =>
    dsimp only
    split
    · exact herase
    · rw [Fields.get?_insert, if_neg (by decide), herase]

/-- Conditions at the top of a shorthand are moved under `where`. -/
theorem get?_where_structuredFields (d : Descriptor) :
    (structuredFields d).get? "where" = d.clause? := by
  unfold structuredFields Descriptor.clause? Descriptor.hoisted
  -- the style is fixed, whatever keys were put into the descriptor afterwards
  by_cases hstyle : d.isStructured = true
  · rw [if_pos hstyle, if_pos hstyle]
    rfl
  · rw [if_neg hstyle, if_neg hstyle]
    dsimp only
    split
    · rfl
    · rw [Fields.get?_insert, if_pos rfl]

/-- **No criterion is lost or moved.** The conditions of a query are those that the criteria of its
descriptor stand for, one for each criterion and in the same order. -/
theorem ofDescriptor_conditions {config : Config} {d : Descriptor} {query : Query}
    (h : ofDescriptor config d = .ok query) : Meets d.criteria query.conditions := by
  obtain ⟨kind, -, h⟩ := bind_eq_ok.mp h
  obtain ⟨columns, -, h⟩ := bind_eq_ok.mp h
  obtain ⟨groupBy, -, h⟩ := bind_eq_ok.mp h
  obtain ⟨includes, -, h⟩ := bind_eq_ok.mp h
  obtain ⟨order, -, h⟩ := bind_eq_ok.mp h
  obtain ⟨conditions, hconditions, h⟩ := bind_eq_ok.mp h
  obtain ⟨joins, -, h⟩ := bind_eq_ok.mp h
  obtain ⟨values, -, h⟩ := bind_eq_ok.mp h
  obtain ⟨page?, -, h⟩ := bind_eq_ok.mp h
  rw [← Except.ok.inj h]
  rw [get?_where_withOrder, get?_where_structuredFields] at hconditions
  unfold Descriptor.criteria
  cases hclause : d.clause? with
  | none =>
    rw [hclause] at hconditions
    rw [← Except.ok.inj hconditions]
    exact .nil
  | some clause =>
    rw [hclause] at hconditions
    cases clause with
    | obj clause => exact meets_of_readWhere hconditions
    | _ => exact absurd hconditions nofun

end Query

end RecordMapping
