import RecordMapping.Proofs.Sql.Clauses
import RecordMapping.Query.Expansion

/-!
# What an expansion consists of

An expansion that went well is taken apart into the parts of its query.

* `resolveConditions_eq_ok`: conditions are resolved key by key, without regard to each other; only
  the joins that the keys need are collected from all of them;
* `joinsTables_loadRelations`: loaded relations join stored tables only;
* `ofQuery_select`, `ofQuery_update` and `ofQuery_delete`: the statement tree of each kind of query.
-/

namespace RecordMapping.Expansion

open Sql

variable {schema : Schema} {model : Model} {base : TableRef} {storage : DateStorage}

/-! ## Conditions -/

/-- The value that is bound where a column is compared with a given one: for a declared attribute
of the model its stored form. -/
def boundValue (model : Model) (base : TableRef) (storage : DateStorage) (column : ColumnRef)
    (v : Value) : Value :=
  if column.table = base.aliasName then
    match model.attribute? column.column with
    | some a => Storage.toStorage model.table (some a) v storage
    | none => v
  else v

/-- A comparison keeps the operator of its condition; each of its operands is bound in turn. -/
theorem predicate_eq (column : ColumnRef) (condition : Condition) :
    predicate model base storage column condition
      = ⟨column, condition.op, condition.value?.map (boundValue model base storage column),
        condition.values.map (boundValue model base storage column)⟩ := by
  have hid : (fun v : Value => v) = id := rfl
  unfold predicate boundValue
  -- only a column of the model's own table can be a declared attribute
  by_cases htable : column.table = base.aliasName
  · rw [if_pos (by simpa using htable)]
    simp only [if_pos htable]
    cases model.attribute? column.column with
    | none => simp only [hid, Option.map_id, List.map_id, id]
    | some a => rfl
  · rw [if_neg (by simpa using htable)]
    simp only [if_neg htable, hid, Option.map_id, List.map_id, id]

/-- The columns that the keys of conditions mean, each with the link that it needs. -/
def Resolves (schema : Schema) (model : Model) (base : TableRef) (conditions : List Condition)
    (keys : List (ColumnRef × Option Link)) : Prop :=
  List.Forall₂ (fun condition key => resolveKey schema model base condition.column = .ok key)
    conditions keys

/-- The joins of the links of keys, behind the given joins. -/
def linkJoins (model : Model) (base : TableRef) (keys : List (ColumnRef × Option Link))
    (joins : List (Join Select)) : List (Join Select) :=
  (keys.map (·.2)).foldl (addLink (keyRef model base.aliasName)) joins

/-- The comparisons of conditions whose keys are resolved. -/
def comparisons (model : Model) (base : TableRef) (storage : DateStorage)
    (conditions : List Condition) (keys : List (ColumnRef × Option Link)) : List Predicate :=
  List.zipWith (fun condition key => predicate model base storage key.1 condition) conditions keys

/-- Conditions are resolved one by one; the joins are collected from all keys. -/
theorem resolveConditions_eq_ok {conditions : List Condition} {joins joins' : List (Join Select)}
    {predicates : List Predicate} :
    resolveConditions schema model base storage conditions joins = .ok (predicates, joins')
      ↔ ∃ keys, Resolves schema model base conditions keys
        ∧ predicates = comparisons model base storage conditions keys
        ∧ joins' = linkJoins model base keys joins := by
  -- the joins collected so far have no part in how the next key is resolved
  induction conditions generalizing joins joins' predicates with
  | nil =>
    constructor
    · intro h
      obtain ⟨rfl, rfl⟩ := Prod.mk.inj (Except.ok.inj h)
      exact ⟨[], .nil, rfl, rfl⟩
    · intro h
      obtain ⟨keys, hkeys, rfl, rfl⟩ := h
      cases hkeys
      rfl
  | cons condition conditions ih =>
    rw [resolveConditions, bind_eq_ok]
    constructor
    · intro h
      obtain ⟨key, hkey, h⟩ := h
      obtain ⟨⟨rest, joins''⟩, hrest, h⟩ := bind_eq_ok.mp h
      obtain ⟨keys, hkeys, rfl, rfl⟩ := ih.mp hrest
      obtain ⟨rfl, rfl⟩ := Prod.mk.inj (Except.ok.inj h)
      exact ⟨key :: keys, .cons hkey hkeys, rfl, rfl⟩
    · intro h
      obtain ⟨keys, hkeys, rfl, rfl⟩ := h
      cases hkeys with
      | @cons _ key _ keys hkey hkeys =>
        exact ⟨key, hkey, bind_eq_ok.mpr ⟨_, ih.mpr ⟨keys, hkeys, rfl, rfl⟩, rfl⟩⟩

/-- At each place stands the comparison of the condition at this place, with its own key. -/
theorem comparisons_of_resolves {conditions : List Condition}
    {keys : List (ColumnRef × Option Link)} (hkeys : Resolves schema model base conditions keys) :
    List.Forall₂ (fun condition p => ∃ key ∈ keys,
        resolveKey schema model base condition.column = .ok key
        ∧ p = predicate model base storage key.1 condition)
      conditions (comparisons model base storage conditions keys) := by
  induction hkeys with
  | nil => exact .nil
  | cons hkey _ ih =>
    refine .cons ⟨_, List.mem_cons_self, hkey, rfl⟩ (ih.imp ?_)
    intro condition p hcomparison
    obtain ⟨key, hmem, hp⟩ := hcomparison
    exact ⟨key, List.mem_cons_of_mem _ hmem, hp⟩

/-! ## Joins of stored tables -/

/-- A link joins a stored table. -/
theorem joinsTables_addLink (baseKey : ColumnRef) {joins : List (Join Select)}
    (hjoins : JoinsTables joins) (link? : Option Link) :
    JoinsTables (addLink baseKey joins link?) := by
  cases link? with
  | none => exact hjoins
  | some link =>
    unfold addLink
    dsimp only
    split
    · exact hjoins
    · exact joinsTables_append hjoins fun join hjoin => by
        rw [List.mem_singleton.mp hjoin]
        rfl

/-- The links of keys join stored tables. -/
theorem joinsTables_linkJoins (keys : List (ColumnRef × Option Link)) {joins : List (Join Select)}
    (hjoins : JoinsTables joins) : JoinsTables (linkJoins model base keys joins) := by
  induction keys generalizing joins with
  | nil => exact hjoins
  | cons key keys ih => exact ih (joinsTables_addLink _ hjoins key.2)

/-- The joins that a query asks for are of stored tables. -/
theorem joinsTables_explicit (specs : List JoinSpec) :
    JoinsTables (specs.map (explicitJoin schema base)) := by
  intro join hjoin
  obtain ⟨spec, -, rfl⟩ := List.mem_map.mp hjoin
  rfl

/-- The joins that load a relation are of stored tables. -/
theorem joinsTables_relationJoins (r : Relation) (target : Model) (aliasName : String) :
    JoinsTables (relationJoins base model r target aliasName).1 := by
  obtain ⟨kind, _, _, _, _, junction?⟩ := r
  cases kind <;> cases junction? <;> simp [JoinsTables, relationJoins, Join.stored]

/-- One more relation that is loaded joins stored tables. -/
theorem joinsTables_loadRelation {loading loading' : Loading} {aliasName : String}
    (h : loadRelation schema model base loading aliasName = .ok loading')
    (hloading : JoinsTables loading.joins) : JoinsTables loading'.joins := by
  unfold loadRelation at h
  split at h
  · rwa [← Except.ok.inj h]
  · split at h
    · rwa [← Except.ok.inj h]
    · split at h
      · exact absurd h nofun
      · obtain ⟨target, -, h⟩ := bind_eq_ok.mp h
        rw [← Except.ok.inj h]
        exact joinsTables_append hloading (joinsTables_relationJoins _ target aliasName)

/-- Loaded relations join stored tables. -/
theorem joinsTables_loadRelations {loading : Loading} {aliases : List String}
    (h : loadRelations schema model base aliases = .ok loading) : JoinsTables loading.joins :=
  @foldlM_invariant _ _ _ (fun loading => JoinsTables loading.joins) _
    (fun _ _ _ hloading h => joinsTables_loadRelation h hloading) _ _ _ joinsTables_nil h

/-! ## Queries -/

/-- The joins of a query: those that its conditions need, then those that it asks for. -/
def queryJoins (schema : Schema) (model : Model) (query : Query)
    (keys : List (ColumnRef × Option Link)) : List (Join Select) :=
  linkJoins model (baseTable model query) keys []
    ++ query.joins.map (explicitJoin schema (baseTable model query))

theorem joinsTables_queryJoins (query : Query) (keys : List (ColumnRef × Option Link)) :
    JoinsTables (queryJoins schema model query keys) :=
  joinsTables_append (joinsTables_linkJoins keys joinsTables_nil)
    (joinsTables_explicit query.joins)

variable {query : Query} {expansion : Expansion}

/-- A select has the joins and comparisons of its query, and so has the select that counts. -/
theorem ofQuery_select (hkind : query.kind = .select)
    (h : ofQuery schema storage model query = .ok expansion) :
    ∃ keys loading select,
      Resolves schema model (baseTable model query) query.conditions keys
      ∧ loadRelations schema model (baseTable model query) query.includes = .ok loading
      ∧ selectWith model (baseTable model query) query.columns
        (plainSelect (baseTable model query) query (queryJoins schema model query keys)
          (comparisons model (baseTable model query) storage query.conditions keys)) loading
        = .ok select
      ∧ expansion = ⟨.select select,
        some (countSelect model (baseTable model query) (queryJoins schema model query keys)
          (comparisons model (baseTable model query) storage query.conditions keys)),
        loading.included, (baseTable model query).aliasName⟩ := by
  obtain ⟨⟨predicates, joins⟩, hconditions, h⟩ := bind_eq_ok.mp h
  obtain ⟨keys, hkeys, rfl, rfl⟩ := resolveConditions_eq_ok.mp hconditions
  rw [hkind] at h
  obtain ⟨loading, hloading, h⟩ := bind_eq_ok.mp h
  obtain ⟨select, hselect, h⟩ := bind_eq_ok.mp h
  exact ⟨keys, loading, select, hkeys, hloading, hselect, (Except.ok.inj h).symm⟩

/-- A statement in which joins are refused has none. -/
theorem rejectJoins_eq_ok {joins : List (Join Select)} {kind : String} {done : Unit}
    (h : rejectJoins joins kind = .ok done) : joins = [] := by
  unfold rejectJoins at h
  split at h
  · rename_i hempty
    exact List.isEmpty_iff.mp hempty
  · exact absurd h nofun

/-- An update has the comparisons of its query, which needs no joins. -/
theorem ofQuery_update (hkind : query.kind = .update)
    (h : ofQuery schema storage model query = .ok expansion) :
    ∃ keys, Resolves schema model (baseTable model query) query.conditions keys
      ∧ queryJoins schema model query keys = []
      ∧ expansion = ⟨.update (baseTable model query) (storedForm model storage query.values)
          (comparisons model (baseTable model query) storage query.conditions keys),
        none, [], (baseTable model query).aliasName⟩ := by
  obtain ⟨⟨predicates, joins⟩, hconditions, h⟩ := bind_eq_ok.mp h
  obtain ⟨keys, hkeys, rfl, rfl⟩ := resolveConditions_eq_ok.mp hconditions
  rw [hkind] at h
  obtain ⟨_, hjoins, h⟩ := bind_eq_ok.mp h
  exact ⟨keys, hkeys, rejectJoins_eq_ok hjoins, (Except.ok.inj h).symm⟩

/-- A removal has the comparisons of its query, which needs no joins. -/
theorem ofQuery_delete (hkind : query.kind = .delete)
    (h : ofQuery schema storage model query = .ok expansion) :
    ∃ keys, Resolves schema model (baseTable model query) query.conditions keys
      ∧ queryJoins schema model query keys = []
      ∧ expansion = ⟨.delete (baseTable model query)
          (comparisons model (baseTable model query) storage query.conditions keys),
        none, [], (baseTable model query).aliasName⟩ := by
  obtain ⟨⟨predicates, joins⟩, hconditions, h⟩ := bind_eq_ok.mp h
  obtain ⟨keys, hkeys, rfl, rfl⟩ := resolveConditions_eq_ok.mp hconditions
  rw [hkind] at h
  obtain ⟨_, hjoins, h⟩ := bind_eq_ok.mp h
  exact ⟨keys, hkeys, rejectJoins_eq_ok hjoins, (Except.ok.inj h).symm⟩

/-- Without loaded relations a select is the plain one. Otherwise it reads the records whose keys
the plain one finds. -/
theorem selectWith_eq_ok {columns : List String} {plain select : Select} {loading : Loading}
    (h : selectWith model base columns plain loading = .ok select) :
    (loading.included = [] ∧ select = plain)
      ∨ (loading.included ≠ [] ∧ select = loadingSelect model base columns plain loading) := by
  unfold selectWith at h
  split at h
  · rename_i hempty
    exact .inl ⟨List.isEmpty_iff.mp hempty, (Except.ok.inj h).symm⟩
  · rename_i hloaded
    unfold pagedSelect at h
    split at h
    · exact absurd h nofun
    · exact .inr ⟨fun hempty => hloaded (List.isEmpty_iff.mpr hempty), (Except.ok.inj h).symm⟩

end RecordMapping.Expansion
