import RecordMapping.Proofs.Hydration.Delivery
import RecordMapping.Proofs.Repository.Keying
import RecordMapping.Proofs.Sql.Writable
import RecordMapping.Repository.Related

/-!
# Queries that compile

A condition needs the operands that its operator takes, or it cannot be written. Descriptors are
read so that every condition has them, and what becomes of a condition on the way to its statement
leaves their number as it is.

* `Query.Produced.formed`: the conditions of all queries that descriptors and operations produce
  have their operands;
* `Expansion.allPredicates_ofQuery`: the comparisons of a statement, also those in derived tables,
  are the ones of the conditions;
* `Query.Produced.compiles`: such a query compiles, unless it is an update that sets nothing.
-/

namespace RecordMapping

open Sql

/-! ## Conditions -/

/-- A condition has the operands that its operator takes. -/
def Condition.Formed (c : Condition) : Prop := c.op.Takes c.value? c.values

theorem Condition.formed_equal (column : String) (v : Value) :
    (Condition.equal column v).Formed :=
  @Operator.takes_one .equal (by decide) (by decide) v

namespace Query

/-- The operands of an operator are read as it takes them. -/
theorem formed_readOperator {key : String} {op : Operator} {operand : Json} {c : Condition}
    (h : readOperator key op operand = .ok c) : c.Formed := by
  unfold readOperator at h
  by_cases hunary : op.isUnary = true
  · rw [if_pos hunary] at h
    rw [← Except.ok.inj h]
    apply Operator.takes_nothing
    unfold Condition.unary
    -- the opposite of a test for null is one as well
    dsimp only
    split
    · cases op with
      | isNull => rfl
      | isNotNull => rfl
      | _ => exact hunary
    · exact hunary
  · rw [if_neg hunary] at h
    by_cases hlist : op.takesList = true
    · rw [if_pos hlist] at h
      split at h
      · rw [← Except.ok.inj h]
        exact Operator.takes_list hlist _
      · exact absurd h nofun
    · rw [if_neg hlist] at h
      rw [← Except.ok.inj h]
      exact Operator.takes_one hlist hunary _

theorem formed_of_criterion {criterion : Criterion} {c : Condition}
    (h : criterion.condition = .ok c) : c.Formed := by
  cases criterion with
  | entry key value =>
    cases value with
    | arr items =>
      rw [← Except.ok.inj h]
      exact Operator.takes_list rfl _
    | _ =>
      rw [← Except.ok.inj h]
      exact Condition.formed_equal _ _
  | operator key token operand =>
    dsimp only [Criterion.condition] at h
    split at h
    · exact formed_readOperator h
    · exact absurd h nofun

theorem formed_of_meets {criteria : List Criterion} {conditions : List Condition}
    (h : Meets criteria conditions) : ∀ c ∈ conditions, c.Formed := by
  induction h with
  | nil => exact List.forall_mem_nil _
  | cons hcriterion _ ih => exact List.forall_mem_cons.mpr ⟨formed_of_criterion hcriterion, ih⟩

/-! ## Queries -/

/-- All conditions of a query have their operands, and all names their values. -/
structure Formed (query : Query) : Prop where
  conditions : ∀ c ∈ query.conditions, c.Formed
  values : ∀ entry ∈ query.values, entry.2.isSome = true

theorem Formed.withCondition {query : Query} (h : query.Formed) {c : Condition} (hc : c.Formed) :
    Formed { query with conditions := query.conditions ++ [c] } where
  conditions := List.forall_mem_append.mpr
    ⟨h.conditions, fun _ hmem => List.mem_singleton.mp hmem ▸ hc⟩
  values := h.values

/-- Every written name is read with a value. -/
theorem isSome_of_readValues {json? : Option Json} {values : List (String × Option Value)}
    (h : readValues json? = .ok values) : ∀ entry ∈ values, entry.2.isSome = true := by
  unfold readValues at h
  split at h
  · rw [← Except.ok.inj h]
    exact List.forall_mem_nil _
  · rw [← Except.ok.inj h]
    intro entry hentry
    obtain ⟨field, -, rfl⟩ := List.mem_map.mp hentry
    rfl
  · exact absurd h nofun

variable {config : Config} {d : Descriptor} {query : Query}

theorem formed_ofDescriptor (h : ofDescriptor config d = .ok query) : query.Formed := by
  refine ⟨formed_of_meets (ofDescriptor_conditions h), ?_⟩
  obtain ⟨kind, -, h⟩ := bind_eq_ok.mp h
  obtain ⟨columns, -, h⟩ := bind_eq_ok.mp h
  obtain ⟨groupBy, -, h⟩ := bind_eq_ok.mp h
  obtain ⟨includes, -, h⟩ := bind_eq_ok.mp h
  obtain ⟨order, -, h⟩ := bind_eq_ok.mp h
  obtain ⟨conditions, -, h⟩ := bind_eq_ok.mp h
  obtain ⟨joins, -, h⟩ := bind_eq_ok.mp h
  obtain ⟨values, hvalues, h⟩ := bind_eq_ok.mp h
  obtain ⟨page?, -, h⟩ := bind_eq_ok.mp h
  rw [← Except.ok.inj h]
  exact isSome_of_readValues hvalues

/-- A query that a descriptor stands for, or that an operation makes: a search, a search for related
records, or a write of a record. -/
inductive Produced : Query → Prop where
  | descriptor {config : Config} {d : Descriptor} {query : Query}
      (h : ofDescriptor config d = .ok query) : Produced query
  | lookup {repo : Repository} {lookup : Lookup} {query : Query}
      (h : repo.lookupQuery lookup = .ok query) : Produced query
  | related {r : Related} {owner : Record} {d? : Option Descriptor} {query : Query}
      (h : r.scopedQuery owner d? = .ok query) : Produced query
  | insert (record : Record) : Produced (Repository.insertQuery record)
  | update (repo : Repository) (record : Record) (key : Value) :
      Produced (repo.updateQuery record key)
  | remove (repo : Repository) (key : Value) : Produced (repo.removeQuery key)

/-- The condition that a target belongs to a record is one for equality. -/
theorem formed_scope {r : Related} {owner : Record} {c : Condition} (h : r.scope owner = .ok c) :
    c.Formed := by
  have hequal {key? : Result Value} {column : String}
      (h : (key? >>= fun key => .ok (Condition.equal column key)) = .ok c) : c.Formed := by
    obtain ⟨key, -, h⟩ := bind_eq_ok.mp h
    rw [← Except.ok.inj h]
    exact Condition.formed_equal column key
  unfold Related.scope at h
  split at h
  · exact hequal h
  · exact hequal h
  · exact hequal h

/-- Such a query has its operands and its values. -/
theorem Produced.formed (h : Produced query) : query.Formed := by
  have hkey (repo : Repository) (key : Value) :
      ∀ c ∈ [repo.keyCondition key], c.Formed := by
    intro c hc
    rw [List.mem_singleton.mp hc]
    exact Condition.formed_equal _ _
  cases h with
  | descriptor h => exact formed_ofDescriptor h
  | @lookup repo lookup query h =>
    cases lookup with
    | key value =>
      obtain ⟨all, hall, h⟩ := bind_eq_ok.mp h
      have hformed := (formed_ofDescriptor hall).withCondition
        (Condition.formed_equal repo.model.primaryKey value)
      rw [← Except.ok.inj h]
      exact ⟨hformed.conditions, hformed.values⟩
    | query d =>
      obtain ⟨found, hfound, h⟩ := bind_eq_ok.mp h
      have hformed := formed_ofDescriptor hfound
      rw [← Except.ok.inj h]
      exact ⟨hformed.conditions, hformed.values⟩
  | related h =>
    obtain ⟨found, hfound, h⟩ := bind_eq_ok.mp h
    obtain ⟨c, hc, h⟩ := bind_eq_ok.mp h
    rw [← Except.ok.inj h]
    exact (formed_ofDescriptor hfound).withCondition (formed_scope hc)
  | insert record =>
    refine ⟨List.forall_mem_nil _, fun entry hentry => ?_⟩
    obtain ⟨value, -, rfl⟩ := List.mem_map.mp hentry
    rfl
  | update repo record key =>
    refine ⟨hkey repo key, fun entry hentry => ?_⟩
    obtain ⟨change, -, rfl⟩ := List.mem_map.mp hentry
    rfl
  | remove repo key => exact ⟨hkey repo key, List.forall_mem_nil _⟩

end Query

/-! ## Comparisons -/

namespace Expansion

variable {schema : Schema} {storage : DateStorage} {model : Model} {base : TableRef} {query : Query}
  {expansion : Expansion}

/-- A comparison has its operands if its condition has. -/
theorem formed_comparisons {conditions : List Condition} (h : ∀ c ∈ conditions, c.Formed)
    (keys : List (ColumnRef × Option Link)) :
    ∀ p ∈ comparisons model base storage conditions keys, p.Formed := by
  unfold comparisons
  induction conditions generalizing keys with
  | nil => exact List.forall_mem_nil _
  | cons condition conditions ih =>
    obtain ⟨hcondition, hconditions⟩ := List.forall_mem_cons.mp h
    cases keys with
    | nil => exact List.forall_mem_nil _
    | cons key keys =>
      rw [List.zipWith_cons_cons, List.forall_mem_cons]
      refine ⟨?_, ih hconditions keys⟩
      rw [predicate_eq]
      exact Operator.Takes.map hcondition _

/-- Where relations are loaded, the comparisons stand in the derived table and nowhere else. -/
theorem allPredicates_selectWith {columns : List String} {plain select : Select}
    {loading : Loading} (hplain : JoinsTables plain.joins) (hloading : JoinsTables loading.joins)
    (h : selectWith model base columns plain loading = .ok select) :
    select.allPredicates = plain.predicates := by
  have hown : plain.allPredicates = plain.predicates := by
    rw [Select.allPredicates_eq, joinPredicates_of_joinsTables hplain, List.nil_append]
  rcases selectWith_eq_ok h with ⟨-, rfl⟩ | ⟨-, rfl⟩
  · exact hown
  · have hkeys : (keySelect model base plain).allPredicates = plain.predicates := by
      rw [Select.allPredicates_eq] at hown ⊢
      exact hown
    rw [Select.allPredicates_eq]
    show joinPredicates (pageJoin model base plain :: loading.joins) ++ [] = _
    unfold pageJoin
    rw [joinPredicates, sourcePredicates, hkeys, joinPredicates_of_joinsTables hloading,
      List.append_nil, List.append_nil]

/-- The comparisons of a statement are those of the conditions, and so are those of the count. An
insertion has none. -/
theorem allPredicates_ofQuery (h : ofQuery schema storage model query = .ok expansion) :
    ∃ keys, Resolves schema model (baseTable model query) query.conditions keys
      ∧ let compared := comparisons model (baseTable model query) storage query.conditions keys
        expansion.tree.allPredicates = (if query.kind = .insert then [] else compared)
        ∧ ∀ count, expansion.count? = some count → count.allPredicates = compared := by
  cases hkind : query.kind with
  | select =>
    obtain ⟨keys, loading, select, hkeys, hloading, hselect, rfl⟩ := ofQuery_select hkind h
    have hjoins := @joinsTables_queryJoins schema model query keys
    refine ⟨keys, hkeys, ?_, ?_⟩
    · exact allPredicates_selectWith hjoins (joinsTables_loadRelations hloading) hselect
    · rintro count ⟨⟩
      rw [Select.allPredicates_eq]
      show joinPredicates (queryJoins schema model query keys) ++ _ = _
      rw [joinPredicates_of_joinsTables hjoins]
      rfl
  | insert =>
    obtain ⟨⟨predicates, joins⟩, hconditions, h⟩ := bind_eq_ok.mp h
    obtain ⟨keys, hkeys, -, -⟩ := resolveConditions_eq_ok.mp hconditions
    rw [hkind] at h
    rw [← Except.ok.inj h]
    exact ⟨keys, hkeys, rfl, nofun⟩
  | update =>
    obtain ⟨keys, hkeys, -, rfl⟩ := ofQuery_update hkind h
    exact ⟨keys, hkeys, rfl, nofun⟩
  | delete =>
    obtain ⟨keys, hkeys, -, rfl⟩ := ofQuery_delete hkind h
    exact ⟨keys, hkeys, rfl, nofun⟩

theorem storedValues_eq_nil_iff (table : TableRef) (values : List (String × Value)) :
    storedValues schema table values = [] ↔ values = [] := by
  unfold storedValues
  cases modelOf? schema [table] table.aliasName with
  | none => exact Iff.rfl
  | some found => exact List.map_eq_nil_iff

/-- Every name with a value is written. -/
theorem storedForm_eq_nil_iff {values : List (String × Option Value)}
    (h : ∀ entry ∈ values, entry.2.isSome = true) :
    storedForm model storage values = [] ↔ values = [] := by
  cases values with
  | nil => exact ⟨fun _ => rfl, fun _ => rfl⟩
  | cons entry values =>
    obtain ⟨name, value?⟩ := entry
    obtain ⟨v, rfl⟩ : ∃ v, value? = some v :=
      Option.isSome_iff_exists.mp (h (name, value?) List.mem_cons_self)
    exact ⟨nofun, nofun⟩

/-- The tree of a query is an update that sets nothing exactly if the query is one. -/
theorem updates_nothing_iff (hvalues : ∀ entry ∈ query.values, entry.2.isSome = true)
    (h : ofQuery schema storage model query = .ok expansion) {e : Error} :
    (∃ table predicates, expansion.tree.stored schema = .update table [] predicates
        ∧ e = .query (.nothingToSet table.table))
      ↔ query.kind = .update ∧ query.values = []
        ∧ e = .query (.nothingToSet (baseTable model query).table) := by
  cases hkind : query.kind with
  | select =>
    obtain ⟨_, _, _, -, -, -, rfl⟩ := ofQuery_select hkind h
    exact ⟨nofun, nofun⟩
  | insert =>
    obtain ⟨_, -, h⟩ := bind_eq_ok.mp h
    rw [hkind] at h
    rw [← Except.ok.inj h]
    exact ⟨nofun, nofun⟩
  | delete =>
    obtain ⟨_, -, -, rfl⟩ := ofQuery_delete hkind h
    exact ⟨nofun, nofun⟩
  | update =>
    obtain ⟨keys, -, -, rfl⟩ := ofQuery_update hkind h
    have hnothing := (@storedValues_eq_nil_iff schema (baseTable model query)
      (storedForm model storage query.values)).trans (storedForm_eq_nil_iff hvalues)
    constructor
    · rintro ⟨table, predicates, htree, rfl⟩
      obtain ⟨rfl, hempty, -⟩ := Tree.update.inj htree
      exact ⟨rfl, hnothing.mp hempty, rfl⟩
    · rintro ⟨-, hempty, rfl⟩
      refine ⟨baseTable model query, (comparisons model (baseTable model query) storage
        query.conditions keys).map (·.stored schema [baseTable model query]), ?_, rfl⟩
      rw [Tree.stored, hnothing.mpr hempty]

end Expansion

/-! ## Compiling -/

open Expansion

variable {schema : Schema} {storage : DateStorage} {model : Model} {query : Query}
  {expansion : Expansion}

/-- **A query compiles unless it is an update that sets nothing.** Every query that a descriptor
stands for, or that an operation makes, has conditions with the operands that their operators take,
and so have all comparisons of its statement and of the count, however deep they stand. So the count
compiles, and the statement is refused only if the query is an update without values: no operator
ever lacks its value. -/
theorem Query.Produced.compiles (hquery : query.Produced)
    (h : ofQuery schema storage model query = .ok expansion) :
    (∀ c ∈ query.conditions, c.Formed)
      ∧ (∀ p ∈ (expansion.tree.stored schema).allPredicates, p.Formed)
      ∧ (∀ count, expansion.count? = some count →
          ∀ p ∈ (count.stored schema).allPredicates, p.Formed)
      ∧ (∃ st?, Repository.countStatement? schema expansion.count? = .ok st?)
      ∧ ∀ e, (expansion.tree.stored schema).statement = .error e
          ↔ query.kind = .update ∧ query.values = []
            ∧ e = .query (.nothingToSet (baseTable model query).table) := by
  obtain ⟨keys, -, htree, hcounted⟩ := allPredicates_ofQuery h
  have hcompared := @formed_comparisons storage model (baseTable model query) _
    hquery.formed.conditions keys
  have hformed : ∀ p ∈ (expansion.tree.stored schema).allPredicates, p.Formed := by
    refine formed_of_operands (expansion.tree.operands_stored schema) ?_
    rw [htree]
    split
    · exact List.forall_mem_nil _
    · exact hcompared
  have hcount : ∀ count, expansion.count? = some count →
      ∀ p ∈ (count.stored schema).allPredicates, p.Formed := by
    intro count hsome
    refine formed_of_operands (count.operands_stored schema) ?_
    rw [hcounted count hsome]
    exact hcompared
  refine ⟨hquery.formed.conditions, hformed, hcount, ?_, fun e => ?_⟩
  · cases hcase : expansion.count? with
    | none => exact ⟨none, rfl⟩
    | some count =>
      cases hst : (Tree.select (count.stored schema)).statement with
      | ok st =>
        refine ⟨some st, ?_⟩
        show some <$> (Tree.select (count.stored schema)).statement = _
        rw [hst]
        rfl
      | error e =>
        have hselect : ∀ p ∈ (Tree.select (count.stored schema)).allPredicates, p.Formed :=
          hcount count hcase
        obtain ⟨_, _, hupdate, -⟩ := (Tree.statement_eq_error_iff hselect).mp hst
        exact absurd hupdate nofun
  · rw [Tree.statement_eq_error_iff hformed]
    exact updates_nothing_iff hquery.formed.values h

/-- None of the users, loaded with their posts. -/
def noUsersWithPosts : Descriptor :=
  .ofFields [("include", .str "user_posts"), ("where", .obj [("id", .obj [("$in", .arr [])])])]

/-- An update of a user that says nothing about the values. -/
def idleUpdate : Descriptor :=
  .ofFields [("type", .str "update"), ("where", .obj [("id", .int 1)])]

/-- The tree for a descriptor of users. -/
def expandedUsers (d : Descriptor) : Result Expansion := do
  let query ← Query.ofDescriptor Repository.users.mapping.config d
  ofQuery Repository.users.mapping.schema .datetime Repository.users.model query

/-- The search compiles, although its list is empty. The update is refused. -/
theorem Query.Produced.compiles_idleUpdate :
    (∃ found, expandedUsers noUsersWithPosts = .ok found
        ∧ ∃ st, (found.tree.stored Repository.users.mapping.schema).statement = .ok st)
      ∧ ∃ idle, expandedUsers idleUpdate = .ok idle
        ∧ (idle.tree.stored Repository.users.mapping.schema).statement
          = .error (.query (.nothingToSet "user")) := by
  constructor
  · have hkind : (Query.ofDescriptor Repository.users.mapping.config noUsersWithPosts).toOption.map
        (·.kind) = some .select := by decide +kernel
    have hok : (expandedUsers noUsersWithPosts).isOk = true := by decide +kernel
    cases hfound : expandedUsers noUsersWithPosts with
    | error e =>
      rw [hfound] at hok
      exact absurd hok Bool.false_ne_true
    | ok found =>
      obtain ⟨query, hquery, hexpansion⟩ := bind_eq_ok.mp hfound
      obtain ⟨-, -, -, -, hfails⟩ := Query.Produced.compiles (.descriptor hquery) hexpansion
      rw [hquery] at hkind
      have hselect : query.kind = .select := Option.some.inj hkind
      refine ⟨found, rfl, ?_⟩
      cases hst : (found.tree.stored Repository.users.mapping.schema).statement with
      | ok st => exact ⟨st, rfl⟩
      | error e =>
        have hupdate : query.kind = .update := ((hfails e).mp hst).1
        rw [hupdate] at hselect
        exact absurd hselect (by decide)
  · have hparts : (Query.ofDescriptor Repository.users.mapping.config idleUpdate).toOption.map
        (fun query => (query.kind, query.values.length, query.table?))
          = some (.update, 0, none) := by decide +kernel
    have hok : (expandedUsers idleUpdate).isOk = true := by decide +kernel
    cases hidle : expandedUsers idleUpdate with
    | error e =>
      rw [hidle] at hok
      exact absurd hok Bool.false_ne_true
    | ok idle =>
      obtain ⟨query, hquery, hexpansion⟩ := bind_eq_ok.mp hidle
      obtain ⟨-, -, -, -, hfails⟩ := Query.Produced.compiles (.descriptor hquery) hexpansion
      rw [hquery] at hparts
      obtain ⟨hkind, hparts⟩ := Prod.mk.inj (Option.some.inj hparts)
      obtain ⟨hvalues, htable⟩ := Prod.mk.inj hparts
      refine ⟨idle, rfl, (hfails _).mpr ⟨hkind, List.length_eq_zero_iff.mp hvalues, ?_⟩⟩
      rw [baseTable, htable]
      rfl

end RecordMapping
