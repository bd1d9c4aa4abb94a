import Mathlib.Data.List.Pairwise
import RecordMapping.Proofs.Query.Relating

/-!
# Aliases of tables

A select tells its tables apart by their aliases: names of tables, aliases of relations, and aliases
that are made up for junctions and for the derived table of keys. Not every clash is refused.

* `Expansion.selects`: the selects of an expansion, those of derived tables among them;
* `nodup_linkJoins_iff`: conditions never join two tables under one alias, but one of them may take
  the alias of the query's own table;
* `nodup_loadingSelect_iff`: relations are loaded under different aliases, but the junction of one
  of them may take the alias of another one, or that of the query's own table;
* `aliases_nodup_iff`: these are all clashes that there are.
-/

namespace RecordMapping

open Sql

namespace Sql

/-- The aliases of the tables of a select. -/
def Select.aliases (s : Select) : List String := s.tables.map (·.aliasName)

/-! ## Levels of a select -/

mutual

/-- A select, and the selects of its derived tables, to any depth. -/
def Select.levels : Select → List Select
  | ⟨distinct, table, items, joins, predicates, groupBy, order, limit?, offset?⟩ =>
    ⟨distinct, table, items, joins, predicates, groupBy, order, limit?, offset?⟩
      :: joinLevels joins

/-- The selects of the derived tables among joins. -/
def joinLevels : List (Join Select) → List Select
  | [] => []
  | ⟨_, _, derived?, _⟩ :: rest => derivedLevels derived? ++ joinLevels rest

/-- The selects of a derived table. -/
def derivedLevels : Option Select → List Select
  | none => []
  | some s => s.levels

end

theorem Select.levels_eq (s : Select) : s.levels = s :: joinLevels s.joins := by
  cases s
  rw [Select.levels]

theorem joinLevels_of_joinsTables {joins : List (Join Select)} (h : JoinsTables joins) :
    joinLevels joins = [] := by
  induction joins with
  | nil => rfl
  | cons join joins ih =>
    rcases join with ⟨kind, table, derived?, on⟩
    obtain rfl : derived? = none := h _ List.mem_cons_self
    exact ih fun other hother => h other (List.mem_cons_of_mem _ hother)

/-- Stored tables have no levels of their own. -/
theorem Select.levels_of_joinsTables {s : Select} (h : JoinsTables s.joins) : s.levels = [s] := by
  rw [levels_eq, joinLevels_of_joinsTables h]

end Sql

/-! ## Aliases of loaded relations -/

namespace Included

/-- The alias of the junction that a relation is loaded through, if it is loaded through one. -/
def throughAlias? (relation : Included) : Option String :=
  match relation.relation.kind, relation.relation.junction? with
  | .belongsTo, _ => none
  | _, some _ => some (relation.aliasName ++ "_through")
  | _, none => none

/-- The aliases under which a relation is loaded. -/
def aliases (relation : Included) : List String :=
  relation.throughAlias?.toList ++ [relation.aliasName]

theorem throughAlias?_eq_some {relation : Included} {aliasName : String}
    (h : relation.throughAlias? = some aliasName) :
    aliasName = relation.aliasName ++ "_through" := by
  unfold throughAlias? at h
  split at h
  · exact absurd h nofun
  · exact (Option.some.inj h).symm
  · exact absurd h nofun

theorem mem_aliases {relation : Included} {aliasName : String} :
    aliasName ∈ relation.aliases
      ↔ relation.throughAlias? = some aliasName ∨ aliasName = relation.aliasName := by
  simp [aliases]

/-- The junction of a relation has an alias that is neither that of the records' own table nor that
of a loaded relation. -/
def Unhindered (base : TableRef) (included : List Included) (relation : Included) : Prop :=
  ∀ aliasName, relation.throughAlias? = some aliasName →
    aliasName ≠ base.aliasName ∧ ∀ other ∈ included, other.aliasName ≠ aliasName

theorem throughAlias?_ne_some (relation : Included) :
    relation.throughAlias? ≠ some relation.aliasName := by
  intro h
  have hlength := congrArg String.length (throughAlias?_eq_some h)
  simp at hlength

/-- Junctions under one alias belong to relations under one alias. -/
theorem aliasName_eq_of_through {relation other : Included} {aliasName : String}
    (h : relation.throughAlias? = some aliasName) (hother : other.throughAlias? = some aliasName) :
    relation.aliasName = other.aliasName := by
  have hsame := (throughAlias?_eq_some h).symm.trans (throughAlias?_eq_some hother)
  simpa [← String.toList_inj] using hsame

/-- The aliases of one relation are different. -/
theorem nodup_aliases (relation : Included) : relation.aliases.Nodup := by
  unfold aliases
  cases hthrough : relation.throughAlias? with
  | none => exact List.nodup_singleton _
  | some aliasName =>
    have hne : aliasName ≠ relation.aliasName := by
      rintro rfl
      exact throughAlias?_ne_some relation hthrough
    simpa using hne

end Included

namespace Expansion

variable {schema : Schema} {model : Model} {base : TableRef} {storage : DateStorage}

/-- The aliases of a relation are those of the tables that load it. -/
theorem aliases_loadingJoins (relation : Included) :
    (loadingJoins base model relation).map (·.table.aliasName) = relation.aliases := by
  rcases relation with ⟨aliasName, ⟨kind, _, _, _, _, junction?⟩, target⟩
  cases kind <;> cases junction? <;> rfl

theorem hasAlias_iff {joins : List (Join Select)} {aliasName : String} :
    hasAlias joins aliasName = true ↔ aliasName ∈ joins.map (·.table.aliasName) := by
  simp [hasAlias]

/-- An alias is passed over, or one more relation is loaded, under an alias that no table has that
was joined before. -/
theorem loadRelation_eq_ok {loading loading' : Loading} {aliasName : String}
    (h : loadRelation schema model base loading aliasName = .ok loading') :
    loading' = loading ∨ ∃ relation : Included,
      loading'.included = loading.included ++ [relation]
        ∧ relation.aliasName ∉ loading.joins.map (·.table.aliasName) := by
  unfold loadRelation at h
  split at h
  · exact .inl (Except.ok.inj h).symm
  · split at h
    · exact .inl (Except.ok.inj h).symm
    · rename_i r _
      split at h
      · exact absurd h nofun
      · rename_i hfree
        rcases bind_eq_ok.mp h with ⟨target, -, h⟩
        refine .inr ⟨⟨aliasName, r, target⟩, by rw [← Except.ok.inj h], fun hmem => hfree ?_⟩
        rw [hasAlias_iff.mpr hmem, Bool.or_true]

/-- No relation is loaded under an alias of one before it. -/
def Ahead (included : List Included) : Prop :=
  included.Pairwise fun before after => after.aliasName ∉ before.aliases

/-- Loaded relations keep clear of the aliases before them. -/
theorem ahead_of_loadRelations {loading : Loading} {aliases : List String}
    (h : loadRelations schema model base aliases = .ok loading) : Ahead loading.included := by
  -- what was joined before are the tables of the relations before
  refine (foldlM_invariant (P := fun loading => Loaded schema model base loading
    ∧ Ahead loading.included) (fun loading aliasName loading' hloading h => ?_)
    ⟨loaded_nil, .nil⟩ h).2
  refine ⟨loaded_loadRelation h hloading.1, ?_⟩
  rcases loadRelation_eq_ok h with rfl | ⟨relation, hincluded, hfree⟩
  · exact hloading.2
  · rw [hincluded]
    refine List.pairwise_append.mpr ⟨hloading.2, List.pairwise_singleton _ _, ?_⟩
    intro before hbefore after hafter hmem
    rw [List.mem_singleton.mp hafter, ← @aliases_loadingJoins model base] at hmem
    apply hfree
    rw [hloading.1.joins, List.map_flatMap]
    exact List.mem_flatMap.mpr ⟨before, hbefore, hmem⟩

/-! ## Aliases of the select that loads relations -/

theorem through_ne_pageAlias (aliasName : String) :
    aliasName ++ "_through" ≠ pageAlias base := by
  intro h
  have hlast := congrArg (·.toList.getLast?) h
  simp [pageAlias] at hlast

theorem pageAlias_ne_alias : pageAlias base ≠ base.aliasName := by
  intro h
  have hlength := congrArg String.length h
  simp [pageAlias] at hlength

/-- The aliases of relations that are loaded one after the other are different if no junction has
that of a loaded relation. -/
theorem nodup_flatMap_aliases_iff {included : List Included}
    (hdistinct : (included.map (·.aliasName)).Nodup) (hahead : Ahead included) :
    (included.flatMap Included.aliases).Nodup
      ↔ ∀ relation ∈ included, ∀ aliasName, relation.throughAlias? = some aliasName →
        ∀ other ∈ included, other.aliasName ≠ aliasName := by
  rw [List.nodup_flatMap]
  constructor
  · rintro ⟨-, hpairs⟩ relation hrelation aliasName hthrough other hother rfl
    have hapart : relation ≠ other := by
      rintro rfl
      exact Included.throughAlias?_ne_some relation hthrough
    have _ : Std.Symm (Function.onFun List.Disjoint Included.aliases) :=
      ⟨fun _ _ h _ hmem hother => h hother hmem⟩
    exact hpairs.forall hrelation hother hapart
      (Included.mem_aliases.mpr (.inl hthrough)) (Included.mem_aliases.mpr (.inr rfl))
  · intro h
    refine ⟨fun relation _ => relation.nodup_aliases, ?_⟩
    refine ((List.pairwise_map.mp hdistinct).and hahead).imp_of_mem ?_
    rintro before after hbefore hafter ⟨hnames, hfree⟩ aliasName hmem hmem'
    rcases Included.mem_aliases.mp hmem' with hthrough' | rfl
    · rcases Included.mem_aliases.mp hmem with hthrough | rfl
      · exact hnames (Included.aliasName_eq_of_through hthrough hthrough')
      · exact h after hafter _ hthrough' before hbefore rfl
    · exact hfree hmem

variable {columns : List String} {plain : Select} {loading : Loading}

/-- The aliases of a loading select. -/
theorem aliases_loadingSelect (hloaded : Loaded schema model base loading) :
    (loadingSelect model base columns plain loading).aliases
      = base.aliasName :: pageAlias base :: loading.included.flatMap Included.aliases := by
  have haliases : (loading.included.flatMap (loadingJoins base model)).map (·.table.aliasName)
      = loading.included.flatMap Included.aliases := by
    rw [List.map_flatMap]
    exact List.flatMap_congr fun relation _ => aliases_loadingJoins relation
  rw [Select.aliases, tables_loadingSelect hloaded, List.map_cons, List.map_cons, List.map_map,
    ← haliases]
  rfl

/-- The page alias is taken by no relation, and no junction has an alias that ends like it. -/
theorem pageAlias_not_mem
    (hpage : ∀ relation ∈ loading.included, relation.aliasName ≠ pageAlias base) :
    pageAlias base ∉ loading.included.flatMap Included.aliases := by
  intro hmem
  rcases List.mem_flatMap.mp hmem with ⟨relation, hrelation, hmem⟩
  rcases Included.mem_aliases.mp hmem with hthrough | halias
  · exact through_ne_pageAlias _ (Included.throughAlias?_eq_some hthrough).symm
  · exact hpage relation hrelation halias.symm

/-- Relations that are loaded beside a page have different aliases, unless the junction of one of
them takes that of another one, or that of the records' own table. -/
theorem nodup_loadingSelect_iff (hloaded : Loaded schema model base loading)
    (hahead : Ahead loading.included)
    (hpage : ∀ relation ∈ loading.included, relation.aliasName ≠ pageAlias base) :
    (loadingSelect model base columns plain loading).aliases.Nodup
      ↔ ∀ relation ∈ loading.included, relation.Unhindered base loading.included := by
  have hbase : base.aliasName ∉ loading.included.flatMap Included.aliases
      ↔ ∀ relation ∈ loading.included, ∀ aliasName, relation.throughAlias? = some aliasName →
        aliasName ≠ base.aliasName := by
    constructor
    · rintro hfree relation hrelation aliasName hthrough rfl
      exact hfree (List.mem_flatMap.mpr ⟨relation, hrelation, Included.mem_aliases.mpr
        (.inl hthrough)⟩)
    · intro hfree hmem
      rcases List.mem_flatMap.mp hmem with ⟨relation, hrelation, hmem⟩
      rcases Included.mem_aliases.mp hmem with hthrough | halias
      · exact hfree relation hrelation _ hthrough rfl
      · exact hloaded.apart relation hrelation halias.symm
  rw [aliases_loadingSelect hloaded, List.nodup_cons, List.nodup_cons, List.mem_cons, not_or, hbase,
    nodup_flatMap_aliases_iff hloaded.distinct hahead]
  constructor
  · rintro ⟨⟨-, hfree⟩, -, hothers⟩ relation hrelation aliasName hthrough
    exact ⟨hfree relation hrelation aliasName hthrough,
      hothers relation hrelation aliasName hthrough⟩
  · intro h
    exact ⟨⟨pageAlias_ne_alias.symm, fun relation hrelation aliasName hthrough =>
        (h relation hrelation aliasName hthrough).1⟩, pageAlias_not_mem hpage,
      fun relation hrelation aliasName hthrough => (h relation hrelation aliasName hthrough).2⟩

/-! ## Aliases of the selects with the conditions -/

/-- What the links of conditions join is under their aliases. -/
theorem mem_aliases_linkJoins {keys : List (ColumnRef × Option Link)} {aliasName : String} :
    aliasName ∈ (linkJoins model base keys []).map (·.table.aliasName)
      ↔ ∃ link ∈ keys.filterMap (·.2), link.table.aliasName = aliasName := by
  -- an alias is joined if some link is under it
  have hfind := congrArg Option.isSome (@joinUnder?_linkJoins model base keys [] aliasName)
  have hnone : joinUnder? [] aliasName = none := rfl
  rw [hnone, Option.none_or, Option.isSome_map, joinUnder?, linkUnder?, List.isSome_find?,
    List.isSome_find?, ← hasAlias] at hfind
  rw [← hasAlias_iff, hfind, List.any_eq_true]
  exact exists_congr fun link => and_congr_right fun _ => beq_iff_eq

/-- Conditions never join two tables under one alias, but one of them may take that of the query's
own table. -/
theorem nodup_linkJoins_iff (keys : List (ColumnRef × Option Link)) :
    (base.aliasName :: (linkJoins model base keys []).map (·.table.aliasName)).Nodup
      ↔ ∀ link ∈ keys.filterMap (·.2), link.table.aliasName ≠ base.aliasName := by
  have hdistinct : ((linkJoins model base keys []).map (·.table.aliasName)).Nodup :=
    distinctAliases_linkJoins keys List.nodup_nil
  rw [List.nodup_cons, mem_aliases_linkJoins, and_iff_left hdistinct]
  simp only [not_exists, not_and, ne_eq]

/-- The selects of an expansion: the one that counts, the one of the statement, and those of derived
tables. -/
def selects (expansion : Expansion) : List Select :=
  expansion.count?.toList.flatMap Select.levels ++
    match expansion.tree with
    | .select s => s.levels
    | _ => []

/-- A loading select has the derived table of keys under it. -/
theorem levels_loadingSelect (hplain : JoinsTables plain.joins)
    (hloading : JoinsTables loading.joins) :
    (loadingSelect model base columns plain loading).levels
      = [loadingSelect model base columns plain loading, keySelect model base plain] := by
  have hkeys : (keySelect model base plain).levels = [keySelect model base plain] :=
    Select.levels_of_joinsTables hplain
  have hjoins : joinLevels (loadingSelect model base columns plain loading).joins
      = (keySelect model base plain).levels ++ joinLevels loading.joins := rfl
  rw [Select.levels_eq, hjoins, hkeys, joinLevels_of_joinsTables hloading]
  rfl

/-- No relation is loaded under the alias of the derived table. -/
theorem pageAlias_of_pagedSelect {select : Select}
    (h : pagedSelect model base columns plain loading = .ok select) :
    (∀ relation ∈ loading.included, relation.aliasName ≠ pageAlias base)
      ∧ select = loadingSelect model base columns plain loading := by
  unfold pagedSelect at h
  split at h
  · exact absurd h nofun
  · rename_i hfree
    exact ⟨by simpa using hfree, (Except.ok.inj h).symm⟩

variable {storage : DateStorage} {query : Query} {expansion : Expansion}

theorem selects_eq {count select : Select} (hcount : expansion.count? = some count)
    (htree : expansion.tree = .select select) :
    expansion.selects = count.levels ++ select.levels := by
  unfold selects
  rw [hcount, htree, Option.toList_some, List.flatMap_singleton]

/-- The select of a query whose keys are resolved, without loaded relations. -/
def plainOf (schema : Schema) (storage : DateStorage) (model : Model) (query : Query)
    (keys : List (ColumnRef × Option Link)) : Select :=
  plainSelect (baseTable model query) query (queryJoins schema model query keys)
    (comparisons model (baseTable model query) storage query.conditions keys)

/-- The select that counts the records of a query whose keys are resolved. -/
def countOf (schema : Schema) (storage : DateStorage) (model : Model) (query : Query)
    (keys : List (ColumnRef × Option Link)) : Select :=
  countSelect model (baseTable model query) (queryJoins schema model query keys)
    (comparisons model (baseTable model query) storage query.conditions keys)

/-- A query is expanded to the select that counts and the plain one, or to the select that counts,
the loading one and the one of keys. -/
theorem ofQuery_selects (hkind : query.kind = .select)
    (h : ofQuery schema storage model query = .ok expansion) :
    ∃ keys loading, Resolves schema model (baseTable model query) query.conditions keys
      ∧ loadRelations schema model (baseTable model query) query.includes = .ok loading
      ∧ expansion.included = loading.included
      ∧ expansion.count? = some (countOf schema storage model query keys)
      ∧ let plain := plainOf schema storage model query keys
        let select := loadingSelect model (baseTable model query) query.columns plain loading
        (loading.included = [] ∧ expansion.tree = .select plain
          ∧ expansion.selects = [countOf schema storage model query keys, plain])
        ∨ (loading.included ≠ []
          ∧ (∀ relation ∈ loading.included, relation.aliasName ≠ pageAlias (baseTable model query))
          ∧ expansion.tree = .select select
          ∧ expansion.selects = [countOf schema storage model query keys, select,
            keySelect model (baseTable model query) plain]) := by
  rcases ofQuery_select hkind h with ⟨keys, loading, select, hkeys, hloading, hselect, rfl⟩
  have hcount : (countOf schema storage model query keys).levels
      = [countOf schema storage model query keys] :=
    Select.levels_of_joinsTables (joinsTables_queryJoins query keys)
  have hplain : (plainOf schema storage model query keys).levels
      = [plainOf schema storage model query keys] :=
    Select.levels_of_joinsTables (joinsTables_queryJoins query keys)
  have hselects : selects ⟨.select select, some (countOf schema storage model query keys),
      loading.included, (baseTable model query).aliasName⟩
      = countOf schema storage model query keys :: select.levels :=
    (selects_eq rfl rfl).trans (by rw [hcount, List.singleton_append])
  refine ⟨keys, loading, hkeys, hloading, rfl, rfl, ?_⟩
  unfold selectWith at hselect
  split at hselect
  · rename_i hnone
    obtain rfl := Except.ok.inj hselect
    exact .inl ⟨List.isEmpty_iff.mp hnone, rfl, hselects.trans (congrArg (_ :: ·) hplain)⟩
  · rename_i hsome
    rcases pageAlias_of_pagedSelect hselect with ⟨hpage, rfl⟩
    refine .inr ⟨fun hnone => hsome (List.isEmpty_iff.mpr hnone), hpage, rfl, ?_⟩
    exact hselects.trans (congrArg (_ :: ·) (levels_loadingSelect
      (joinsTables_queryJoins query keys) (joinsTables_loadRelations hloading)))

/-- **Which clashes of aliases are let through.** Take a query that asks for no joins. In the select
that counts, in the select of the statement and in the derived table of keys, the aliases of all
tables are different exactly under two conditions: no condition of the query joins a table under the
alias of the query's own table, and every junction that a relation is loaded through has an alias
apart from that table and from all loaded relations. Other clashes are refused. That of a relation
with a junction is refused only where the relation comes after it: no relation has the alias of a
junction that was joined before. -/
theorem aliases_nodup_iff (hkind : query.kind = .select) (hjoins : query.joins = [])
    (h : ofQuery schema storage model query = .ok expansion) :
    ((∀ select ∈ expansion.selects, select.aliases.Nodup)
        ↔ (∀ condition ∈ query.conditions, ∀ link,
            linkFor schema model condition.column = some link →
              link.table.aliasName ≠ (baseTable model query).aliasName)
          ∧ ∀ relation ∈ expansion.included,
            relation.Unhindered (baseTable model query) expansion.included)
      ∧ Ahead expansion.included := by
  rcases ofQuery_selects hkind h with ⟨keys, loading, hkeys, hloading, hincluded, -, hselects⟩
  have hloaded := loaded_of_loadRelations hloading
  have hahead := ahead_of_loadRelations hloading
  rw [hincluded]
  refine ⟨?_, hahead⟩
  -- the page is cut by the tables that are counted
  have hplain {s : Select} (htable : s.table = baseTable model query)
      (hs : s.joins = queryJoins schema model query keys) : s.aliases.Nodup
        ↔ ∀ condition ∈ query.conditions, ∀ link,
          linkFor schema model condition.column = some link →
            link.table.aliasName ≠ (baseTable model query).aliasName := by
    rw [Select.aliases, Select.tables, htable, hs, queryJoins_eq_linkJoins keys hjoins,
      List.map_cons, List.map_map]
    refine (nodup_linkJoins_iff keys).trans ?_
    rw [links_of_resolves hkeys]
    simp only [List.mem_filterMap, forall_exists_index, and_imp]
    exact ⟨fun h condition hmem link hlink => h link condition hmem hlink,
      fun h link condition hmem hlink => h condition hmem link hlink⟩
  rcases hselects with ⟨hnone, -, hselects⟩ | ⟨-, hpage, -, hselects⟩
  · rw [hselects, List.forall_mem_cons, List.forall_mem_singleton, hplain rfl rfl, hplain rfl rfl,
      and_self, hnone, and_iff_left (List.forall_mem_nil _)]
  · rw [hselects, List.forall_mem_cons, List.forall_mem_cons, List.forall_mem_singleton,
      nodup_loadingSelect_iff hloaded hahead hpage, hplain rfl rfl, hplain rfl rfl]
    exact ⟨fun h => ⟨h.1, h.2.1⟩, fun h => ⟨h.1, h.2, h.1⟩⟩

/-- Posts with their tags, and with the rows of the junction table, which are loaded under the alias
that the junction of the tags has. -/
def taggings : Schema where
  models := [("Post", ⟨"Post", some "posts", "id", []⟩),
    ("PostTag", ⟨"PostTag", some "post_tag", "id", []⟩),
    ("Tag", ⟨"Tag", some "tags", "id", []⟩)]
  relations := ⟨[
    ⟨.hasMany, "tags", "Post", "Tag", "post_id", some ⟨"PostTag", "post_tag", "tag_id"⟩⟩,
    ⟨.hasMany, "tags_through", "Post", "PostTag", "post_id", none⟩], []⟩

/-- The model of posts. -/
def posts : Model := ⟨"Post", some "posts", "id", []⟩

/-- The query for posts, with the given relations. -/
def postsWith (includes : List String) : Query := { Query.empty .select with includes }

/-- Loaded in one order, both tables have the alias `tags_through`; in the other one they are
refused. -/
theorem aliases_nodup_iff_taggings : ∃ expansion,
    (postsWith ["tags_through", "tags"]).kind = .select
      ∧ (postsWith ["tags_through", "tags"]).joins = []
      ∧ ofQuery taggings .epoch posts (postsWith ["tags_through", "tags"]) = .ok expansion
      ∧ (¬ ∀ select ∈ expansion.selects, select.aliases.Nodup)
      ∧ ofQuery taggings .epoch posts (postsWith ["tags", "tags_through"])
        = .error (.relationship (.includeCollision "tags_through")) := by
  have hexpansion :
      ofQuery taggings .epoch posts (postsWith ["tags_through", "tags"]) = .ok _ := rfl
  refine ⟨_, rfl, rfl, hexpansion, fun hnodup => ?_, rfl⟩
  have hunhindered := ((aliases_nodup_iff rfl rfl hexpansion).1.mp hnodup).2
  -- the junction of the second relation has the alias of the first one
  have htags := (hunhindered _ (.tail _ (.head _)) _ rfl).2
  exact htags _ (.head _) rfl

end Expansion

end RecordMapping
