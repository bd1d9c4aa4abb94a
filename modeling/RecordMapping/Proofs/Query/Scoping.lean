import Mathlib.Tactic.MkIffOfInductiveProp
import RecordMapping.Proofs.Query.Aliases

/-!
# Columns in scope

Each select is a scope of its own: its columns are those of the tables that it names itself, and of
a derived table only the columns that this returns.

* `Select.Scoped`: a select refers to nothing else;
* `scoped_of_queryJoins`: so it is for the selects that have the conditions of a query, as long as
  the query names only its own table and those that it asks to join;
* `scoped_loadingSelect_iff`: the select that loads relations around a page has the order of the
  query, but not the tables that the query asks to join;
* `selects_scoped_iff` collects both.
-/

namespace RecordMapping

open Sql

namespace Sql

/-! ## References -/

/-- The columns that an item refers to. -/
def SelectItem.refs : SelectItem → List ColumnRef
  | all _ => []
  | column ref _ => [ref]
  | countDistinct ref _ => [ref]

/-- The names under which an item is returned, as far as the statement tells them. -/
def SelectItem.returned : SelectItem → List String
  | all _ => []
  | column ref output => [output.apply ref.column]
  | countDistinct _ output => [output]

/-- The columns that an operand refers to. -/
def Operand.refs : Operand → List ColumnRef
  | column ref => [ref]
  | value _ => []

namespace Select

/-- The columns that joins are made on. -/
def joinRefs (joins : List (Join Select)) : List ColumnRef :=
  joins.flatMap fun join => join.on.flatMap fun pair => pair.1 :: pair.2.refs

/-- All columns that a select refers to, clause by clause. -/
def refs (s : Select) : List ColumnRef :=
  s.items.flatMap SelectItem.refs ++ joinRefs s.joins ++ s.predicates.map (·.column) ++ s.groupBy
    ++ s.order.map (·.column)

/-- The names of the columns that a select returns. -/
def returned (s : Select) : List String := s.items.flatMap SelectItem.returned

/-- A select refers to its own tables only, and to what its derived tables return. -/
@[mk_iff scoped_iff]
structure Scoped (s : Select) : Prop where
  whole : ∀ aliasName, .all aliasName ∈ s.items → aliasName ∈ s.aliases
  refs : ∀ ref ∈ s.refs, ref.table ∈ s.aliases
  derived : ∀ join ∈ s.joins, ∀ inner, join.derived? = some inner →
    ∀ ref ∈ s.refs, ref.table = join.table.aliasName → ref.column ∈ inner.returned

end Select

variable {schema : Schema}

/-! ## Storage columns -/

theorem SelectItem.refs_stored (tables : List TableRef) (item : SelectItem) :
    (item.stored schema tables).refs = item.refs.map (·.stored schema tables) := by
  cases item <;> rfl

theorem Operand.refs_stored (tables : List TableRef) (operand : Operand) :
    (operand.stored schema tables).refs = operand.refs.map (·.stored schema tables) := by
  cases operand <;> rfl

theorem Select.joinRefs_stored (tables : List TableRef) (joins : List (Join Select)) :
    joinRefs (storedJoins schema tables joins)
      = (joinRefs joins).map (·.stored schema tables) := by
  rw [storedJoins_eq_map]
  simp only [joinRefs, Join.withStorage, storedOn, List.flatMap_map, List.map_flatMap,
    List.map_cons, Operand.refs_stored]

/-- Under storage names a select refers to the same columns. -/
theorem Select.refs_stored (s : Select) :
    (s.stored schema).refs = s.refs.map (·.stored schema s.tables) := by
  rw [stored_eq]
  simp only [refs, joinRefs_stored, List.map_append, List.flatMap_map, List.map_flatMap,
    SelectItem.refs_stored, List.map_map, Predicate.stored, OrderTerm.stored, Function.comp_def]

theorem Select.aliases_stored (s : Select) : (s.stored schema).aliases = s.aliases := by
  rw [aliases, stored_tables, aliases]

theorem storedDerived_eq_some {derived? : Option Select} {inner : Select} :
    storedDerived schema derived? = some inner
      ↔ ∃ source, derived? = some source ∧ source.stored schema = inner := by
  cases derived? with
  | none => exact ⟨nofun, fun ⟨_, h, _⟩ => nomatch h⟩
  | some source => simp [storedDerived]

theorem Select.all_mem_stored {s : Select} {aliasName : String} :
    .all aliasName ∈ (s.stored schema).items ↔ .all aliasName ∈ s.items := by
  rw [stored_eq]
  refine ⟨fun h => ?_, fun h => List.mem_map.mpr ⟨_, h, rfl⟩⟩
  rcases List.mem_map.mp h with ⟨item, hitem, hall⟩
  cases item with
  | all other => exact hall ▸ hitem
  | column ref output => exact absurd hall nofun
  | countDistinct ref output => exact absurd hall nofun

/-- Storage names have no part in which tables a select refers to. -/
theorem Select.scoped_stored_iff {s : Select} :
    (s.stored schema).Scoped
      ↔ (∀ aliasName, .all aliasName ∈ s.items → aliasName ∈ s.aliases)
        ∧ (∀ ref ∈ s.refs, ref.table ∈ s.aliases)
        ∧ ∀ join ∈ s.joins, ∀ inner, join.derived? = some inner →
          ∀ ref ∈ s.refs, ref.table = join.table.aliasName →
            (ref.stored schema s.tables).column ∈ (inner.stored schema).returned := by
  rw [scoped_iff]
  simp only [all_mem_stored, aliases_stored, refs_stored, stored_joins, storedJoins_eq_map,
    List.forall_mem_map, ColumnRef.table_stored, Join.withStorage, storedDerived_eq_some,
    forall_exists_index, and_imp, forall_apply_eq_imp_iff₂]

/-! ## Selects under storage names -/

mutual

/-- The levels of a select under storage names are those of the select. -/
theorem Select.levels_stored : (s : Select) →
    (s.stored schema).levels = s.levels.map (·.stored schema)
  | ⟨distinct, table, items, joins, predicates, groupBy, order, limit?, offset?⟩ => by
    rw [Select.levels_eq, Select.levels_eq, Select.stored_joins, List.map_cons, joinLevels_stored]

theorem joinLevels_stored : (tables : List TableRef) → (joins : List (Join Select)) →
    joinLevels (storedJoins schema tables joins) = (joinLevels joins).map (·.stored schema)
  | _, [] => rfl
  | tables, ⟨kind, table, derived?, on⟩ :: rest => by
    rw [storedJoins, joinLevels, joinLevels, derivedLevels_stored, joinLevels_stored,
      List.map_append]

theorem derivedLevels_stored : (derived? : Option Select) →
    derivedLevels (storedDerived schema derived?) = (derivedLevels derived?).map (·.stored schema)
  | none => rfl
  | some s => s.levels_stored

end

end Sql

/-! ## Names in a query -/

namespace Query

/-- The tables that a query asks for: its own, and those to join. -/
def ownTables (query : Query) (base : TableRef) : List String :=
  base.aliasName :: query.joins.map (·.table)

/-- A name of a column stands alone, or has in front a table that the query asks for. -/
def NamesOwn (query : Query) (base : TableRef) (name : String) : Prop :=
  (Expansion.qualify base.aliasName name).table ∈ query.ownTables base

instance (query : Query) (base : TableRef) (name : String) :
    Decidable (query.NamesOwn base name) :=
  inferInstanceAs (Decidable (_ ∈ _))

/-- All names of columns in a query do so. -/
structure NamesOwnTables (query : Query) (base : TableRef) : Prop where
  conditions : ∀ condition ∈ query.conditions, query.NamesOwn base condition.column
  columns : ∀ name ∈ query.columns, query.NamesOwn base name
  order : ∀ term ∈ query.order, query.NamesOwn base term.1
  groups : ∀ name ∈ query.groupBy, query.NamesOwn base name
  operands : ∀ spec ∈ query.joins, ∀ pair ∈ spec.on, ∀ reference, pair.2 = .column reference →
    query.NamesOwn base reference

end Query

namespace Expansion

variable {schema : Schema} {storage : DateStorage} {model : Model} {base : TableRef} {query : Query}
  {keys : List (ColumnRef × Option Link)}

/-! ## Selects with the conditions -/

/-- The aliases in a select that has the conditions of a query. -/
def queryAliases (schema : Schema) (model : Model) (query : Query)
    (keys : List (ColumnRef × Option Link)) : List String :=
  (baseTable model query).aliasName
    :: (queryJoins schema model query keys).map (·.table.aliasName)

theorem ownTables_subset : query.ownTables (baseTable model query)
    ⊆ queryAliases schema model query keys := by
  intro aliasName hmem
  rcases List.mem_cons.mp hmem with rfl | hmem
  · exact List.mem_cons_self
  · rcases List.mem_map.mp hmem with ⟨spec, hspec, rfl⟩
    have hjoin : explicitJoin schema (baseTable model query) spec
        ∈ queryJoins schema model query keys :=
      List.mem_append_right _ (List.mem_map.mpr ⟨spec, hspec, rfl⟩)
    exact List.mem_cons_of_mem _ (List.mem_map.mpr ⟨_, hjoin, rfl⟩)

/-- A key without a link is a column of the table that it names. -/
theorem table_resolveKey {name : String} {key : ColumnRef × Option Link}
    (h : resolveKey schema model base name = .ok key) (hlink : key.2 = none) :
    key.1.table = (qualify base.aliasName name).table := by
  unfold resolveKey at h
  unfold qualify
  split at h
  · rw [← Except.ok.inj h]
  · split at h
    · -- only the key of a relation to one needs no link
      unfold ownedKey at h
      split at h
      · rw [← Except.ok.inj h]
      · split at h
        · exact absurd hlink (by rw [← Except.ok.inj h]; nofun)
        · rcases bind_eq_ok.mp h with ⟨target, -, h⟩
          exact absurd hlink (by rw [← Except.ok.inj h]; nofun)
    · unfold inboundKey at h
      split at h
      · exact absurd hlink (by rw [← Except.ok.inj h]; nofun)
      · rw [← Except.ok.inj h]
    · rw [← Except.ok.inj h]

/-- Each comparison is that of a condition, made on the column that its key means. -/
theorem exists_of_mem_comparisons {conditions : List Condition}
    (hkeys : Resolves schema model base conditions keys) {p : Predicate}
    (hp : p ∈ comparisons model base storage conditions keys) :
    ∃ condition ∈ conditions, ∃ key ∈ keys,
      resolveKey schema model base condition.column = .ok key ∧ p.column = key.1 := by
  induction hkeys with
  | nil => exact absurd hp List.not_mem_nil
  | @cons condition key conditions keys hkey _ ih =>
    rcases List.mem_cons.mp hp with rfl | hp
    · exact ⟨condition, List.mem_cons_self, key, List.mem_cons_self, hkey,
        congrArg Predicate.column (predicate_eq key.1 condition)⟩
    · rcases ih hp with ⟨condition', hcondition, key', hkey', h⟩
      exact ⟨condition', List.mem_cons_of_mem _ hcondition, key', List.mem_cons_of_mem _ hkey', h⟩

/-- The comparisons of a query are made on tables of the select. -/
theorem table_comparisons (hnames : query.NamesOwnTables (baseTable model query))
    (hkeys : Resolves schema model (baseTable model query) query.conditions keys) :
    ∀ p ∈ comparisons model (baseTable model query) storage query.conditions keys,
      p.column.table ∈ queryAliases schema model query keys := by
  intro p hp
  rcases exists_of_mem_comparisons hkeys hp with
    ⟨condition, hcondition, key, hkey, hresolve, hcolumn⟩
  rw [hcolumn]
  cases hlink : key.2 with
  | none =>
    rw [table_resolveKey hresolve hlink]
    exact ownTables_subset (hnames.conditions condition hcondition)
  | some link =>
    rw [(followsLink_resolveKey hresolve).2 link hlink]
    refine List.mem_cons_of_mem _ ?_
    rw [queryJoins, List.map_append]
    exact List.mem_append_left _ (mem_aliases_linkJoins.mpr
      ⟨link, List.mem_filterMap.mpr ⟨key, hkey, hlink⟩, rfl⟩)

/-- What conditions join are links. -/
theorem exists_link_of_mem_linkJoins {joins : List (Join Select)} {join : Join Select}
    (h : join ∈ linkJoins model base keys joins) :
    join ∈ joins ∨ ∃ link : Link, join = link.join (keyRef model base.aliasName) := by
  induction keys generalizing joins with
  | nil => exact .inl h
  | cons key keys ih =>
    rcases ih h with hmem | hlink
    · unfold addLink at hmem
      split at hmem
      · exact .inl hmem
      · rename_i link _
        split at hmem
        · exact .inl hmem
        · rcases List.mem_append.mp hmem with hmem | hmem
          · exact .inl hmem
          · exact .inr ⟨link, List.mem_singleton.mp hmem⟩
    · exact .inr hlink

/-- The joins of a query are made on tables of the select. -/
theorem table_joinRefs (hnames : query.NamesOwnTables (baseTable model query)) :
    ∀ ref ∈ Select.joinRefs (queryJoins schema model query keys),
      ref.table ∈ queryAliases schema model query keys := by
  intro ref href
  rcases List.mem_flatMap.mp href with ⟨join, hjoin, href⟩
  rcases List.mem_flatMap.mp href with ⟨pair, hpair, href⟩
  have halias : join.table.aliasName ∈ queryAliases schema model query keys :=
    List.mem_cons_of_mem _ (List.mem_map.mpr ⟨join, hjoin, rfl⟩)
  rcases List.mem_append.mp hjoin with hlinked | hasked
  · rcases exists_link_of_mem_linkJoins hlinked with hnone | ⟨link, rfl⟩
    · exact absurd hnone List.not_mem_nil
    · obtain rfl := List.mem_singleton.mp hpair
      rcases List.mem_cons.mp href with rfl | href
      · exact halias
      · rw [List.mem_singleton.mp href]
        exact List.mem_cons_self
  · rcases List.mem_map.mp hasked with ⟨spec, hspec, rfl⟩
    rcases List.mem_map.mp hpair with ⟨⟨column, operand⟩, hon, rfl⟩
    rcases List.mem_cons.mp href with rfl | href
    · exact halias
    · cases operand with
      | value v => exact absurd href List.not_mem_nil
      | column reference =>
        rw [List.mem_singleton.mp href]
        exact ownTables_subset (hnames.operands spec hspec _ hon reference rfl)

/-- A select of stored tables that has the conditions of a query, and otherwise names only columns
of its own tables, is in scope. -/
theorem scoped_of_queryJoins {s : Select} (hnames : query.NamesOwnTables (baseTable model query))
    (hkeys : Resolves schema model (baseTable model query) query.conditions keys)
    (htable : s.table = baseTable model query)
    (hjoins : s.joins = queryJoins schema model query keys)
    (hpredicates : s.predicates
      = comparisons model (baseTable model query) storage query.conditions keys)
    (hwhole : ∀ aliasName, .all aliasName ∈ s.items → aliasName = (baseTable model query).aliasName)
    (hitems : ∀ ref ∈ s.items.flatMap SelectItem.refs,
      ref.table ∈ queryAliases schema model query keys)
    (hgroups : ∀ ref ∈ s.groupBy, ref.table ∈ queryAliases schema model query keys)
    (horder : ∀ term ∈ s.order, term.column.table ∈ queryAliases schema model query keys) :
    (s.stored schema).Scoped := by
  have haliases : s.aliases = queryAliases schema model query keys := by
    rw [Select.aliases, Select.tables, htable, hjoins, List.map_cons, List.map_map]
    rfl
  refine Select.scoped_stored_iff.mpr ⟨fun aliasName h => ?_, ?_, fun join hjoin inner hinner => ?_⟩
  · rw [haliases, hwhole aliasName h]
    exact List.mem_cons_self
  · rw [haliases]
    unfold Select.refs
    rw [hjoins, hpredicates]
    simp only [List.forall_mem_append, List.forall_mem_map]
    exact ⟨⟨⟨⟨hitems, table_joinRefs hnames⟩, table_comparisons hnames hkeys⟩, hgroups⟩, horder⟩
  · rw [hjoins] at hjoin
    exact absurd (hinner.symm.trans (joinsTables_queryJoins query keys join hjoin))
      (Option.some_ne_none inner)

/-- The select that counts is in scope. -/
theorem scoped_countOf (hnames : query.NamesOwnTables (baseTable model query))
    (hkeys : Resolves schema model (baseTable model query) query.conditions keys) :
    ((countOf schema storage model query keys).stored schema).Scoped := by
  refine scoped_of_queryJoins hnames hkeys rfl rfl rfl ?_ ?_ nofun nofun
  · intro aliasName h
    exact absurd (List.mem_singleton.mp h) nofun
  · intro ref href
    rw [List.mem_singleton.mp href]
    exact List.mem_cons_self

/-- The terms of the order of a query are columns of tables of the select. -/
theorem table_order (hnames : query.NamesOwnTables (baseTable model query)) :
    ∀ term ∈ (plainOf schema storage model query keys).order,
      term.column.table ∈ queryAliases schema model query keys := by
  intro term hterm
  rcases List.mem_map.mp hterm with ⟨pair, hpair, rfl⟩
  exact ownTables_subset (hnames.order pair hpair)

/-- So are the columns that it groups by. -/
theorem table_groupBy (hnames : query.NamesOwnTables (baseTable model query)) :
    ∀ ref ∈ (plainOf schema storage model query keys).groupBy,
      ref.table ∈ queryAliases schema model query keys := by
  intro ref href
  rcases List.mem_map.mp href with ⟨name, hname, rfl⟩
  exact ownTables_subset (hnames.groups name hname)

/-- The select of a query without loaded relations is in scope. -/
theorem scoped_plainOf (hnames : query.NamesOwnTables (baseTable model query))
    (hkeys : Resolves schema model (baseTable model query) query.conditions keys) :
    ((plainOf schema storage model query keys).stored schema).Scoped := by
  refine scoped_of_queryJoins hnames hkeys rfl rfl rfl (fun aliasName h => ?_) (fun ref href => ?_)
    (table_groupBy hnames) (table_order hnames)
  · change _ ∈ plainItems _ _ at h
    unfold plainItems at h
    split at h
    · exact SelectItem.all.inj (List.mem_singleton.mp h)
    · rcases List.mem_map.mp h with ⟨name, -, hall⟩
      exact absurd hall nofun
  · change _ ∈ (plainItems _ _).flatMap _ at href
    unfold plainItems at href
    split at href
    · exact absurd href List.not_mem_nil
    · rw [List.flatMap_map] at href
      rcases List.mem_flatMap.mp href with ⟨name, hname, href⟩
      rw [List.mem_singleton.mp href]
      exact ownTables_subset (hnames.columns name hname)

/-- The derived table of keys is in scope. -/
theorem scoped_keySelect (hnames : query.NamesOwnTables (baseTable model query))
    (hkeys : Resolves schema model (baseTable model query) query.conditions keys) :
    ((keySelect model (baseTable model query) (plainOf schema storage model query keys)).stored
      schema).Scoped := by
  have horder : ∀ term ∈ (plainOf schema storage model query keys).order,
      term.column.table ∈ queryAliases schema model query keys := table_order hnames
  refine scoped_of_queryJoins hnames hkeys rfl rfl rfl (fun aliasName h => ?_) (fun ref href => ?_)
    (@table_groupBy schema storage model query keys hnames) horder
  · simp [keySelect] at h
  · simp only [keySelect, List.flatMap_cons, List.flatMap_map, List.mem_append] at href
    rcases href with href | href
    · rw [List.mem_singleton.mp href]
      exact List.mem_cons_self
    · rcases List.mem_flatMap.mp href with ⟨pair, hpair, href⟩
      rw [List.mem_singleton.mp href]
      exact horder pair.1 (List.fst_mem_of_mem_zipIdx hpair)

/-! ## The select that loads relations -/

variable {columns : List String} {plain : Select} {loading : Loading}

/-- The columns that a relation adds are those of its target and its marker. -/
theorem table_relationItems (relation : Included) :
    ∀ ref ∈ (relationItems base model relation).flatMap SelectItem.refs,
      ref.table ∈ relation.aliases := by
  have hmarker : (markerRef base model relation).table ∈ relation.aliases := by
    rcases relation with ⟨aliasName, ⟨kind, _, _, _, _, junction?⟩, target⟩
    cases kind <;> cases junction? <;>
      simp [markerRef, relationJoins, keyRef, Included.aliases, Included.throughAlias?]
  intro ref href
  rcases List.mem_flatMap.mp href with ⟨item, hitem, href⟩
  rcases List.mem_append.mp hitem with hitem | hitem
  · rcases List.mem_map.mp hitem with ⟨name, -, rfl⟩
    rw [List.mem_singleton.mp href]
    exact Included.mem_aliases.mpr (.inr rfl)
  · obtain rfl := List.mem_singleton.mp hitem
    rw [List.mem_singleton.mp href]
    exact hmarker

/-- A relation is joined with the records, or with its junction. -/
theorem table_loadingJoins (relation : Included) :
    ∀ ref ∈ Select.joinRefs (loadingJoins base model relation),
      ref.table = base.aliasName ∨ ref.table ∈ relation.aliases := by
  rcases relation with ⟨aliasName, ⟨kind, _, _, _, _, junction?⟩, target⟩
  cases kind <;> cases junction? <;>
    simp [loadingJoins, relationJoins, Join.stored, Select.joinRefs, Operand.refs, keyRef,
      Included.aliases, Included.throughAlias?]

/-- What a loading select refers to, clause by clause. -/
theorem refs_loadingSelect (hloaded : Loaded schema model base loading) :
    (loadingSelect model base columns plain loading).refs
      = (prefixedItems model base.aliasName columns).flatMap SelectItem.refs
        ++ loading.included.flatMap
          (fun relation => (relationItems base model relation).flatMap SelectItem.refs)
        ++ [keyRef model (pageAlias base), keyRef model base.aliasName]
        ++ loading.included.flatMap
          (fun relation => Select.joinRefs (loadingJoins base model relation))
        ++ plain.order.map (·.column) := by
  simp [Select.refs, loadingSelect, Select.ofTable, Select.joinRefs, pageJoin, Operand.refs,
    hloaded.items, hloaded.joins, List.flatMap_assoc]

/-- The keys of the page are compared, and the order of the query is kept. Everything else is
columns of the records and of the loaded relations. -/
theorem mem_refs_loadingSelect (hloaded : Loaded schema model base loading) {ref : ColumnRef}
    (href : ref ∈ (loadingSelect model base columns plain loading).refs) :
    ref = keyRef model (pageAlias base) ∨ ref ∈ plain.order.map (·.column)
      ∨ ref.table ∈ base.aliasName :: loading.included.flatMap Included.aliases := by
  have hrelation {relation : Included} (hmem : relation ∈ loading.included)
      (h : ref.table = base.aliasName ∨ ref.table ∈ relation.aliases) :
      ref.table ∈ base.aliasName :: loading.included.flatMap Included.aliases :=
    List.mem_cons.mpr (h.imp_right fun h => List.mem_flatMap.mpr ⟨relation, hmem, h⟩)
  rw [refs_loadingSelect hloaded] at href
  simp only [List.mem_append] at href
  rcases href with (((hown | hitem) | hkeys) | hjoin) | horder
  · rcases List.mem_flatMap.mp hown with ⟨item, hitem, href⟩
    rcases List.mem_map.mp hitem with ⟨name, -, rfl⟩
    rw [List.mem_singleton.mp href]
    exact .inr (.inr List.mem_cons_self)
  · rcases List.mem_flatMap.mp hitem with ⟨relation, hmem, href⟩
    exact .inr (.inr (hrelation hmem (.inr (table_relationItems relation ref href))))
  · rcases List.mem_cons.mp hkeys with rfl | hbase
    · exact .inl rfl
    · rw [List.mem_singleton.mp hbase]
      exact .inr (.inr List.mem_cons_self)
  · rcases List.mem_flatMap.mp hjoin with ⟨relation, hmem, href⟩
    exact .inr (.inr (hrelation hmem (table_loadingJoins relation ref href)))
  · exact .inr (.inl horder)

/-- The page alias stands for the model of the records. -/
theorem stored_pageAlias (hloaded : Loaded schema model base loading)
    (hpage : ∀ relation ∈ loading.included, relation.aliasName ≠ pageAlias base)
    (hmodel : base.model?.bind schema.model? = some model) {ref : ColumnRef}
    (href : ref.table = pageAlias base) :
    ref.stored schema (loadingSelect model base columns plain loading).tables
      = ⟨pageAlias base, model.columnFor ref.column⟩ := by
  have htables : (loadingSelect model base columns plain loading).tables
      = base :: (pageJoin model base plain).table
        :: (loading.included.flatMap (loadingJoins base model)).map (·.table) :=
    tables_loadingSelect hloaded
  have hunique : ∀ other ∈ (loadingSelect model base columns plain loading).tables,
      other.aliasName = (pageJoin model base plain).table.aliasName →
        other = (pageJoin model base plain).table := by
    intro other hother halias
    rw [htables] at hother
    rcases List.mem_cons.mp hother with rfl | hother
    · exact absurd halias.symm pageAlias_ne_alias
    rcases List.mem_cons.mp hother with rfl | hother
    · rfl
    rcases List.mem_map.mp hother with ⟨join, hjoin, rfl⟩
    rcases List.mem_flatMap.mp hjoin with ⟨relation, hrelation, hjoin⟩
    have hmem : pageAlias base ∈ relation.aliases := by
      rw [← @aliases_loadingJoins model base relation]
      exact List.mem_map.mpr ⟨join, hjoin, halias⟩
    exact absurd (List.mem_flatMap.mpr ⟨relation, hrelation, hmem⟩) (pageAlias_not_mem hpage)
  have hfound : modelOf? schema (loadingSelect model base columns plain loading).tables
      (pageAlias base) = some model :=
    (modelOf?_of_unique (by rw [htables]; exact .tail _ (.head _)) hunique).trans hmodel
  rw [ColumnRef.stored, href, hfound]

/-- A column can be sorted by around the page: its table is still there, and of the page it is a
column that the page returns. -/
def SortsAround (schema : Schema) (model : Model) (base : TableRef) (included : List Included)
    (keys : Select) (ref : ColumnRef) : Prop :=
  ref.table ∈ base.aliasName :: pageAlias base :: included.flatMap Included.aliases
    ∧ (ref.table = pageAlias base → model.columnFor ref.column ∈ (keys.stored schema).returned)

/-- A loading select is in scope if the page returns the keys of the records, and if every column
that the query is ordered by can be sorted by around the page. -/
theorem scoped_loadingSelect_iff (hloaded : Loaded schema model base loading)
    (hstored : JoinsTables loading.joins)
    (hpage : ∀ relation ∈ loading.included, relation.aliasName ≠ pageAlias base)
    (hmodel : base.model?.bind schema.model? = some model) :
    ((loadingSelect model base columns plain loading).stored schema).Scoped
      ↔ model.columnFor model.primaryKey ∈ ((keySelect model base plain).stored schema).returned
        ∧ ∀ term ∈ plain.order, SortsAround schema model base loading.included
          (keySelect model base plain) term.column := by
  have haliases : (loadingSelect model base columns plain loading).aliases
      = base.aliasName :: pageAlias base :: loading.included.flatMap Included.aliases :=
    aliases_loadingSelect hloaded
  have hkeys : keyRef model (pageAlias base)
      ∈ (loadingSelect model base columns plain loading).refs := by
    rw [refs_loadingSelect hloaded]
    simp
  have horder : ∀ term ∈ plain.order,
      term.column ∈ (loadingSelect model base columns plain loading).refs := by
    intro term hterm
    rw [refs_loadingSelect hloaded]
    exact List.mem_append_right _ (List.mem_map.mpr ⟨term, hterm, rfl⟩)
  have hcolumn {ref : ColumnRef} (href : ref.table = pageAlias base) :
      (ref.stored schema (loadingSelect model base columns plain loading).tables).column
        = model.columnFor ref.column := by
    rw [stored_pageAlias hloaded hpage hmodel href]
  rw [Select.scoped_stored_iff, haliases]
  constructor
  · rintro ⟨-, hrefs, hderived⟩
    -- of all joins only that of the page is of a derived table
    have hreturned {ref : ColumnRef}
        (href : ref ∈ (loadingSelect model base columns plain loading).refs)
        (htable : ref.table = pageAlias base) :
        model.columnFor ref.column ∈ ((keySelect model base plain).stored schema).returned := by
      rw [← hcolumn htable]
      exact hderived _ (.head _) _ rfl ref href htable
    exact ⟨hreturned hkeys rfl, fun term hterm => ⟨hrefs _ (horder term hterm),
      hreturned (horder term hterm)⟩⟩
  · rintro ⟨hkey, hsorts⟩
    refine ⟨fun aliasName h => ?_, fun ref href => ?_,
      fun join hjoin inner hinner ref href htable => ?_⟩
    · simp [loadingSelect, hloaded.items, prefixedItems, relationItems] at h
    · rcases mem_refs_loadingSelect hloaded href with rfl | horder | hother
      · exact .tail _ (.head _)
      · rcases List.mem_map.mp horder with ⟨term, hterm, rfl⟩
        exact (hsorts term hterm).1
      · exact List.mem_cons.mpr ((List.mem_cons.mp hother).imp_right (List.mem_cons_of_mem _))
    · rcases List.mem_cons.mp hjoin with rfl | hjoin
      · obtain rfl := Option.some.inj hinner
        rw [hcolumn htable]
        rcases mem_refs_loadingSelect hloaded href with rfl | horder | hother
        · exact hkey
        · rcases List.mem_map.mp horder with ⟨term, hterm, rfl⟩
          exact (hsorts term hterm).2 htable
        · rw [htable] at hother
          rcases List.mem_cons.mp hother with hbase | hother
          · exact absurd hbase pageAlias_ne_alias
          · exact absurd hother (pageAlias_not_mem hpage)
      · exact absurd (hinner.symm.trans (hstored join hjoin)) (Option.some_ne_none inner)

/-- The page returns the key of the records, if no table beside theirs has their alias. -/
theorem key_mem_returned (htable : plain.table = base)
    (hfree : ∀ join ∈ plain.joins, join.table.aliasName ≠ base.aliasName)
    (hmodel : base.model?.bind schema.model? = some model) :
    model.columnFor model.primaryKey ∈ ((keySelect model base plain).stored schema).returned := by
  have hunique : ∀ other ∈ (keySelect model base plain).tables,
      other.aliasName = base.aliasName → other = base := by
    intro other hother halias
    rcases List.mem_cons.mp hother with rfl | hother
    · exact htable
    · rcases List.mem_map.mp hother with ⟨join, hjoin, rfl⟩
      exact absurd halias (hfree join hjoin)
  have hbase : base ∈ (keySelect model base plain).tables :=
    htable ▸ (List.mem_cons_self : plain.table ∈ plain.table :: _)
  have hkey : (keyRef model base.aliasName).stored schema (keySelect model base plain).tables
      = ⟨base.aliasName, model.columnFor model.primaryKey⟩ := by
    rw [ColumnRef.stored, keyRef, (modelOf?_of_unique hbase hunique).trans hmodel]
  refine List.mem_flatMap.mpr ⟨.column ⟨base.aliasName, model.columnFor model.primaryKey⟩ .bare, ?_,
    List.mem_singleton_self _⟩
  rw [Select.stored_eq, ← hkey]
  exact List.mem_map.mpr ⟨_, List.mem_cons_self, rfl⟩

/-! ## All selects of an expansion -/

/-- An expansion whose columns have their storage names. -/
def stored (schema : Schema) (expansion : Expansion) : Expansion :=
  { expansion with
    tree := expansion.tree.stored schema
    count? := expansion.count?.map (·.stored schema) }

/-- Its selects are the selects of the expansion under storage names. -/
theorem selects_stored (expansion : Expansion) :
    (expansion.stored schema).selects = expansion.selects.map (·.stored schema) := by
  rcases expansion with ⟨tree, count?, included, baseAlias⟩
  cases tree <;> cases count? <;>
    simp [stored, selects, Tree.stored, Select.levels_stored]

variable {expansion : Expansion}

/-- **Which columns are out of scope.** Take a query that names only its own table and those that it
asks to join. The select with its conditions and the one that counts refer to their own tables only.
So does every select of the statement if no relations are loaded. If some are, the select that loads
them is in scope exactly if the page returns the key of the records, and if every column that the
query is ordered by is one of the records, of a loaded relation or of what the page returns: the
tables that the query asks to join are only in the page. The page returns the key unless a table
that is joined there takes the alias of the records. -/
theorem selects_scoped_iff (hkind : query.kind = .select)
    (hmodel : schema.model? model.name = some model)
    (hnames : query.NamesOwnTables (baseTable model query))
    (h : ofQuery schema storage model query = .ok expansion) :
    ∃ keys, filtering? expansion.tree = some keys
      ∧ (keys.stored schema).Scoped
      ∧ (∀ count, expansion.count? = some count → (count.stored schema).Scoped)
      ∧ ((∀ select ∈ (expansion.stored schema).selects, select.Scoped)
        ↔ (expansion.included ≠ [] →
          model.columnFor model.primaryKey ∈ (keys.stored schema).returned
          ∧ ∀ term ∈ query.order,
            SortsAround schema model (baseTable model query) expansion.included keys
              (qualify (baseTable model query).aliasName term.1)))
      ∧ ((∀ join ∈ keys.joins, join.table.aliasName ≠ (baseTable model query).aliasName) →
        expansion.included ≠ [] →
          model.columnFor model.primaryKey ∈ (keys.stored schema).returned) := by
  rcases ofQuery_selects hkind h with
    ⟨keys, loading, hkeys, hloading, hincluded, hcount, hselects⟩
  have hcounts := @scoped_countOf schema storage model query keys hnames hkeys
  have hall : (∀ select ∈ (expansion.stored schema).selects, select.Scoped)
      ↔ ∀ select ∈ expansion.selects, (select.stored schema).Scoped := by
    rw [selects_stored, List.forall_mem_map]
  rw [hall, hincluded]
  rcases hselects with ⟨hnone, htree, hselects⟩ | ⟨hsome, hpage, htree, hselects⟩
  · have hplain := @scoped_plainOf schema storage model query keys hnames hkeys
    refine ⟨_, by rw [htree, filtering?_of_joinsTables (joinsTables_queryJoins query keys)], hplain,
      ?_, ?_, fun _ hsome => absurd hnone hsome⟩
    · rintro count hcount'
      rwa [← Option.some.inj (hcount.symm.trans hcount')]
    · rw [hselects, List.forall_mem_cons, List.forall_mem_singleton]
      exact ⟨fun _ hsome => absurd hnone hsome, fun _ => ⟨hcounts, hplain⟩⟩
  · have hpaged := @scoped_keySelect schema storage model query keys hnames hkeys
    refine ⟨_, by rw [htree]; rfl, hpaged, ?_, ?_, fun hfree _ => key_mem_returned rfl hfree hmodel⟩
    · rintro count hcount'
      rwa [← Option.some.inj (hcount.symm.trans hcount')]
    · rw [hselects, List.forall_mem_cons, List.forall_mem_cons, List.forall_mem_singleton,
        scoped_loadingSelect_iff (loaded_of_loadRelations hloading)
          (joinsTables_loadRelations hloading) hpage hmodel]
      have horder : (∀ term ∈ (plainOf schema storage model query keys).order,
          SortsAround schema model (baseTable model query) loading.included
            (keySelect model (baseTable model query) (plainOf schema storage model query keys))
            term.column)
          ↔ ∀ term ∈ query.order,
            SortsAround schema model (baseTable model query) loading.included
              (keySelect model (baseTable model query) (plainOf schema storage model query keys))
              (qualify (baseTable model query).aliasName term.1) :=
        List.forall_mem_map
      rw [horder]
      exact ⟨fun h _ => h.2.1, fun h => ⟨hcounts, h hsome, hpaged⟩⟩

/-- Users, with the groups that they own, and with posts. -/
def owners : Schema where
  models := [("Group", ⟨"Group", some "groups", "id", []⟩),
    ("Post", ⟨"Post", some "posts", "id", []⟩),
    ("User", ⟨"User", some "users", "id", []⟩)]
  relations := ⟨[⟨.hasMany, "groups", "User", "Group", "owner_id", none⟩], []⟩

/-- The model of users. -/
def owner : Model := ⟨"User", some "users", "id", []⟩

/-- The query for the users with posts, in the order of these, together with their groups. -/
def byPosts : Query :=
  { Query.empty .select with
    joins := [⟨.inner, "posts", [("user_id", .column "users.id")]⟩]
    order := [("posts.id", .asc)]
    includes := ["groups"] }

theorem namesOwnTables_byPosts : byPosts.NamesOwnTables (baseTable owner byPosts) where
  conditions := List.forall_mem_nil _
  columns := List.forall_mem_nil _
  order := by decide +kernel
  groups := List.forall_mem_nil _
  operands spec hspec pair hpair reference hreference := by
    obtain rfl := List.mem_singleton.mp hspec
    obtain rfl := List.mem_singleton.mp hpair
    rw [← JoinOperand.column.inj hreference]
    decide +kernel

/-- The page is joined with posts, but the select around it is not. -/
theorem selects_scoped_iff_byPosts : ∃ expansion, byPosts.kind = .select
    ∧ owners.model? owner.name = some owner
    ∧ byPosts.NamesOwnTables (baseTable owner byPosts)
    ∧ ofQuery owners .epoch owner byPosts = .ok expansion
    ∧ ¬ ∀ select ∈ (expansion.stored owners).selects, select.Scoped := by
  have hexpansion : ofQuery owners .epoch owner byPosts = .ok _ := rfl
  refine ⟨_, rfl, rfl, namesOwnTables_byPosts, hexpansion, fun hscoped => ?_⟩
  rcases selects_scoped_iff rfl rfl namesOwnTables_byPosts hexpansion with ⟨keys, -, -, -, hiff, -⟩
  have hposts := (((hiff.mp hscoped) (by decide +kernel)).2 _ (.head _)).1
  exact absurd hposts (by decide +kernel)

end Expansion

end RecordMapping
