import RecordMapping.Proofs.Query.Loading
import RecordMapping.Proofs.Relation.Correlation
import RecordMapping.Proofs.Sql.Evaluation

/-!
# Related records are loaded completely

Relations are loaded by left joins around the derived table of the keys on a page. Whatever the
contents of the database are, each record of the page comes with exactly the records that a relation
leads to from it: the page, its conditions and the other relations have no part in which.

* `Included.Relates`: which records a relation leads to;
* `exists_extendStored_loading`: what the joins of one relation find;
* `exists_paged`: the derived table keeps the records whose keys are on the page;
* `page_related`: a loading select has the records of the page, each with all related ones.
-/

namespace RecordMapping

open Sql

variable {δ : Type} [LinearOrder δ]

namespace Sql

/-! ## Columns among different aliases -/

/-- The column of a table in which an attribute is stored. -/
def TableRef.columnIn (schema : Schema) (t : TableRef) (name : String) : String :=
  match t.model?.bind schema.model? with
  | some model => model.columnFor name
  | none => name

variable {schema : Schema}

/-- An alias that only one table has is one of the model of this table. -/
theorem modelOf?_of_unique {tables : List TableRef} {t : TableRef} (ht : t ∈ tables)
    (hunique : ∀ other ∈ tables, other.aliasName = t.aliasName → other = t) :
    modelOf? schema tables t.aliasName = t.model?.bind schema.model? := by
  unfold modelOf?
  cases hfound : tables.reverse.findSome? (fun other =>
      if other.aliasName == t.aliasName then other.model?.bind schema.model? else none) with
  | none =>
    have hnone := List.findSome?_eq_none_iff.mp hfound t (List.mem_reverse.mpr ht)
    rw [← hnone, if_pos (beq_self_eq_true t.aliasName)]
  | some model =>
    -- the table that was found has the same alias, so it is the same table
    rcases List.exists_of_findSome?_eq_some hfound with ⟨other, hother, hmodel⟩
    split at hmodel
    · rename_i halias
      rw [← hunique other (List.mem_reverse.mp hother) (by simpa using halias), hmodel]
    · exact absurd hmodel nofun

/-- Among tables with different aliases, an alias has the model of its own table. -/
theorem modelOf?_of_nodup {tables : List TableRef} (h : (tables.map (·.aliasName)).Nodup)
    {t : TableRef} (ht : t ∈ tables) :
    modelOf? schema tables t.aliasName = t.model?.bind schema.model? :=
  modelOf?_of_unique ht fun _ hother halias => List.inj_on_of_nodup_map h hother ht halias

/-- There a column is stored as its own table says. -/
theorem stored_of_nodup {tables : List TableRef} (h : (tables.map (·.aliasName)).Nodup)
    {t : TableRef} (ht : t ∈ tables) (name : String) :
    ColumnRef.stored schema tables ⟨t.aliasName, name⟩ = ⟨t.aliasName, t.columnIn schema name⟩ := by
  unfold ColumnRef.stored TableRef.columnIn
  rw [modelOf?_of_nodup h ht]
  cases t.model?.bind schema.model? <;> rfl

end Sql

/-! ## Relations -/

namespace Included

/-- The table of the related records, under the alias of the relation. -/
def table (relation : Included) : TableRef :=
  ⟨relation.target.table, relation.aliasName, some relation.target.name⟩

/-- The junction table, under the alias that it has while the relation is loaded. -/
def through (relation : Included) (j : Junction) : TableRef :=
  ⟨j.table, relation.aliasName ++ "_through", some j.model⟩

/-- A relation leads from a record to another one: the record points to it, or it points to the
record, or a row of the junction table points to both. -/
def Relates (schema : Schema) (db : Database δ) (model : Model) (base : TableRef)
    (relation : Included) (own target : Tuple δ) : Prop :=
  let ownKey := own (base.columnIn schema model.primaryKey)
  let targetKey := target (relation.table.columnIn schema relation.target.primaryKey)
  match relation.relation.kind, relation.relation.junction? with
  | .belongsTo, _ =>
    targetKey.Same (own (base.columnIn schema relation.relation.foreignKey))
  | _, some j => ∃ link ∈ (db.table j.table).rows,
    Cell.Same (link ((relation.through j).columnIn schema relation.relation.foreignKey)) ownKey
    ∧ targetKey.Same (link ((relation.through j).columnIn schema j.key))
  | _, none =>
    Cell.Same (target (relation.table.columnIn schema relation.relation.foreignKey)) ownKey

end Included

namespace Expansion

variable {schema : Schema} {model : Model} {base : TableRef} {db : Database δ}
  {rows : List (JoinedRow δ)} {tables : List TableRef} {relation : Included}

/-- Relations are loaded by left joins of stored tables. -/
theorem kind_of_mem_loadingJoins {join : Join Select}
    (h : join ∈ loadingJoins base model relation) : join.kind = .left := by
  rcases relation with ⟨aliasName, ⟨kind, _, _, _, _, junction?⟩, target⟩
  cases kind <;> cases junction? <;>
    simp [loadingJoins, relationJoins, Join.stored] at h <;> aesop

/-- A join by a column of one table and a column of another one, as it is stored. -/
theorem withStorage_stored {kind : JoinKind} {t u : TableRef} {name other : String}
    (haliases : (tables.map (·.aliasName)).Nodup) (ht : t ∈ tables) (hu : u ∈ tables) :
    (Join.stored kind t [(⟨t.aliasName, name⟩, .column ⟨u.aliasName, other⟩)]).withStorage schema
        tables
      = .stored kind t [(⟨t.aliasName, t.columnIn schema name⟩,
          .column ⟨u.aliasName, u.columnIn schema other⟩)] := by
  simp [Join.withStorage, Join.stored, storedDerived, storedOn, Operand.stored,
    stored_of_nodup haliases ht, stored_of_nodup haliases hu]

/-- A relation without a junction is loaded by one join. -/
theorem exists_extendStored_direct {A B : Tuple δ → Prop} {t : TableRef} {name other : String}
    (hB : ¬ B nulls) (haliases : (tables.map (·.aliasName)).Nodup) (ht : t ∈ tables)
    (hbase : base ∈ tables) (hapart : base.aliasName ≠ t.aliasName) :
    (∃ row ∈ extendStored db rows (storedJoins schema tables
          [.stored .left t [(⟨t.aliasName, name⟩, .column ⟨base.aliasName, other⟩)]]),
        A (row base.aliasName) ∧ B (row t.aliasName))
      ↔ ∃ row ∈ rows, A (row base.aliasName) ∧ ∃ target ∈ (db.table t.table).rows, B target
          ∧ (target (t.columnIn schema name)).Same
            (row base.aliasName (base.columnIn schema other)) := by
  rw [storedJoins_eq_map, List.map_singleton, withStorage_stored haliases ht hbase]
  exact exists_extend_left_on (P := fun row => A (row base.aliasName)) hB hapart
    fun row tuple => by rw [Function.update_of_ne hapart]

/-- A relation through a junction is loaded by two joins. -/
theorem exists_extendStored_through {A B : Tuple δ → Prop} {t u : TableRef}
    {name other link key : String} (hB : ¬ B nulls)
    (haliases : (tables.map (·.aliasName)).Nodup) (ht : t ∈ tables) (hu : u ∈ tables)
    (hbase : base ∈ tables) (ht' : base.aliasName ≠ t.aliasName)
    (hu' : base.aliasName ≠ u.aliasName) (htu : u.aliasName ≠ t.aliasName) :
    (∃ row ∈ extendStored db rows (storedJoins schema tables
          [.stored .left u [(⟨u.aliasName, link⟩, .column ⟨base.aliasName, other⟩)],
            .stored .left t [(⟨t.aliasName, name⟩, .column ⟨u.aliasName, key⟩)]]),
        A (row base.aliasName) ∧ B (row t.aliasName))
      ↔ ∃ row ∈ rows, A (row base.aliasName) ∧ ∃ target ∈ (db.table t.table).rows, B target
          ∧ ∃ via ∈ (db.table u.table).rows,
            (via (u.columnIn schema link)).Same (row base.aliasName (base.columnIn schema other))
            ∧ (target (t.columnIn schema name)).Same (via (u.columnIn schema key)) := by
  -- nulls in place of a row of the junction lead to no target
  have hvia : ¬ ∃ target ∈ (db.table t.table).rows, B target
      ∧ (target (t.columnIn schema name)).Same ((nulls : Tuple δ) (u.columnIn schema key)) := by
    rintro ⟨target, -, -, d, -, hd⟩
    exact WithBot.coe_ne_bot hd.symm
  rw [storedJoins_eq_map, List.map_cons, List.map_singleton, withStorage_stored haliases hu hbase,
    withStorage_stored haliases ht hu]
  -- the last join comes first: what it finds is then a condition on the row of the junction
  refine (exists_extend_left_on (P := fun row => A (row base.aliasName)) hB htu
    fun row tuple => by rw [Function.update_of_ne ht']).trans ?_
  refine (exists_extend_left_on (P := fun row => A (row base.aliasName)) (B := fun via =>
    ∃ target ∈ (db.table t.table).rows, B target
      ∧ (target (t.columnIn schema name)).Same (via (u.columnIn schema key))) hvia hu'
    fun row tuple => by rw [Function.update_of_ne hu']).trans ?_
  refine exists_congr fun row => and_congr_right fun _ => and_congr_right fun _ => ?_
  constructor
  · rintro ⟨via, hmem, ⟨target, htarget, hb, hkey⟩, hlink⟩
    exact ⟨target, htarget, hb, via, hmem, hlink, hkey⟩
  · rintro ⟨target, htarget, hb, via, hmem, hlink, hkey⟩
    exact ⟨via, hmem, ⟨target, htarget, hb, hkey⟩, hlink⟩

/-- What the joins of a relation find: the records that the relation leads to. -/
theorem exists_extendStored_loading {A B : Tuple δ → Prop} (hB : ¬ B nulls)
    (haliases : (tables.map (·.aliasName)).Nodup) (hbase : base ∈ tables)
    (htables : ∀ join ∈ loadingJoins base model relation, join.table ∈ tables)
    (hapart : ∀ join ∈ loadingJoins base model relation, base.aliasName ≠ join.table.aliasName) :
    (∃ row ∈ extendStored db rows (storedJoins schema tables (loadingJoins base model relation)),
        A (row base.aliasName) ∧ B (row relation.aliasName))
      ↔ ∃ row ∈ rows, A (row base.aliasName)
        ∧ ∃ target ∈ (db.table relation.target.table).rows, B target
          ∧ relation.Relates schema db model base (row base.aliasName) target := by
  rcases relation with ⟨aliasName, ⟨kind, _, _, _, foreignKey, junction?⟩, target⟩
  have hthrough : aliasName ++ "_through" ≠ aliasName := by
    intro h
    have hlength := congrArg String.length h
    simp at hlength
  cases kind with
  | belongsTo =>
    exact exists_extendStored_direct hB haliases (htables _ List.mem_cons_self) hbase
      (hapart _ List.mem_cons_self)
  | hasMany | manyToMany =>
    cases junction? with
    | none =>
      exact exists_extendStored_direct hB haliases (htables _ List.mem_cons_self) hbase
        (hapart _ List.mem_cons_self)
    | some j =>
      exact exists_extendStored_through hB haliases
        (htables _ (List.mem_cons_of_mem _ List.mem_cons_self)) (htables _ List.mem_cons_self) hbase
        (hapart _ (List.mem_cons_of_mem _ List.mem_cons_self)) (hapart _ List.mem_cons_self)
        hthrough

/-! ## The page -/

/-- The derived table of keys keeps the records whose keys are on the page. -/
theorem exists_paged {A : Tuple δ → Prop} {page : Answer δ} {plain : Select} {column : String}
    {outputs : List (String × ColumnRef)}
    (haliases : (tables.map (·.aliasName)).Nodup) (hbase : base ∈ tables)
    (hpage : (pageJoin model base plain).table ∈ tables)
    (hoffpage : base.aliasName ≠ pageAlias base)
    (hcolumn : base.columnIn schema model.primaryKey = column)
    (houtputs : page.outputs = (column, ⟨base.aliasName, column⟩) :: outputs) :
    (∃ row ∈ extend db (tableRows db base) ((pageJoin model base plain).withStorage schema tables)
        page.table, A (row base.aliasName))
      ↔ ∃ own ∈ (db.table base.table).rows, A own
        ∧ ∃ row ∈ page.rows, (row base.aliasName column).Same (own column) := by
  -- the keys are compared under their storage names
  have hon : ((pageJoin model base plain).withStorage schema tables).on
      = [(⟨pageAlias base, column⟩, .column ⟨base.aliasName, column⟩)] := by
    have hleft : ColumnRef.stored schema tables (keyRef model (pageAlias base))
        = ⟨pageAlias base, column⟩ :=
      (stored_of_nodup haliases hpage _).trans (by rw [← hcolumn]; rfl)
    have hright : ColumnRef.stored schema tables (keyRef model base.aliasName)
        = ⟨base.aliasName, column⟩ := (stored_of_nodup haliases hbase _).trans (by rw [hcolumn])
    simp only [Join.withStorage, pageJoin, storedOn, List.map_singleton, Operand.stored, hleft,
      hright]
  rw [exists_extend_inner_on (P := fun row => A (row base.aliasName)) rfl hon hoffpage
    fun row tuple => by
      show A (Function.update row (pageAlias base) tuple base.aliasName) ↔ _
      rw [Function.update_of_ne hoffpage]]
  refine (exists_tableRows (Q := fun own => A own ∧ ∃ tuple ∈ page.table.rows,
    (tuple column).Same (own column))).trans ?_
  refine exists_congr fun own => and_congr_right fun _ => and_congr_right fun _ => ?_
  exact Answer.exists_table (Q := fun cell => cell.Same (own column)) houtputs

/-- A stored join has the kind and the table of the join. -/
theorem mem_storedJoins {joins : List (Join Select)} {join : Join Select}
    (h : join ∈ storedJoins schema tables joins) :
    ∃ source ∈ joins, join.kind = source.kind ∧ join.table = source.table := by
  rw [storedJoins_eq_map] at h
  rcases List.mem_map.mp h with ⟨source, hsource, rfl⟩
  exact ⟨source, hsource, rfl, rfl⟩

/-- Loaded relations lose no row, and change nothing but their own tables. -/
theorem exists_extendStored_others {P : JoinedRow δ → Prop} {relations : List Included}
    (hP : ∀ join ∈ relations.flatMap (loadingJoins base model), ∀ row tuple,
      P (Function.update row join.table.aliasName tuple) ↔ P row) :
    (∃ row ∈ extendStored db rows
        (storedJoins schema tables (relations.flatMap (loadingJoins base model))), P row)
      ↔ ∃ row ∈ rows, P row := by
  refine exists_extendStored (fun join hjoin => ?_) fun join hjoin row tuple => ?_
  · rcases mem_storedJoins hjoin with ⟨source, hsource, hkind, -⟩
    rcases List.mem_flatMap.mp hsource with ⟨relation, -, hsource⟩
    rw [hkind, kind_of_mem_loadingJoins hsource]
  · rcases mem_storedJoins hjoin with ⟨source, hsource, -, htable⟩
    rw [htable]
    exact hP source hsource row tuple

/-- One of the joins of a relation is that of its target. -/
theorem exists_table_loadingJoins (base : TableRef) (model : Model) (relation : Included) :
    ∃ join ∈ loadingJoins base model relation, join.table = relation.table := by
  rcases relation with ⟨aliasName, ⟨kind, _, _, _, _, junction?⟩, target⟩
  cases kind <;> cases junction? <;>
    simp [loadingJoins, relationJoins, Join.stored, Included.table]

/-- What is found for a relation does not depend on the relations that are loaded besides. -/
theorem exists_extendStored_all {A B : Tuple δ → Prop} {relations : List Included}
    (hB : ¬ B nulls) (haliases : (tables.map (·.aliasName)).Nodup)
    (htables : List.Sublist
      (base :: (relations.flatMap (loadingJoins base model)).map (·.table)) tables)
    (hrelation : relation ∈ relations) :
    (∃ row ∈ extendStored db rows
        (storedJoins schema tables (relations.flatMap (loadingJoins base model))),
        A (row base.aliasName) ∧ B (row relation.aliasName))
      ↔ ∃ row ∈ rows, A (row base.aliasName)
        ∧ ∃ target ∈ (db.table relation.target.table).rows, B target
          ∧ relation.Relates schema db model base (row base.aliasName) target := by
  have hnodup := (htables.map (·.aliasName)).nodup haliases
  rcases List.append_of_mem hrelation with ⟨before, after, rfl⟩
  rw [List.flatMap_append, List.flatMap_cons] at hnodup htables ⊢
  rw [List.map_cons, List.map_map, List.nodup_cons] at hnodup
  rcases hnodup with ⟨hbase, hnodup⟩
  have hapart (join : Join Select) (hjoin : join ∈ before.flatMap (loadingJoins base model)
      ++ (loadingJoins base model relation ++ after.flatMap (loadingJoins base model))) :
      base.aliasName ≠ join.table.aliasName :=
    fun h => hbase (List.mem_map.mpr ⟨join, hjoin, h.symm⟩)
  have hafter (join : Join Select) (hjoin : join ∈ after.flatMap (loadingJoins base model)) :
      relation.aliasName ≠ join.table.aliasName := by
    rcases exists_table_loadingJoins base model relation with ⟨last, hlast, htable⟩
    have hname : last.table.aliasName = relation.aliasName := by
      rw [htable]
      rfl
    rw [List.map_append, List.map_append] at hnodup
    have hdisjoint := (List.nodup_append.mp (List.nodup_append.mp hnodup).2.1).2.2
    rw [← hname]
    exact hdisjoint _ (List.mem_map.mpr ⟨last, hlast, rfl⟩) _ (List.mem_map.mpr ⟨join, hjoin, rfl⟩)
  rw [storedJoins_eq_map, List.map_append, List.map_append, extendStored_append,
    extendStored_append, ← storedJoins_eq_map, ← storedJoins_eq_map, ← storedJoins_eq_map]
  -- the joins behind those of the relation
  rw [exists_extendStored_others (P := fun row => A (row base.aliasName)
    ∧ B (row relation.aliasName)) fun join hjoin row tuple => by
      rw [Function.update_of_ne (hapart join (by simp [hjoin])),
        Function.update_of_ne (hafter join hjoin)]]
  rw [exists_extendStored_loading hB haliases (htables.subset List.mem_cons_self)
    (fun join hjoin => htables.subset (List.mem_cons_of_mem _
      (List.mem_map.mpr ⟨join, by simp [hjoin], rfl⟩)))
    fun join hjoin => hapart join (by simp [hjoin])]
  -- and those before them
  exact exists_extendStored_others (P := fun row => A (row base.aliasName)
    ∧ ∃ target ∈ (db.table relation.target.table).rows, B target
      ∧ relation.Relates schema db model base (row base.aliasName) target)
    fun join hjoin row tuple => by
      rw [Function.update_of_ne (hapart join (by simp [hjoin]))]

/-! ## The records of a page -/

theorem kind_addLink {baseKey : ColumnRef} {joins : List (Join Select)} {link? : Option Link}
    (hjoins : ∀ join ∈ joins, join.kind = .inner) :
    ∀ join ∈ addLink baseKey joins link?, join.kind = .inner := by
  cases link? with
  | none => exact hjoins
  | some link =>
    unfold addLink
    dsimp only
    split
    · exact hjoins
    · exact List.forall_mem_append.mpr ⟨hjoins, by simp [Link.join, Join.stored]⟩

/-- Conditions join their links by inner joins. -/
theorem kind_linkJoins {keys : List (ColumnRef × Option Link)} {joins : List (Join Select)}
    (hjoins : ∀ join ∈ joins, join.kind = .inner) :
    ∀ join ∈ linkJoins model base keys joins, join.kind = .inner := by
  induction keys generalizing joins with
  | nil => exact hjoins
  | cons key keys ih => exact ih (kind_addLink hjoins)

variable {plain : Select} {page : Answer δ} {sources : List (Table δ)}

omit [LinearOrder δ] in
/-- The derived table of keys returns the primary key first. -/
theorem outputs_keySelect (htable : plain.table = base)
    (haliases : ((keySelect model base plain).tables.map (·.aliasName)).Nodup) :
    ∃ outputs, ((keySelect model base plain).stored schema).outputs db sources
      = (base.columnIn schema model.primaryKey,
        ⟨base.aliasName, base.columnIn schema model.primaryKey⟩) :: outputs := by
  have hbase : base ∈ (keySelect model base plain).tables :=
    htable ▸ (List.mem_cons_self : plain.table ∈ plain.table :: _)
  have hkey : (keyRef model base.aliasName).stored schema (keySelect model base plain).tables
      = ⟨base.aliasName, base.columnIn schema model.primaryKey⟩ := stored_of_nodup haliases hbase _
  have hitems : ((keySelect model base plain).stored schema).items
      = .column ⟨base.aliasName, base.columnIn schema model.primaryKey⟩ .bare
        :: ((keySelect model base plain).items.tail.map
          (·.stored schema (keySelect model base plain).tables)) := by
    rw [Select.stored_eq, ← hkey]
    rfl
  rw [Select.outputs, hitems]
  exact ⟨_, rfl⟩

/-- The rows of the derived table of keys have rows of the records' table. -/
theorem mem_table_of_keySelect (htable : plain.table = base)
    (hkind : ∀ join ∈ plain.joins, join.kind = .inner)
    (h : ((keySelect model base plain).stored schema).Answers db sources page)
    {row : JoinedRow δ} (hrow : row ∈ page.rows) :
    row base.aliasName ∈ (db.table base.table).rows := by
  have hmatching := h.mem_matching hrow
  have hmem := Select.mem_table_of_mem_matching h.aliases (fun join hjoin => ?_) hmatching
  · rw [Select.stored_eq] at hmem
    rwa [← htable]
  · rw [Select.stored_joins] at hjoin
    rcases mem_storedJoins hjoin with ⟨source, hsource, hsame, -⟩
    rw [hsame, hkind source hsource]
    exact nofun

/-- A page of records and the answer that loads their relations belong together. The answer has the
keys of the page, and each key stands beside the keys of the records that a relation leads to from
the record, and no others. -/
structure Pairs (schema : Schema) (db : Database δ) (model : Model) (base : TableRef)
    (included : List Included) (page answer : Answer δ) : Prop where
  keys (p : Cell δ) :
    (∃ row ∈ page.rows, row base.aliasName (base.columnIn schema model.primaryKey) = p)
      ↔ ∃ row ∈ answer.rows, row base.aliasName (base.columnIn schema model.primaryKey) = p
  related (relation : Included) (hrelation : relation ∈ included) (p t : δ) :
    (∃ row ∈ answer.rows, row base.aliasName (base.columnIn schema model.primaryKey) = p
        ∧ row relation.aliasName
          (relation.table.columnIn schema relation.target.primaryKey) = t)
      ↔ (∃ row ∈ page.rows, row base.aliasName (base.columnIn schema model.primaryKey) = p)
        ∧ ∃ own ∈ (db.table base.table).rows, own (base.columnIn schema model.primaryKey) = p
          ∧ ∃ target ∈ (db.table relation.target.table).rows,
            target (relation.table.columnIn schema relation.target.primaryKey) = t
            ∧ relation.Relates schema db model base own target

variable {columns : List String} {loading : Loading} {answer : Answer δ}

/-- A loading select joins first the derived table of keys. -/
theorem storedJoins_loadingSelect (tables : List TableRef) :
    storedJoins schema tables (loadingSelect model base columns plain loading).joins
      = (pageJoin model base plain).withStorage schema tables
        :: storedJoins schema tables loading.joins := by
  rw [storedJoins_eq_map, storedJoins_eq_map]
  rfl

/-- What it joins are a page of keys and the tables of its relations. -/
theorem sources_loadingSelect (htables : JoinsTables loading.joins) :
    Sources db ((loadingSelect model base columns plain loading).stored schema).joins sources
      ↔ ∃ page, ((keySelect model base plain).stored schema).Yields db page
        ∧ sources = page.table :: loading.joins.map fun join => db.table join.table.table := by
  have hkeys (tables : List TableRef) : ((pageJoin model base plain).withStorage schema
      tables).derived? = some ((keySelect model base plain).stored schema) := by
    simp only [Join.withStorage, pageJoin, storedDerived]
  have hstored (tables : List TableRef) :
      (storedJoins schema tables loading.joins).map (fun join => db.table join.table.table)
        = loading.joins.map fun join => db.table join.table.table := by
    rw [storedJoins_eq_map, List.map_map]
    rfl
  rw [Select.stored_joins, storedJoins_loadingSelect,
    sources_derived (hkeys _) (joinsTables_storedJoins _ htables), hstored]

/-- The joined rows of a loading select, none of which is left out. -/
theorem matching_loadingSelect (derived : Table δ) :
    let tables := (loadingSelect model base columns plain loading).tables
    ((loadingSelect model base columns plain loading).stored schema).matching db
        (derived :: loading.joins.map fun join => db.table join.table.table)
      = extendStored db (extend db (tableRows db base)
          ((pageJoin model base plain).withStorage schema tables) derived)
        (storedJoins schema tables loading.joins) := by
  intro tables
  have hzip : (storedJoins schema tables loading.joins).zip
      (loading.joins.map fun join => db.table join.table.table)
      = (storedJoins schema tables loading.joins).map fun join =>
        (join, db.table join.table.table) := by
    rw [storedJoins_eq_map, List.zip_map', List.map_map]
    rfl
  rw [Select.stored_eq, Select.matching]
  show List.filter (fun _ => true) (extendAll db (tableRows db base)
    ((storedJoins schema tables (loadingSelect model base columns plain loading).joins).zip _)) = _
  rw [storedJoins_loadingSelect, List.zip_cons_cons, hzip, List.filter_true]
  rfl

/-- The tables of a loading select: the records, the page, and what relations are loaded from. -/
theorem tables_loadingSelect (hloaded : Loaded schema model base loading) :
    (loadingSelect model base columns plain loading).tables
      = base :: (pageJoin model base plain).table
        :: (loading.included.flatMap (loadingJoins base model)).map (·.table) := by
  rw [← hloaded.joins]
  rfl

/-- The rows that a loading select returns: none that it joins is left out. -/
theorem mem_answer_loadingSelect (hloaded : Loaded schema model base loading)
    (hanswer : ((loadingSelect model base columns plain loading).stored schema).Answers db
      (page.table :: loading.joins.map fun join => db.table join.table.table) answer)
    {row : JoinedRow δ} :
    let tables := (loadingSelect model base columns plain loading).tables
    row ∈ answer.rows ↔ row ∈ extendStored db (extend db (tableRows db base)
        ((pageJoin model base plain).withStorage schema tables) page.table)
      (storedJoins schema tables (loading.included.flatMap (loadingJoins base model))) := by
  intro tables
  -- neither groups nor a limit nor distinct rows leave out a joined row
  have hperm := hanswer.perm_matching (by rw [Select.stored_eq]; rfl)
    (by rw [Select.stored_eq]; rfl) (by rw [Select.stored_eq]; rfl)
  rw [hperm.mem_iff, matching_loadingSelect, hloaded.joins]

section Answers

variable (hloaded : Loaded schema model base loading) (htable : plain.table = base)
  (haliases : ((loadingSelect model base columns plain loading).tables.map (·.aliasName)).Nodup)
  (hkeys : ∀ own ∈ (db.table base.table).rows, own (base.columnIn schema model.primaryKey) ≠ ⊥)
  (hpage : ((keySelect model base plain).stored schema).Answers db sources page)
  (hanswer : ((loadingSelect model base columns plain loading).stored schema).Answers db
    (page.table :: loading.joins.map fun join => db.table join.table.table) answer)

include hloaded haliases in
/-- Nothing is joined under the alias of the records. -/
theorem base_ne_of_nodup :
    base.aliasName ≠ pageAlias base
      ∧ ∀ join ∈ loading.included.flatMap (loadingJoins base model),
        base.aliasName ≠ join.table.aliasName := by
  rw [tables_loadingSelect hloaded, List.map_cons, List.map_cons, List.map_map] at haliases
  have hother := (List.nodup_cons.mp haliases).1
  constructor
  · exact fun h => hother (h ▸ List.mem_cons_self)
  · intro join hjoin h
    exact hother (List.mem_cons_of_mem _ (List.mem_map.mpr ⟨join, hjoin, h.symm⟩))

include hloaded htable haliases hpage in
/-- The records that are joined with the page are those whose keys are on it. -/
theorem exists_onPage (A : Tuple δ → Prop) :
    (∃ row ∈ extend db (tableRows db base) ((pageJoin model base plain).withStorage schema
        (loadingSelect model base columns plain loading).tables) page.table, A (row base.aliasName))
      ↔ ∃ own ∈ (db.table base.table).rows, A own
        ∧ ∃ row ∈ page.rows, (row base.aliasName (base.columnIn schema model.primaryKey)).Same
          (own (base.columnIn schema model.primaryKey)) := by
  have hdistinct := hpage.aliases
  rw [Select.stored_tables] at hdistinct
  obtain ⟨outputs, houtputs⟩ : ∃ outputs, page.outputs = _ :: outputs := by
    rw [hpage.outputs]
    exact outputs_keySelect htable hdistinct
  have htables : (loadingSelect model base columns plain loading).tables = _ :=
    tables_loadingSelect hloaded
  exact exists_paged haliases (by simp [htables]) (by simp [htables])
    (base_ne_of_nodup hloaded haliases).1 rfl houtputs

include hloaded htable haliases hkeys hpage hanswer

/-- A loading select returns the records of the page, and no others. -/
theorem keys_of_answers (hkind : ∀ join ∈ plain.joins, join.kind = .inner) (p : Cell δ) :
    (∃ row ∈ page.rows, row base.aliasName (base.columnIn schema model.primaryKey) = p)
      ↔ ∃ row ∈ answer.rows, row base.aliasName (base.columnIn schema model.primaryKey) = p := by
  simp only [mem_answer_loadingSelect hloaded hanswer]
  -- loaded relations change nothing in the records' own table
  rw [exists_extendStored_others
      (P := fun row => row base.aliasName (base.columnIn schema model.primaryKey) = p)
      fun join hjoin row tuple => by
        rw [Function.update_of_ne ((base_ne_of_nodup hloaded haliases).2 join hjoin)],
    exists_onPage hloaded htable haliases hpage
      fun own => own (base.columnIn schema model.primaryKey) = p]
  constructor
  · rintro ⟨row, hrow, rfl⟩
    have hmem := mem_table_of_keySelect htable hkind hpage hrow
    exact ⟨row base.aliasName, hmem, rfl, row, hrow, Cell.same_of_eq rfl (hkeys _ hmem)⟩
  · rintro ⟨own, -, rfl, row, hrow, hsame⟩
    exact ⟨row, hrow, hsame.eq⟩

/-- A loading select returns with each record of the page the related ones, and no others. -/
theorem related_of_answers (relation : Included) (hrelation : relation ∈ loading.included)
    (p t : δ) :
    (∃ row ∈ answer.rows, row base.aliasName (base.columnIn schema model.primaryKey) = p
        ∧ row relation.aliasName (relation.table.columnIn schema relation.target.primaryKey) = t)
      ↔ (∃ row ∈ page.rows, row base.aliasName (base.columnIn schema model.primaryKey) = p)
        ∧ ∃ own ∈ (db.table base.table).rows, own (base.columnIn schema model.primaryKey) = p
          ∧ ∃ target ∈ (db.table relation.target.table).rows,
            target (relation.table.columnIn schema relation.target.primaryKey) = t
            ∧ relation.Relates schema db model base own target := by
  have hsub : List.Sublist (base :: (loading.included.flatMap (loadingJoins base model)).map
      (·.table)) (loadingSelect model base columns plain loading).tables := by
    rw [tables_loadingSelect hloaded]
    exact .cons_cons base (List.sublist_cons_self _ _)
  simp only [mem_answer_loadingSelect hloaded hanswer]
  rw [exists_extendStored_all
      (A := fun own => own (base.columnIn schema model.primaryKey) = (p : Cell δ))
      (B := fun target =>
        target (relation.table.columnIn schema relation.target.primaryKey) = (t : Cell δ))
      WithBot.bot_ne_coe haliases hsub hrelation,
    exists_onPage hloaded htable haliases hpage
      fun own => own (base.columnIn schema model.primaryKey) = (p : Cell δ)
        ∧ ∃ target ∈ (db.table relation.target.table).rows,
          target (relation.table.columnIn schema relation.target.primaryKey) = (t : Cell δ)
          ∧ relation.Relates schema db model base own target]
  constructor
  · rintro ⟨own, hmem, ⟨hkey, htarget⟩, row, hrow, hsame⟩
    exact ⟨⟨row, hrow, hsame.eq.trans hkey⟩, own, hmem, hkey, htarget⟩
  · rintro ⟨⟨row, hrow, hpkey⟩, own, hmem, hkey, htarget⟩
    exact ⟨own, hmem, ⟨hkey, htarget⟩, row, hrow,
      Cell.same_of_eq (hpkey.trans hkey.symm) (hkeys own hmem)⟩

end Answers

/-- The primary key is among the columns that are returned behind a prefix. -/
theorem key_mem_prefixedItems (model : Model) (aliasName : String) (requested : List String) :
    .column (keyRef model aliasName) (.prefixed aliasName)
      ∈ prefixedItems model aliasName requested := by
  have hmem (names : List String) : model.primaryKey
      ∈ if names.contains model.primaryKey then names else model.primaryKey :: names := by
    split
    · rename_i hkey
      simpa using hkey
    · exact List.mem_cons_self
  exact List.mem_map.mpr ⟨model.primaryKey, hmem _, rfl⟩

/-- A select returns the keys of the records and of the related ones, each behind the prefix of its
table. -/
def ReturnsKeys (schema : Schema) (model : Model) (base : TableRef) (included : List Included)
    (select : Select) : Prop :=
  let items := (select.stored schema).items
  .column ⟨base.aliasName, base.columnIn schema model.primaryKey⟩ (.prefixed base.aliasName) ∈ items
    ∧ ∀ relation ∈ included,
      .column ⟨relation.aliasName, relation.table.columnIn schema relation.target.primaryKey⟩
        (.prefixed relation.aliasName) ∈ items

/-- A loading select returns the keys that it pairs. -/
theorem returnsKeys_loadingSelect (hloaded : Loaded schema model base loading)
    (haliases : ((loadingSelect model base columns plain loading).tables.map (·.aliasName)).Nodup) :
    ReturnsKeys schema model base loading.included
      (loadingSelect model base columns plain loading) := by
  let items := ((loadingSelect model base columns plain loading).stored schema).items
  have hitems : items = (prefixedItems model base.aliasName columns
      ++ loading.included.flatMap (relationItems base model)).map
      (·.stored schema (loadingSelect model base columns plain loading).tables) := by
    rw [← hloaded.items]
    show (Select.stored _ _).items = _
    rw [Select.stored_eq]
    rfl
  have hmem {t : TableRef} (ht : t ∈ (loadingSelect model base columns plain loading).tables)
      {name : String} {output : OutputName} (hitem : .column ⟨t.aliasName, name⟩ output
        ∈ prefixedItems model base.aliasName columns
          ++ loading.included.flatMap (relationItems base model)) :
      .column ⟨t.aliasName, t.columnIn schema name⟩ output ∈ items := by
    rw [hitems, ← stored_of_nodup haliases ht]
    exact List.mem_map.mpr ⟨_, hitem, rfl⟩
  constructor
  · exact hmem List.mem_cons_self (List.mem_append_left _ (key_mem_prefixedItems model _ columns))
  · intro relation hrelation
    rcases exists_table_loadingJoins base model relation with ⟨join, hjoin, htable⟩
    have hjoins : join ∈ loading.joins := by
      rw [hloaded.joins]
      exact List.mem_flatMap.mpr ⟨relation, hrelation, hjoin⟩
    have ht : relation.table ∈ (loadingSelect model base columns plain loading).tables := by
      rw [← htable]
      exact List.mem_cons_of_mem _ (List.mem_cons_of_mem _ (List.mem_map.mpr ⟨join, hjoins, rfl⟩))
    refine hmem ht (List.mem_append_right _ (List.mem_flatMap.mpr ⟨relation, hrelation, ?_⟩))
    exact List.mem_append_left _ (key_mem_prefixedItems relation.target _ [])

/-- A loading select does not count. -/
theorem not_counts_loadingSelect (hloaded : Loaded schema model base loading) (ref : ColumnRef)
    (output : String) : .countDistinct ref output
      ∉ ((loadingSelect model base columns plain loading).stored schema).items := by
  rw [Select.stored_eq]
  refine not_counts_stored (fun ref output => ?_) ref output
  simp [loadingSelect, hloaded.items, prefixedItems, relationItems]

variable {storage : DateStorage} {query : Query} {expansion : Expansion} {select : Select}

/-- **Every record of a page is loaded with exactly its related records.** Take a select that loads
relations under aliases of their own, and any contents of the database in which the records have
keys. Each answer to the select goes with a page, which is an answer to its derived table of keys,
and each page with an answer. The answer has the keys of the page, none missing and none added.
Beside the key of a record stand, for each loaded relation, exactly the keys of the targets to which
the relation leads from the record: which ones depends neither on the page nor on the other
relations. All of these keys are returned. -/
theorem page_related (hkind : query.kind = .select) (hjoins : query.joins = [])
    (hexpansion : ofQuery schema storage model query = .ok expansion)
    (hincluded : expansion.included ≠ []) (htree : expansion.tree = .select select)
    (haliases : (select.tables.map (·.aliasName)).Nodup) (db : Database δ)
    (hkeys : ∀ own ∈ (db.table (baseTable model query).table).rows,
      own ((baseTable model query).columnIn schema model.primaryKey) ≠ ⊥) :
    ReturnsKeys schema model (baseTable model query) expansion.included select
      ∧ ∃ keys, filtering? expansion.tree = some keys
        ∧ ((keys.tables.map (·.aliasName)).Nodup → ∃ page, (keys.stored schema).Yields db page)
        ∧ (∀ answer, (select.stored schema).Yields db answer →
            ∃ page, (keys.stored schema).Yields db page
              ∧ Pairs schema db model (baseTable model query) expansion.included page answer)
        ∧ (∀ page, (keys.stored schema).Yields db page →
            ∃ answer, (select.stored schema).Yields db answer
              ∧ Pairs schema db model (baseTable model query) expansion.included page answer) := by
  rcases ofQuery_select hkind hexpansion with ⟨links, loading, select', -, hloading, hselect, rfl⟩
  obtain rfl : select' = select := Tree.select.inj htree
  rcases selectWith_eq_ok hselect with ⟨hnone, -⟩ | ⟨-, rfl⟩
  · exact absurd hnone hincluded
  have hloaded := loaded_of_loadRelations hloading
  have hinner : ∀ join ∈ queryJoins schema model query links, join.kind = .inner := by
    rw [queryJoins_eq_linkJoins links hjoins]
    exact kind_linkJoins nofun
  have hpairs {page answer : Answer δ} {sources : List (Table δ)}
      (hpage : ((keySelect model (baseTable model query) _).stored schema).Answers db sources page)
      (hanswer : ((loadingSelect model (baseTable model query) query.columns _ loading).stored
        schema).Answers db (page.table :: loading.joins.map fun join => db.table join.table.table)
        answer) :
      Pairs schema db model (baseTable model query) loading.included page answer :=
    ⟨keys_of_answers hloaded rfl haliases hkeys hpage hanswer hinner,
      related_of_answers hloaded rfl haliases hkeys hpage hanswer⟩
  -- an answer joins a page, and each page is joined in some answer
  refine ⟨returnsKeys_loadingSelect hloaded haliases, _, rfl,
    fun hdistinct => Select.exists_yields (joinsTables_queryJoins query links) hdistinct
      (by simp [keySelect]),
    fun answer hanswer => ?_, fun page hpage => ?_⟩
  · rcases Select.yields_iff.mp hanswer with ⟨sources, hsources, hanswer⟩
    rw [sources_loadingSelect (joinsTables_loadRelations hloading)] at hsources
    rcases hsources with ⟨page, hpage, rfl⟩
    rcases Select.yields_iff.mp hpage with ⟨pageSources, -, hpageAnswer⟩
    exact ⟨page, hpage, hpairs hpageAnswer hanswer⟩
  · rcases exists_answers (page.table :: loading.joins.map fun join => db.table join.table.table)
      (by rwa [Select.stored_tables]) (not_counts_loadingSelect hloaded) with ⟨answer, hanswer⟩
    rcases Select.yields_iff.mp hpage with ⟨pageSources, -, hpageAnswer⟩
    refine ⟨answer, Select.yields_iff.mpr ⟨_, ?_, hanswer⟩, hpairs hpageAnswer hanswer⟩
    exact (sources_loadingSelect (joinsTables_loadRelations hloading)).mpr ⟨page, hpage, rfl⟩

/-- Users with their posts, and with the groups that they are members of. -/
def circles : Schema where
  models := [("Group", ⟨"Group", some "groups", "id", []⟩),
    ("Membership", ⟨"Membership", some "memberships", "id", []⟩),
    ("Post", ⟨"Post", some "posts", "id", []⟩),
    ("User", ⟨"User", some "users", "id", []⟩)]
  relations := ⟨[
    ⟨.hasMany, "posts", "User", "Post", "user_id", none⟩,
    ⟨.hasMany, "groups", "User", "Group", "member_id",
      some ⟨"Membership", "memberships", "group_id"⟩⟩], []⟩

/-- The model of users. -/
def writers : Model := ⟨"User", some "users", "id", []⟩

/-- The first of the users who wrote one of two posts, with posts and groups. -/
def firstWriter : Query :=
  { Query.empty .select with
    conditions := [.list "posts" .isIn [.int 1, .int 2]]
    order := [("id", .asc)]
    limit? := some 1
    includes := ["posts", "groups"] }

/-- A row with two columns. -/
def pair (first : String) (d : ℕ) (second : String) (e : ℕ) : Tuple ℕ :=
  fun name => if name = first then .some d else if name = second then .some e else ⊥

/-- The first user wrote three posts and is in one group; the second one wrote one post. -/
def community : Database ℕ where
  table name :=
    if name = "users" then ⟨["id", "age"], [pair "id" 7 "age" 50, pair "id" 8 "age" 40]⟩
    else if name = "posts" then
      ⟨["id", "user_id"], [pair "id" 1 "user_id" 7, pair "id" 2 "user_id" 7,
        pair "id" 3 "user_id" 8, pair "id" 4 "user_id" 7]⟩
    else if name = "memberships" then
      ⟨["member_id", "group_id"], [pair "member_id" 7 "group_id" 5]⟩
    else if name = "groups" then ⟨["id", "size"], [pair "id" 5 "size" 1, pair "id" 6 "size" 0]⟩
    else ⟨[], []⟩
  cell
    | .int n => .some n.toInt.toNat
    | _ => ⊥
  cell_null := rfl
  like _ _ := false

/-- The first writer, beside a post. -/
def written (post : ℕ) : JoinedRow ℕ :=
  Function.update (Function.update (fun _ => nulls) "users" (pair "id" 7 "age" 50)) "posts"
    (pair "id" post "user_id" 7)

/-- The page: the condition is met with two posts, and one of them represents both. -/
def writerPage : Answer ℕ := ⟨[("id", ⟨"users", "id"⟩), ("order_0", ⟨"users", "id"⟩)], [written 1]⟩

/-- The posts and groups of the first writer are loaded; post 4 is one that does not meet the
condition. -/
theorem page_related_firstWriter : ∃ expansion select keys answer,
    firstWriter.kind = .select ∧ firstWriter.joins = []
      ∧ ofQuery circles .epoch writers firstWriter = .ok expansion
      ∧ expansion.included ≠ [] ∧ expansion.tree = .select select
      ∧ (select.tables.map (·.aliasName)).Nodup
      ∧ (∀ own ∈ (community.table "users").rows, own "id" ≠ ⊥)
      ∧ filtering? expansion.tree = some keys ∧ (keys.stored circles).Yields community writerPage
      ∧ (select.stored circles).Yields community answer
      ∧ (∃ row ∈ answer.rows, row "users" "id" = .some 7)
      ∧ (∃ row ∈ answer.rows, row "users" "id" = .some 7 ∧ row "posts" "id" = .some 4)
      ∧ ∃ row ∈ answer.rows, row "users" "id" = .some 7 ∧ row "groups" "id" = .some 5 := by
  have hexpansion : ofQuery circles .epoch writers firstWriter = .ok _ := rfl
  rcases page_related rfl rfl hexpansion (by decide +kernel) rfl (by decide +kernel) community
    (by decide +kernel) with ⟨-, keys, hfiltering, -, -, hloads⟩
  have hpage : (keys.stored circles).Yields community writerPage := by
    obtain rfl := Option.some.inj hfiltering
    refine (Select.yields_stored fun join hjoin => ?_).mpr ?_
    · rw [List.mem_singleton.mp hjoin]
      rfl
    refine ⟨by decide +kernel, nofun, rfl, [written 1, written 2], [written 1], [written 1], rfl,
      ⟨?_, ?_, ?_⟩, .refl _, List.pairwise_singleton _ _, rfl⟩
    · exact fun row hrow => List.mem_cons.mpr (.inl (List.mem_singleton.mp hrow))
    · intro row hrow
      refine ⟨written 1, List.mem_singleton_self _, ?_⟩
      rcases List.mem_cons.mp hrow with rfl | hrow
      · rfl
      · obtain rfl := List.mem_singleton.mp hrow
        rfl
    · exact List.nodup_singleton _
  rcases hloads writerPage hpage with ⟨answer, hanswer, hpairs⟩
  have hrecord : ∃ row ∈ writerPage.rows, row "users" "id" = .some 7 :=
    ⟨written 1, List.mem_singleton_self _, rfl⟩
  refine ⟨_, _, keys, answer, rfl, rfl, hexpansion, by decide +kernel, rfl, by decide +kernel,
    by decide +kernel, hfiltering, hpage, hanswer, (hpairs.keys _).mp hrecord, ?_, ?_⟩
  · refine (hpairs.related _ List.mem_cons_self 7 4).mpr ⟨hrecord, ?_⟩
    refine ⟨pair "id" 7 "age" 50, List.mem_cons_self, rfl, pair "id" 4 "user_id" 7, ?_, rfl,
      ⟨7, rfl, rfl⟩⟩
    exact .tail _ (.tail _ (.tail _ List.mem_cons_self))
  · refine (hpairs.related _ (List.mem_cons_of_mem _ List.mem_cons_self) 7 5).mpr ⟨hrecord, ?_⟩
    exact ⟨pair "id" 7 "age" 50, List.mem_cons_self, rfl, pair "id" 5 "size" 1, List.mem_cons_self,
      rfl, pair "member_id" 7 "group_id" 5, List.mem_cons_self, ⟨7, rfl, rfl⟩, ⟨5, rfl, rfl⟩⟩

end Expansion

end RecordMapping
