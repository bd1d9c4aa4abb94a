import Mathlib.Data.List.Nodup
import RecordMapping.Proofs.Query.Relating

/-!
# Pages with and without loaded relations

Conditions on related records join tables, so that a record may be found by several rows. If
relations are loaded, the page is cut from the distinct keys of the records; otherwise it is cut
from the rows as they are found. The two agree on every page exactly if no record is found twice.

* `exists_windows`: if the order is total, the pages of a select are windows of one list;
* `Sorts.exists_pages`: with and without loaded relations, these are lists of the same keys;
* `pages_agree_iff`: when loading relations leaves every page as it is.
-/

namespace RecordMapping

open Sql

variable {δ : Type} [LinearOrder δ]

namespace Sql

/-! ## Orders by the columns of one table -/

variable {db : Database δ} {order : List OrderTerm} {aliasName column : String}

theorem OrderTerm.not_before_self (term : OrderTerm) (a : JoinedRow δ) : ¬ term.Before a a := by
  unfold OrderTerm.Before
  cases term.direction with
  | asc => exact lt_irrefl _
  | desc => exact lt_irrefl _

/-- Rows that an order does not tell apart have the same cells in its columns. -/
theorem cell_eq_of_inOrder {a b : JoinedRow δ} (hab : InOrder order a b) (hba : InOrder order b a) :
    ∀ term ∈ order, term.column.cell a = term.column.cell b := by
  induction order with
  | nil => exact nofun
  | cons term order ih =>
    rcases hab with hab | ⟨hsame, hab⟩
    · rcases hba with hba | ⟨hsame, -⟩
      · exact absurd (term.before_trans hab hba) (term.not_before_self a)
      · exact absurd ((term.before_congr rfl hsame).mp hab) (term.not_before_self a)
    · rcases hba with hba | ⟨-, hba⟩
      · exact absurd ((term.before_congr rfl hsame).mp hba) (term.not_before_self b)
      · exact List.forall_mem_cons.mpr ⟨hsame, ih hab hba⟩

/-- The order of rows of one table, by terms whose columns belong to it. -/
def TupleOrder (order : List OrderTerm) (t u : Tuple δ) : Prop :=
  InOrder order (fun _ => t) fun _ => u

/-- Joined rows are in order if their rows of the one table are. -/
theorem inOrder_iff_tupleOrder (horder : ∀ term ∈ order, term.column.table = aliasName)
    {a b : JoinedRow δ} : InOrder order a b ↔ TupleOrder order (a aliasName) (b aliasName) := by
  induction order with
  | nil => rfl
  | cons term order ih =>
    rcases List.forall_mem_cons.mp horder with ⟨htable, hrest⟩
    have hcell (row : JoinedRow δ) :
        term.column.cell row = term.column.cell fun _ => row aliasName := by
      unfold ColumnRef.cell
      rw [htable]
    show term.Before a b ∨ _ ↔ term.Before _ _ ∨ _
    rw [term.before_congr (hcell a) (hcell b), hcell a, hcell b, ih hrest]
    rfl

/-- If the order tells records apart, they can be listed in one way only. -/
theorem eq_of_tupleOrder {records listed other : List (Tuple δ)}
    (hkey : ∃ term ∈ order, term.column.column = column)
    (hunique : ∀ t ∈ records, ∀ u ∈ records, t column = u column → t = u)
    (hlisted : listed.Perm records) (hother : other.Perm records)
    (hsorted : listed.Pairwise (TupleOrder order)) (hsorted' : other.Pairwise (TupleOrder order)) :
    listed = other := by
  rcases hkey with ⟨term, hterm, rfl⟩
  refine List.Perm.eq_of_pairwise ?_ hsorted hsorted' (hlisted.trans hother.symm)
  intro t u ht hu htu hut
  exact hunique t (hlisted.mem_iff.mp ht) u (hother.mem_iff.mp hu)
    (cell_eq_of_inOrder htu hut term hterm)

/-! ## Pages -/

/-- The same select, for another page. -/
def Select.page (s : Select) (limit? offset? : Option Int64) : Select := { s with limit?, offset? }

theorem window_map {α β : Type} (f : α → β) (limit? offset? : Option Int64) (rows : List α) :
    (window limit? offset? rows).map f = window limit? offset? (rows.map f) := by
  cases limit? with
  | none => rfl
  | some limit => simp [window]

variable {s : Select} {sources : List (Table δ)} {records : List (Tuple δ)}

/-- If the order tells records apart, all pages are windows of one list of them. -/
theorem exists_windows (column : String) (hgroups : s.groupBy = [])
    (horder : ∀ term ∈ s.order, term.column.table = aliasName)
    (hkey : ∃ term ∈ s.order, term.column.column = column)
    (hunique : ∀ t ∈ records, ∀ u ∈ records, t column = u column → t = u)
    (hkept : ∀ kept, Reduces s.distinct (fun row => (s.outputs db sources).map (·.2.cell row))
      (s.matching db sources) kept → (kept.map (· aliasName)).Perm records) :
    ∃ listed : List (Tuple δ), listed.Perm records ∧ listed.Pairwise (TupleOrder s.order)
      ∧ ∀ limit? offset? answer, (s.page limit? offset?).Answers db sources answer →
        answer.rows.map (· aliasName) = window limit? offset? listed := by
  have htuples {rows : List (JoinedRow δ)} (h : rows.Pairwise (InOrder s.order)) :
      (rows.map (· aliasName)).Pairwise (TupleOrder s.order) :=
    List.pairwise_map.mpr (h.imp fun hab => (inOrder_iff_tupleOrder horder).mp hab)
  -- records are sorted as rows that hold them under every alias
  rcases exists_sorted s.order (records.map fun t (_ : String) => t) with ⟨rows, hperm, hsorted⟩
  have hlisted : (rows.map (· aliasName)).Perm records := by
    have hmap := hperm.map (· aliasName)
    rwa [List.map_map, show (· aliasName) ∘ (fun (t : Tuple δ) (_ : String) => t) = id from rfl,
      List.map_id] at hmap
  refine ⟨rows.map (· aliasName), hlisted, htuples hsorted, fun limit? offset? answer h => ?_⟩
  rcases h.rows with ⟨grouped, kept, sorted, hgrouped, hreduces, hsame, hsorted', hrows⟩
  -- there are no groups, and what is kept and how it is sorted does not depend on the page
  change Reduces (!s.groupBy.isEmpty) _ _ _ at hgrouped
  rw [hgroups] at hgrouped
  obtain rfl : grouped = s.matching db sources := hgrouped
  rw [h.outputs] at hreduces
  rw [hrows, window_map]
  exact congrArg (window limit? offset?) <| eq_of_tupleOrder hkey hunique
    ((hsame.map _).trans (hkept kept hreduces)) hlisted (htuples hsorted') (htuples hsorted)

omit [LinearOrder δ] in
/-- If what is returned tells rows apart by the records alone, one row is kept for each record. -/
theorem OnePer.tuples (column : String) {outputs : List (String × ColumnRef)}
    {rows reps : List (JoinedRow δ)}
    (h : OnePer (fun row => outputs.map (·.2.cell row)) rows reps)
    (houtputs : ∀ output ∈ outputs, output.2.table = aliasName)
    (hkey : ∃ output ∈ outputs, output.2 = ⟨aliasName, column⟩)
    (hunique : ∀ a ∈ rows, ∀ b ∈ rows, a aliasName column = b aliasName column →
      a aliasName = b aliasName) :
    (reps.map (· aliasName)).Nodup
      ∧ ∀ t, t ∈ reps.map (· aliasName) ↔ t ∈ rows.map (· aliasName) := by
  constructor
  · -- what is returned is a function of the record, so a repeated record would be repeated there
    have hfactor : reps.map (fun row => outputs.map (·.2.cell row))
        = (reps.map (· aliasName)).map fun t => outputs.map fun output => t output.2.column := by
      rw [List.map_map]
      refine List.map_congr_left fun row _ => List.map_congr_left fun output houtput => ?_
      show row output.2.table output.2.column = row aliasName output.2.column
      rw [houtputs output houtput]
    have hnodup := h.nodup
    rw [hfactor] at hnodup
    exact hnodup.of_map
  · intro t
    simp only [List.mem_map]
    constructor
    · rintro ⟨row, hrow, rfl⟩
      exact ⟨row, h.mem row hrow, rfl⟩
    · rintro ⟨row, hrow, rfl⟩
      rcases h.covers row hrow with ⟨rep, hrep, hsame⟩
      rcases hkey with ⟨output, houtput, hcolumn⟩
      have hcell := List.map_inj_left.mp hsame output houtput
      rw [hcolumn] at hcell
      exact ⟨rep, hrep, hunique rep (h.mem rep hrep) row hrow hcell⟩

theorem Select.stored_page {schema : Schema} (s : Select) (limit? offset? : Option Int64) :
    (s.page limit? offset?).stored schema = (s.stored schema).page limit? offset? := by
  rw [Select.stored_eq, Select.stored_eq]
  rfl

end Sql

/-- The query for another page. -/
def Query.page (query : Query) (limit? offset? : Option Int64) : Query :=
  { query with limit?, offset? }

/-- The query that loads no relations. -/
def Query.bare (query : Query) : Query := { query with includes := [] }

namespace Expansion

variable {schema : Schema} {storage : DateStorage} {model : Model} {base : TableRef}
  {db : Database δ} {query : Query}

/-! ## What a query lists -/

/-- The select that a statement is. -/
def whole? : Tree → Option Select
  | .select s => some s
  | _ => none

/-- One of the selects in the statement of a query has an answer, and each answer to it has the
given keys of records, in the given order. -/
def Lists (schema : Schema) (storage : DateStorage) (model : Model) (db : Database δ)
    (pick : Tree → Option Select) (query : Query) (keys : List (Cell δ)) : Prop :=
  let base := baseTable model query
  ∃ expansion select, ofQuery schema storage model query = .ok expansion
    ∧ pick expansion.tree = some select
    ∧ (∃ answer, (select.stored schema).Yields db answer)
    ∧ ∀ answer, (select.stored schema).Yields db answer →
      answer.rows.map (fun row => row base.aliasName (base.columnIn schema model.primaryKey)) = keys

theorem Lists.unique {pick : Tree → Option Select} {keys keys' : List (Cell δ)}
    (h : Lists schema storage model db pick query keys)
    (h' : Lists schema storage model db pick query keys') : keys = keys' := by
  rcases h with ⟨expansion, select, hexpansion, hpick, ⟨answer, hanswer⟩, hkeys⟩
  rcases h' with ⟨expansion', select', hexpansion', hpick', -, hkeys'⟩
  obtain rfl := Except.ok.inj (hexpansion.symm.trans hexpansion')
  obtain rfl := Option.some.inj (hpick.symm.trans hpick')
  rw [← hkeys answer hanswer, hkeys' answer hanswer]

/-- A select of the records of a table, in an order by columns of the table, among them the primary
key. -/
structure Sorts (model : Model) (base : TableRef) (s : Select) : Prop where
  table : s.table = base
  groups : s.groupBy = []
  joins : JoinsTables s.joins
  kinds : ∀ join ∈ s.joins, join.kind = .inner
  aliases : (s.tables.map (·.aliasName)).Nodup
  order : ∀ term ∈ s.order, term.column.table = base.aliasName
  key : ∃ term ∈ s.order, term.column = keyRef model base.aliasName
  columns : ∀ ref output, .countDistinct ref output ∉ s.items

omit [LinearOrder δ] in
/-- A derived table of keys returns columns of the records only. -/
theorem table_of_outputs_keySelect {s : Select} {sources : List (Table δ)}
    (horder : ∀ term ∈ s.order, term.column.table = base.aliasName) :
    ∀ output ∈ ((keySelect model base s).stored schema).outputs db sources,
      output.2.table = base.aliasName := by
  intro output houtput
  rw [Select.stored_eq] at houtput
  rcases List.mem_flatMap.mp houtput with ⟨item, hitem, houtput⟩
  rcases List.mem_map.mp hitem with ⟨source, hsource, rfl⟩
  obtain ⟨ref, name, rfl, htable⟩ : ∃ ref name, source = .column ref name
      ∧ ref.table = base.aliasName := by
    rcases List.mem_cons.mp hsource with rfl | hsource
    · exact ⟨_, _, rfl, rfl⟩
    · rcases List.mem_map.mp hsource with ⟨⟨term, i⟩, hterm, rfl⟩
      exact ⟨_, _, rfl, horder term (List.fst_mem_of_mem_zipIdx hterm)⟩
  rw [List.mem_singleton.mp houtput]
  exact (ColumnRef.table_stored _ ref).trans htable

namespace Sorts

variable {s : Select}

/-- The keys on a page are selected in the order of the page. -/
theorem keys (h : Sorts model base s) : Sorts model base (keySelect model base s) where
  table := h.table
  groups := h.groups
  joins := h.joins
  kinds := h.kinds
  aliases := h.aliases
  order := h.order
  key := h.key
  columns := by simp [keySelect]

/-- The tables that a select of records joins. -/
def sources (db : Database δ) (s : Select) : List (Table δ) :=
  s.joins.map fun join => db.table join.table.table

/-- The records that a select finds, once for each row that meets its conditions. -/
def records (schema : Schema) (db : Database δ) (base : TableRef) (s : Select) : List (Tuple δ) :=
  ((s.stored schema).matching db (sources db s)).map (· base.aliasName)

/-- The keys on a page are looked for where the records are. -/
theorem matching_keySelect : ((keySelect model base s).stored schema).matching db (sources db s)
    = (s.stored schema).matching db (sources db s) := by
  rw [Select.stored_eq, Select.stored_eq]
  rfl

variable (h : Sorts model base s) {limit? offset? : Option Int64} {answer : Answer δ}
include h

theorem mem_table {t : Tuple δ} (ht : t ∈ records schema db base s) :
    t ∈ (db.table base.table).rows := by
  rcases List.mem_map.mp ht with ⟨row, hrow, rfl⟩
  have hmem := Select.mem_table_of_mem_matching (by rw [Select.stored_tables]; exact h.aliases)
    (fun join hjoin => ?_) hrow
  · rwa [Select.stored_eq, show (s.table = base) from h.table] at hmem
  · rw [Select.stored_joins] at hjoin
    rcases mem_storedJoins hjoin with ⟨source, hsource, hkind, -⟩
    rw [hkind, h.kinds source hsource]
    exact nofun

/-- The order tells records apart by their primary keys. -/
theorem exists_key_stored : ∃ term ∈ (s.stored schema).order,
    term.column.column = base.columnIn schema model.primaryKey := by
  have hbase : base ∈ s.tables := by
    rw [← h.table]
    exact List.mem_cons_self
  rcases h.key with ⟨term, hterm, hcolumn⟩
  rw [Select.stored_eq]
  refine ⟨term.stored schema s.tables, List.mem_map.mpr ⟨term, hterm, rfl⟩, ?_⟩
  show (term.column.stored schema s.tables).column = _
  rw [hcolumn]
  exact congrArg ColumnRef.column (stored_of_nodup h.aliases hbase model.primaryKey)

/-- What a page of the select may be. -/
theorem yields_page : ((s.page limit? offset?).stored schema).Yields db answer
    ↔ ((s.stored schema).page limit? offset?).Answers db (sources db s) answer := by
  have hsources : (s.stored schema).joins.map (fun join => db.table join.table.table)
      = sources db s := by
    rw [Select.stored_joins, storedJoins_eq_map, List.map_map]
    rfl
  have hjoins : JoinsTables ((s.stored schema).page limit? offset?).joins :=
    Select.joinsTables_stored h.joins
  rw [Select.stored_page, Select.yields_stored hjoins, ← hsources]
  rfl

theorem exists_answer (limit? offset? : Option Int64) :
    ∃ answer, ((s.page limit? offset?).stored schema).Yields db answer :=
  Select.exists_yields h.joins h.aliases h.columns

variable (hunique : ((db.table base.table).rows.map
  (· (base.columnIn schema model.primaryKey))).Nodup)
include hunique

variable (schema) in
/-- The pages of the select are windows of one list of records. -/
theorem exists_listed (kept : List (Tuple δ)) (hmem : ∀ t ∈ kept, t ∈ (db.table base.table).rows)
    (hkept : ∀ reps, Reduces s.distinct
      (fun row => ((s.stored schema).outputs db (sources db s)).map (·.2.cell row))
      ((s.stored schema).matching db (sources db s)) reps →
      (reps.map (· base.aliasName)).Perm kept) :
    ∃ listed : List (Tuple δ), listed.Perm kept
      ∧ listed.Pairwise (TupleOrder (s.stored schema).order)
      ∧ ∀ limit? offset? answer, ((s.page limit? offset?).stored schema).Yields db answer →
        answer.rows.map (· base.aliasName) = window limit? offset? listed := by
  simp only [yields_page h]
  refine exists_windows (base.columnIn schema model.primaryKey) ?_ ?_ (exists_key_stored h)
    (fun t ht u hu hsame => List.inj_on_of_nodup_map hunique (hmem t ht) (hmem u hu) hsame) ?_
  · rw [Select.stored_eq, show s.groupBy = [] from h.groups]
    rfl
  · rw [Select.stored_eq]
    intro term hterm
    rcases List.mem_map.mp hterm with ⟨source, hsource, rfl⟩
    exact (ColumnRef.table_stored s.tables source.column).trans (h.order source hsource)
  · rw [Select.stored_eq] at hkept ⊢
    exact hkept

/-- Without loaded relations the pages are windows of the records as they are found. -/
theorem exists_found (hdistinct : s.distinct = false) :
    ∃ found : List (Tuple δ), found.Perm (records schema db base s)
      ∧ found.Pairwise (TupleOrder (s.stored schema).order)
      ∧ ∀ limit? offset? answer, ((s.page limit? offset?).stored schema).Yields db answer →
        answer.rows.map (· base.aliasName) = window limit? offset? found := by
  refine exists_listed schema h hunique _ (fun t => mem_table h) fun reps hreps => ?_
  rw [hdistinct] at hreps
  obtain rfl : reps = _ := hreps
  exact .refl _

/-- Which rows a derived table of keys keeps is open, but not which records they stand for. -/
theorem tuples_keySelect {reps : List (JoinedRow δ)} (hreps : Reduces true
      (fun row => (((keySelect model base s).stored schema).outputs db (sources db s)).map
        (·.2.cell row))
      ((s.stored schema).matching db (sources db s)) reps) :
    (reps.map (· base.aliasName)).Nodup
      ∧ ∀ t, t ∈ reps.map (· base.aliasName) ↔ t ∈ records schema db base s := by
  refine OnePer.tuples (base.columnIn schema model.primaryKey) hreps
    (table_of_outputs_keySelect h.order) ?_ ?_
  · rcases outputs_keySelect h.table h.keys.aliases with ⟨outputs, houtputs⟩
    rw [houtputs]
    exact ⟨_, List.mem_cons_self, rfl⟩
  · intro a ha b hb hcell
    exact List.inj_on_of_nodup_map hunique (mem_table h (List.mem_map_of_mem ha))
      (mem_table h (List.mem_map_of_mem hb)) hcell

/-- Derived tables of keys are windows of the records, each of which stands there once. -/
theorem exists_distinct :
    ∃ listed : List (Tuple δ), listed.Nodup ∧ (∀ t, t ∈ listed ↔ t ∈ records schema db base s)
      ∧ listed.Pairwise (TupleOrder (s.stored schema).order)
      ∧ ∀ limit? offset? page,
        (((keySelect model base s).page limit? offset?).stored schema).Yields db page →
        page.rows.map (· base.aliasName) = window limit? offset? listed := by
  -- the records of one choice of rows are those of every choice
  rcases exists_reduces true (fun row =>
    (((keySelect model base s).stored schema).outputs db (sources db s)).map (·.2.cell row))
    ((s.stored schema).matching db (sources db s)) with ⟨reps, hreps⟩
  rcases tuples_keySelect h hunique hreps with ⟨hnodup, hmem⟩
  have hkept (others : List (JoinedRow δ)) (hothers : Reduces (keySelect model base s).distinct
      (fun row => (((keySelect model base s).stored schema).outputs db
        (sources db (keySelect model base s))).map (·.2.cell row))
      (((keySelect model base s).stored schema).matching db
        (sources db (keySelect model base s))) others) :
      (others.map (· base.aliasName)).Perm (reps.map (· base.aliasName)) := by
    change Reduces true _ (((keySelect model base s).stored schema).matching db (sources db s))
      others at hothers
    rw [matching_keySelect] at hothers
    rcases tuples_keySelect h hunique hothers with ⟨hnodup', hmem'⟩
    exact (List.perm_ext_iff_of_nodup hnodup' hnodup).mpr fun t => (hmem' t).trans (hmem t).symm
  rcases exists_listed schema h.keys hunique _ (fun t ht => mem_table h ((hmem t).mp ht)) hkept with
    ⟨listed, hperm, hsorted, hpages⟩
  refine ⟨listed, hperm.nodup_iff.mpr hnodup, fun t => hperm.mem_iff.trans (hmem t), ?_, hpages⟩
  rw [Select.stored_eq] at hsorted ⊢
  exact hsorted

variable (schema) in
/-- The pages of records and the derived tables of keys are windows of lists of the same keys. -/
theorem exists_pages (hdistinct : s.distinct = false) :
    ∃ found listed : List (Cell δ), listed.Nodup ∧ (∀ key, key ∈ listed ↔ key ∈ found)
      ∧ (found.Nodup → found = listed)
      ∧ found.Perm ((records schema db base s).map (· (base.columnIn schema model.primaryKey)))
      ∧ (∀ limit? offset? answer, ((s.page limit? offset?).stored schema).Yields db answer →
        answer.rows.map (fun row => row base.aliasName (base.columnIn schema model.primaryKey))
          = window limit? offset? found)
      ∧ ∀ limit? offset? page,
        (((keySelect model base s).page limit? offset?).stored schema).Yields db page →
        page.rows.map (fun row => row base.aliasName (base.columnIn schema model.primaryKey))
          = window limit? offset? listed := by
  rcases exists_found h hunique hdistinct with ⟨found, hperm, hfound, hpages⟩
  rcases exists_distinct h hunique with ⟨listed, hnodup, hmem, hlisted, hkeys⟩
  have hinj : ∀ t ∈ listed, ∀ u ∈ listed, t (base.columnIn schema model.primaryKey)
      = u (base.columnIn schema model.primaryKey) → t = u :=
    fun t ht u hu => List.inj_on_of_nodup_map hunique (mem_table h ((hmem t).mp ht))
      (mem_table h ((hmem u).mp hu))
  refine ⟨found.map (· (base.columnIn schema model.primaryKey)),
    listed.map (· (base.columnIn schema model.primaryKey)), hnodup.map_on hinj, fun key => ?_,
    fun honce => ?_, hperm.map _, fun limit? offset? answer hanswer => ?_,
    fun limit? offset? page hpage => ?_⟩
  · simp only [List.mem_map, hmem, hperm.mem_iff]
  · -- both lists are sorted, and then have the same records
    have hsame : found.Perm listed := (List.perm_ext_iff_of_nodup honce.of_map hnodup).mpr
      fun t => hperm.mem_iff.trans (hmem t).symm
    rw [eq_of_tupleOrder (exists_key_stored h) hinj hsame (.refl _) hfound hlisted]
  · rw [← window_map, ← hpages limit? offset? answer hanswer, List.map_map]
    rfl
  · rw [← window_map, ← hkeys limit? offset? page hpage, List.map_map]
    rfl

/-- Where nothing is joined, no record is found twice. -/
theorem nodup_records (hjoins : s.joins = []) :
    ((records schema db base s).map (· (base.columnIn schema model.primaryKey))).Nodup := by
  refine List.Nodup.sublist (List.Sublist.map _ ?_) hunique
  have hrows : (tableRows db base).map (· base.aliasName) = (db.table base.table).rows := by
    simp [tableRows, Function.comp_def]
  have hmatching : (s.stored schema).matching db (sources db s)
      = (tableRows db base).filter fun row =>
        (s.stored schema).predicates.all (·.holds db row) := by
    rw [Select.stored_eq, ← h.table, hjoins]
    rfl
  rw [records, hmatching, ← hrows]
  exact List.filter_sublist.map _

end Sorts

/-! ## Pages of queries -/

variable (query) in
/-- A query whose parts are expanded is expanded. -/
theorem ofQuery_of_selectWith {links : List (ColumnRef × Option Link)} {loading : Loading}
    {select : Select} (hkind : query.kind = .select)
    (hlinks : Resolves schema model (baseTable model query) query.conditions links)
    (hloading : loadRelations schema model (baseTable model query) query.includes = .ok loading)
    (hselect : selectWith model (baseTable model query) query.columns
      (plainSelect (baseTable model query) query (queryJoins schema model query links)
        (comparisons model (baseTable model query) storage query.conditions links)) loading
      = .ok select) :
    ∃ expansion, ofQuery schema storage model query = .ok expansion
      ∧ expansion.tree = .select select := by
  obtain ⟨expansion, hexpansion, htree⟩ : ∃ expansion, ofSelect schema model (baseTable model query)
      query (queryJoins schema model query links) (comparisons model (baseTable model query) storage
        query.conditions links) = .ok expansion ∧ expansion.tree = .select select :=
    ⟨_, bind_eq_ok.mpr ⟨loading, hloading, bind_eq_ok.mpr ⟨select, hselect, rfl⟩⟩, rfl⟩
  refine ⟨expansion, bind_eq_ok.mpr ⟨_, resolveConditions_eq_ok.mpr ⟨links, hlinks, rfl, rfl⟩, ?_⟩,
    htree⟩
  rw [hkind]
  exact hexpansion

/-- Whether relations can be loaded does not depend on the page. -/
theorem selectWith_page {columns : List String} {plain select : Select} {loading : Loading}
    (hincluded : loading.included ≠ [])
    (h : selectWith model base columns plain loading = .ok select) (limit? offset? : Option Int64) :
    selectWith model base columns (plain.page limit? offset?) loading
      = .ok (loadingSelect model base columns (plain.page limit? offset?) loading) := by
  unfold selectWith pagedSelect at *
  split at h
  · rename_i hempty
    exact absurd (List.isEmpty_iff.mp hempty) hincluded
  · split at h
    · exact absurd h nofun
    · rename_i hloaded hfree
      rw [if_neg hloaded, if_neg hfree]

/-- Keys that need no links join nothing. -/
theorem linkJoins_eq_self {links : List (ColumnRef × Option Link)}
    (h : links.filterMap (·.2) = []) (joins : List (Join Select)) :
    linkJoins model base links joins = joins := by
  induction links with
  | nil => rfl
  | cons link links ih =>
    rcases link with ⟨column, link?⟩
    cases link? with
    | none => exact ih h
    | some link => exact absurd h (List.cons_ne_nil _ _)

/-- The plain select of a query sorts its records if the query does. -/
theorem sorts_plainSelect {links : List (ColumnRef × Option Link)} (predicates : List Predicate)
    (hjoins : query.joins = []) (hgroups : query.groupBy = [])
    (hnames : ∀ term ∈ query.order, Text.splitFirst? '.' term.1 = none)
    (hkey : ∃ term ∈ query.order, term.1 = model.primaryKey)
    (haliases : ((plainSelect (baseTable model query) query (queryJoins schema model query links)
      predicates).tables.map (·.aliasName)).Nodup) :
    Sorts model (baseTable model query) (plainSelect (baseTable model query) query
      (queryJoins schema model query links) predicates) where
  table := rfl
  groups := by
    show query.groupBy.map _ = []
    rw [hgroups, List.map_nil]
  joins := joinsTables_queryJoins query links
  kinds := by
    show ∀ join ∈ queryJoins schema model query links, join.kind = .inner
    rw [queryJoins_eq_linkJoins links hjoins]
    exact kind_linkJoins nofun
  aliases := haliases
  order := by
    intro term hterm
    rcases List.mem_map.mp hterm with ⟨⟨name, direction⟩, hname, rfl⟩
    show (qualify _ name).table = _
    unfold qualify
    rw [hnames _ hname]
  key := by
    rcases hkey with ⟨⟨name, direction⟩, hname, rfl⟩
    refine ⟨_, List.mem_map_of_mem hname, ?_⟩
    show qualify _ model.primaryKey = _
    unfold qualify
    rw [hnames _ hname]
    rfl
  columns := by
    intro ref output
    show .countDistinct ref output ∉ plainItems _ query.columns
    unfold plainItems
    split <;> simp

variable {expansion : Expansion} {keys : Select}

/-- **Loading relations leaves pages as they are if no record is found twice.** Take a query that
loads relations, in an order by columns of its records, among them the primary key, and any contents
of the database in which this key is unique. Then the pages that are loaded are cut from a list of
keys without repetition. Without the relations, the pages are cut from a list of the same keys in
the same order, but each stands there once for each row of the joined tables that meets the
conditions. All pages agree exactly if no key is repeated, and none is if no condition needs a
join. -/
theorem pages_agree_iff (hkind : query.kind = .select) (hjoins : query.joins = [])
    (hgroups : query.groupBy = [])
    (hnames : ∀ term ∈ query.order, Text.splitFirst? '.' term.1 = none)
    (hkey : ∃ term ∈ query.order, term.1 = model.primaryKey)
    (hexpansion : ofQuery schema storage model query = .ok expansion)
    (hincluded : expansion.included ≠ []) (hfiltering : filtering? expansion.tree = some keys)
    (haliases : (keys.tables.map (·.aliasName)).Nodup) (db : Database δ)
    (hunique : ((db.table (baseTable model query).table).rows.map
      (· ((baseTable model query).columnIn schema model.primaryKey))).Nodup) :
    ∃ found records : List (Cell δ), records.Nodup ∧ (∀ key, key ∈ records ↔ key ∈ found)
      ∧ (∀ limit? offset?,
        Lists schema storage model db whole? (query.page limit? offset?).bare
          (window limit? offset? found)
        ∧ Lists schema storage model db filtering? (query.page limit? offset?)
          (window limit? offset? records))
      ∧ ((∀ limit? offset?, ∃ listed,
          Lists schema storage model db whole? (query.page limit? offset?).bare listed
          ∧ Lists schema storage model db filtering? (query.page limit? offset?) listed)
        ↔ found.Nodup)
      ∧ ((∀ condition ∈ query.conditions, linkFor schema model condition.column = none) →
        found.Nodup) := by
  rcases ofQuery_select hkind hexpansion with
    ⟨links, loading, select, hlinks, hloading, hselect, rfl⟩
  rcases selectWith_eq_ok hselect with ⟨hnone, -⟩ | ⟨-, rfl⟩
  · exact absurd hnone hincluded
  obtain rfl := Option.some.inj hfiltering
  have hsorts := sorts_plainSelect (comparisons model (baseTable model query) storage
    query.conditions links) hjoins hgroups hnames hkey haliases
  rcases hsorts.exists_pages schema hunique rfl with
    ⟨found, records, hnodup, hmem, honce, hperm, hpages, hkeys⟩
  have hbare (limit? offset? : Option Int64) : Lists schema storage model db whole?
      (query.page limit? offset?).bare (window limit? offset? found) := by
    rcases ofQuery_of_selectWith (query.page limit? offset?).bare hkind hlinks rfl rfl with
      ⟨expansion, hexpansion, htree⟩
    refine ⟨expansion, _, hexpansion, by rw [htree]; rfl, ?_, hpages limit? offset?⟩
    exact hsorts.exists_answer limit? offset?
  have hloaded (limit? offset? : Option Int64) : Lists schema storage model db filtering?
      (query.page limit? offset?) (window limit? offset? records) := by
    rcases ofQuery_of_selectWith (query.page limit? offset?) hkind hlinks hloading
      (selectWith_page hincluded hselect limit? offset?) with ⟨expansion, hexpansion, htree⟩
    refine ⟨expansion, _, hexpansion, by rw [htree]; rfl, ?_, hkeys limit? offset?⟩
    exact hsorts.keys.exists_answer limit? offset?
  refine ⟨found, records, hnodup, hmem, fun limit? offset? =>
    ⟨hbare limit? offset?, hloaded limit? offset?⟩,
    ⟨fun hagree => ?_, fun hfound limit? offset? => ?_⟩, fun hconditions => ?_⟩
  · -- without a limit a page is the whole list
    rcases hagree none none with ⟨listed, hlisted, hlisted'⟩
    have hsame : found = records :=
      ((hbare none none).unique hlisted).trans (hlisted'.unique (hloaded none none))
    rwa [hsame]
  · refine ⟨_, hbare limit? offset?, ?_⟩
    rw [honce hfound]
    exact hloaded limit? offset?
  · refine hperm.nodup_iff.mpr (hsorts.nodup_records hunique ?_)
    show queryJoins schema model query links = []
    rw [queryJoins_eq_linkJoins links hjoins, linkJoins_eq_self]
    rw [links_of_resolves hlinks]
    exact List.filterMap_eq_nil_iff.mpr hconditions

/-- The first writer is found by two posts, and stands twice where no relations are loaded. -/
theorem pages_agree_iff_firstWriter : ∃ expansion keys,
    firstWriter.kind = .select ∧ firstWriter.joins = [] ∧ firstWriter.groupBy = []
      ∧ (∀ term ∈ firstWriter.order, Text.splitFirst? '.' term.1 = none)
      ∧ (∃ term ∈ firstWriter.order, term.1 = "id")
      ∧ ofQuery circles .epoch writers firstWriter = .ok expansion
      ∧ expansion.included ≠ [] ∧ filtering? expansion.tree = some keys
      ∧ (keys.tables.map (·.aliasName)).Nodup
      ∧ ((community.table "users").rows.map (· "id")).Nodup
      ∧ Lists circles .epoch writers community whole?
        (firstWriter.page none none).bare [.some 7, .some 7]
      ∧ Lists circles .epoch writers community filtering?
        (firstWriter.page none none) [.some 7]
      ∧ ¬ ∀ limit? offset?, ∃ listed,
        Lists circles .epoch writers community whole?
          (firstWriter.page limit? offset?).bare listed
        ∧ Lists circles .epoch writers community filtering?
          (firstWriter.page limit? offset?) listed := by
  have hexpansion : ofQuery circles .epoch writers firstWriter = .ok _ := rfl
  have hnames : ∀ term ∈ firstWriter.order, Text.splitFirst? '.' term.1 = none := by decide +kernel
  have hkey : ∃ term ∈ firstWriter.order, term.1 = "id" := ⟨_, List.mem_cons_self, rfl⟩
  rcases pages_agree_iff rfl rfl rfl hnames hkey hexpansion (by decide +kernel) rfl
    (by decide +kernel) community (by decide +kernel) with
    ⟨found, records, hnodup, hmem, hlists, hagree, -⟩
  -- without a limit, both rows that meet the condition are returned
  have hfound : found = [.some 7, .some 7] := by
    rcases (hlists none none).1 with ⟨expansion, select, hbare, hselect, -, hkeys⟩
    obtain rfl := Except.ok.inj hbare
    obtain rfl := Option.some.inj hselect
    refine (hkeys ⟨[("id", ⟨"users", "id"⟩), ("age", ⟨"users", "age"⟩)], [written 1, written 2]⟩
      ((Select.yields_stored fun join hjoin => ?_).mpr ?_)).symm
    · rw [List.mem_singleton.mp hjoin]
      rfl
    exact ⟨by decide +kernel, nofun, rfl, [written 1, written 2], [written 1, written 2],
      [written 1, written 2], rfl, rfl, .refl _, List.pairwise_pair.mpr (.inr ⟨rfl, trivial⟩), rfl⟩
  have hrecords : records = [.some 7] := by
    apply List.perm_singleton.mp
    apply (List.perm_ext_iff_of_nodup hnodup (List.nodup_singleton _)).mpr
    intro key
    rw [hmem, hfound]
    simp
  have hagrees := hlists none none
  rw [hrecords, hfound] at hagrees
  rw [hfound] at hagree
  exact ⟨_, _, rfl, rfl, rfl, hnames, hkey, hexpansion, by decide +kernel, rfl, by decide +kernel,
    by decide +kernel, hagrees.1, hagrees.2, fun h => absurd (hagree.mp h) (by decide +kernel)⟩

end Expansion

end RecordMapping
