import RecordMapping.Proofs.Query.Filtering
import RecordMapping.Proofs.Query.Loading
import RecordMapping.Proofs.Sql.Slots

/-!
# What a count counts

A page of records comes with the number of the records on all pages. Two selects are written for
it: one reads the page, the other one counts.

* `Select.scope`: what a select reads, which is written behind its items. It depends on nothing but
  the tables and conditions of the select (`scope_stored`), so the count and the page share it;
* `slotValues_loadingSelect`: relations that are loaded bind no values;
* `keyAmong_eq_ownKey`: the column that is counted is the primary key of the records, unless a
  joined table takes the alias of theirs and stores a column of this name elsewhere;
* `prepare_counts_iff`: the text of the count.
-/

namespace RecordMapping

open Sql Sql.Piece

namespace Sql

/-! ## Texts -/

/-- Names that differ are quoted differently. -/
theorem quoteIdentifier_injective {a b : String} (h : quoteIdentifier a = quoteIdentifier b) :
    a = b := by
  -- what a quoted name is scanned as depends on the name alone
  have hscan (identifier : String) : Lexeme.scan (quoteIdentifier identifier)
      = some [.name identifier] := by
    have hname := scan_quoteIdentifier identifier [] nofun
    rwa [List.append_nil] at hname
  have hnames := (hscan a).symm.trans (h ▸ hscan b)
  simpa using hnames

/-! ## Values -/

/-- The values of the operands in some slots. -/
def slotValues (slots : List Slot) : List Value := slots.filterMap Slot.value?

@[simp] theorem slotValues_append (slots others : List Slot) :
    slotValues (slots ++ others) = slotValues slots ++ slotValues others :=
  List.filterMap_append

@[simp] theorem slotValues_columnRef (ref : ColumnRef) : slotValues ref.slots = [] := rfl

@[simp] theorem slotValues_tableRef (t : TableRef) : slotValues t.slots = [] := by
  unfold TableRef.slots
  split <;> rfl

/-- Slots without operands. -/
theorem slotValues_flatMap {α : Type} {f : α → List Slot} {as : List α}
    (h : ∀ a ∈ as, slotValues (f a) = []) : slotValues (as.flatMap f) = [] := by
  rw [slotValues, List.filterMap_flatMap]
  exact List.flatMap_eq_nil_iff.mpr h

/-- What a select returns has no operands. -/
@[simp] theorem slotValues_itemSlots (table : TableRef) (items : List SelectItem) :
    slotValues (itemSlots table items) = [] := by
  cases items with
  | nil => rfl
  | cons item items =>
    apply slotValues_flatMap
    intro item _
    cases item with
    | column ref output => cases output <;> rfl
    | _ => rfl

/-- The values of a select are those of its joins and of its conditions. -/
theorem Select.slotValues_slots (s : Select) : slotValues s.slots
    = slotValues (joinSlots s.joins) ++ slotValues (s.predicates.flatMap Predicate.slots) := by
  rcases s with ⟨distinct, table, items, joins, predicates, groupBy, order, limit?, offset?⟩
  have hgroups := slotValues_flatMap fun ref (_ : ref ∈ groupBy) => slotValues_columnRef ref
  have horder := slotValues_flatMap fun term (_ : term ∈ order) => slotValues_columnRef term.column
  simp [Select.slots, hgroups, horder]

/-- Joins of stored tables in which columns are compared with columns. -/
def JoinsColumns (joins : List (Join Select)) : Prop :=
  ∀ join ∈ joins, join.derived? = none ∧ ∀ pair ∈ join.on, ∃ ref, pair.2 = .column ref

/-- A comparison of columns has no operands. -/
theorem slotValues_onSlots {on : List (ColumnRef × Operand)}
    (h : ∀ pair ∈ on, ∃ ref, pair.2 = .column ref) : slotValues (onSlots on) = [] := by
  apply slotValues_flatMap
  rintro ⟨ref, operand⟩ hpair
  rcases h _ hpair with ⟨other, hother⟩
  rw [show operand = .column other from hother]
  rfl

theorem slotValues_joinSlots {joins : List (Join Select)} (h : JoinsColumns joins) :
    slotValues (joinSlots joins) = [] := by
  induction joins with
  | nil => rfl
  | cons join joins ih =>
    rcases join with ⟨kind, table, derived?, on⟩
    rcases h _ List.mem_cons_self with ⟨hderived, hon⟩
    rw [show derived? = none from hderived, joinSlots, sourceSlots]
    simp [slotValues_onSlots hon, ih fun other hother => h other (List.mem_cons_of_mem _ hother)]

/-- The values that a written select binds are those of its slots. -/
theorem Select.params_pieces {s : Select} {ps : List Piece} (h : s.pieces = .ok ps) :
    (Statement.ofPieces ps).params = slotValues s.slots := (s.fills h).values

/-! ## What a select reads -/

/-- What a select reads, as it is written behind its items: its tables and its conditions. -/
def Select.scope (s : Select) : Result (List Piece) := do
  let joined ← joinPieces s.joins
  let conditions ← wherePieces s.predicates
  .ok (word " FROM " :: s.table.pieces ++ joined ++ conditions)

/-- The beginning of a select: what it returns. -/
def Select.listPieces (s : Select) : List Piece :=
  word (if s.distinct then "SELECT DISTINCT " else "SELECT ") :: itemPieces s.table s.items

theorem Select.scope_eq_ok {s : Select} {scope : List Piece} :
    s.scope = .ok scope
      ↔ ∃ joined conjuncts, joinPieces s.joins = .ok joined ∧ Conjuncts s.predicates conjuncts
        ∧ scope = word " FROM " :: s.table.pieces ++ joined
          ++ clause " WHERE " " AND " conjuncts := by
  unfold Select.scope
  rw [bind_eq_ok]
  constructor
  · rintro ⟨joined, hjoined, h⟩
    rcases bind_eq_ok.mp h with ⟨conditions, hconditions, h⟩
    rcases wherePieces_eq_ok.mp hconditions with ⟨conjuncts, hconjuncts, rfl⟩
    exact ⟨joined, conjuncts, hjoined, hconjuncts, (Except.ok.inj h).symm⟩
  · rintro ⟨joined, conjuncts, hjoined, hconjuncts, rfl⟩
    have hconditions := wherePieces_eq_ok.mpr ⟨conjuncts, hconjuncts, rfl⟩
    exact ⟨joined, hjoined, bind_eq_ok.mpr ⟨_, hconditions, rfl⟩⟩

/-- A select is written as what it returns, what it reads, and its order. -/
theorem Select.pieces_eq_scope {s : Select} {ps : List Piece} (h : s.pieces = .ok ps) :
    ∃ scope, s.scope = .ok scope
      ∧ ps = s.listPieces ++ scope ++ tailPieces s.groupBy s.order s.limit? s.offset? := by
  rcases Select.pieces_eq_ok.mp h with ⟨joined, conjuncts, hjoined, hconjuncts, rfl⟩
  refine ⟨_, Select.scope_eq_ok.mpr ⟨joined, conjuncts, hjoined, hconjuncts, rfl⟩, ?_⟩
  simp [Select.written, headPieces, Select.listPieces]

/-- The text of a select: what it returns, what it reads, and its order. -/
theorem Select.textOf_pieces {s : Select} {ps : List Piece} (h : s.pieces = .ok ps) :
    ∃ scope tail, s.scope = .ok scope
      ∧ textOf ps = (if s.distinct then "SELECT DISTINCT " else "SELECT ")
        ++ textOf (itemPieces s.table s.items) ++ textOf scope ++ tail := by
  rcases Select.pieces_eq_scope h with ⟨scope, hscope, rfl⟩
  refine ⟨scope, textOf (tailPieces s.groupBy s.order s.limit? s.offset?), hscope, ?_⟩
  rw [textOf_append, textOf_append, Select.listPieces, textOf_cons, Piece.text]

variable {schema : Schema}

/-- Selects from the same tables under the same conditions read the same. -/
theorem Select.scope_stored {s t : Select} (htable : s.table = t.table) (hjoins : s.joins = t.joins)
    (hpredicates : s.predicates = t.predicates) :
    (s.stored schema).scope = (t.stored schema).scope := by
  have htables : s.tables = t.tables := by rw [Select.tables, Select.tables, htable, hjoins]
  simp only [Select.scope, Select.stored_eq, htable, hjoins, hpredicates, htables]

/-- They also bind the same values. -/
theorem Select.slotValues_stored {s t : Select} (htable : s.table = t.table)
    (hjoins : s.joins = t.joins) (hpredicates : s.predicates = t.predicates) :
    slotValues (s.stored schema).slots = slotValues (t.stored schema).slots := by
  have htables : s.tables = t.tables := by rw [Select.tables, Select.tables, htable, hjoins]
  simp only [Select.slotValues_slots, Select.stored_eq, hjoins, hpredicates, htables]

/-- Storage names leave joins by columns what they are. -/
theorem joinsColumns_storedJoins (tables : List TableRef) {joins : List (Join Select)}
    (h : JoinsColumns joins) : JoinsColumns (storedJoins schema tables joins) := by
  rw [storedJoins_eq_map]
  intro join hjoin
  rcases List.mem_map.mp hjoin with ⟨source, hsource, rfl⟩
  rcases h source hsource with ⟨hderived, hon⟩
  refine ⟨by simp only [Join.withStorage, hderived, storedDerived], ?_⟩
  intro pair hpair
  rcases List.mem_map.mp hpair with ⟨⟨ref, operand⟩, hsourcePair, rfl⟩
  rcases hon _ hsourcePair with ⟨other, hother⟩
  refine ⟨other.stored schema tables, ?_⟩
  rw [show operand = .column other from hother]
  rfl

end Sql

namespace Expansion

variable {schema : Schema} {model : Model} {base : TableRef}

/-- Relations are loaded by columns. -/
theorem joinsColumns_loading {loading : Loading} (h : Loaded schema model base loading) :
    JoinsColumns loading.joins := by
  rw [h.joins]
  intro join hjoin
  rcases List.mem_flatMap.mp hjoin with ⟨⟨aliasName, r, target⟩, -, hjoin⟩
  rcases r with ⟨kind, _, _, _, _, junction?⟩
  cases kind <;> cases junction? <;> simp [loadingJoins, relationJoins, Join.stored] at hjoin ⊢ <;>
    aesop

/-- Relations that are loaded bind no values: those of the derived table of keys are all. -/
theorem slotValues_loadingSelect {columns : List String} {plain : Select} {loading : Loading}
    (h : Loaded schema model base loading) :
    slotValues ((loadingSelect model base columns plain loading).stored schema).slots
      = slotValues ((keySelect model base plain).stored schema).slots := by
  have hloaded (tables : List TableRef) :
      slotValues (joinSlots (storedJoins schema tables loading.joins)) = [] :=
    slotValues_joinSlots (joinsColumns_storedJoins tables (joinsColumns_loading h))
  -- the outer select has no conditions, and its own joins compare columns with columns
  rw [Select.slotValues_slots, Select.stored_joins, Select.stored_predicates]
  show slotValues (joinSlots (storedJoins schema _ (pageJoin model base plain :: loading.joins)))
    ++ [] = _
  simp only [pageJoin, storedJoins, storedDerived, joinSlots, sourceSlots, slotValues_append,
    hloaded, List.append_nil]
  rw [slotValues_onSlots]
  · simp [slotValues, Slot.value?]
  · simp [storedOn, Operand.stored]

/-- Whether relations are loaded or not, the values are those of the plain select. -/
theorem slotValues_selectWith {columns : List String} {plain select : Select} {loading : Loading}
    (hloaded : Loaded schema model base loading)
    (h : selectWith model base columns plain loading = .ok select) :
    slotValues (select.stored schema).slots = slotValues (plain.stored schema).slots := by
  rcases selectWith_eq_ok h with ⟨-, rfl⟩ | ⟨-, rfl⟩
  · rfl
  · rw [slotValues_loadingSelect hloaded]
    exact Select.slotValues_stored rfl rfl rfl

/-- A select that loads relations is written around the derived table of keys, which it joins
first. -/
theorem pieces_loadingSelect {columns : List String} {plain : Select} {loading : Loading}
    {ps : List Piece}
    (h : ((loadingSelect model base columns plain loading).stored schema).pieces = .ok ps) :
    ∃ items derived rest, ((keySelect model base plain).stored schema).pieces = .ok derived
      ∧ ps = word "SELECT " :: (itemPieces base items ++ word " FROM " :: base.pieces)
        ++ word " INNER JOIN " :: word "(" :: derived ++ word ") AS " :: rest := by
  generalize hselect : (loadingSelect model base columns plain loading).stored schema = s at h
  have hstored := hselect.symm.trans (Select.stored_eq _)
  have hdistinct : s.distinct = false := by rw [hstored]; rfl
  have htable : s.table = base := by rw [hstored]; rfl
  have hjoins : s.joins = (pageJoin model base plain).withStorage schema
      (loadingSelect model base columns plain loading).tables
      :: storedJoins schema (loadingSelect model base columns plain loading).tables
        loading.joins := by
    rw [hstored, storedJoins_eq_map, storedJoins_eq_map]
    rfl
  rcases Select.pieces_eq_scope h with ⟨scope, hscope, rfl⟩
  rcases Select.scope_eq_ok.mp hscope with ⟨joined, conjuncts, hjoined, -, rfl⟩
  rw [hjoins] at hjoined
  have hkeys : ((pageJoin model base plain).withStorage schema
      (loadingSelect model base columns plain loading).tables).derived?
      = some ((keySelect model base plain).stored schema) := by
    simp only [Join.withStorage, pageJoin, storedDerived]
  rcases joinPieces_derived hkeys hjoined with ⟨derived, others, hderived, -, rfl⟩
  have hkind : word (" " ++ JoinKind.sql .inner ++ " ") = word " INNER JOIN " := rfl
  simp only [Select.listPieces, hdistinct, htable, derivedJoin, List.append_assoc,
    List.cons_append, List.nil_append]
  exact ⟨s.items, derived, _, hderived, by rw [← hkind]; rfl⟩

end Expansion

namespace Repository

open Expansion

/-! ## The count -/

/-- The primary key of the records, as it is stored in the table of a query. -/
def ownKey (repo : Repository) (query : Query) : ColumnRef :=
  ⟨(baseTable repo.model query).aliasName, repo.model.primaryKeyColumn⟩

/-- The primary key as the tables of a select tell how it is stored. -/
def keyAmong (repo : Repository) (query : Query) (tables : List TableRef) : ColumnRef :=
  (keyRef repo.model (baseTable repo.model query).aliasName).stored repo.mapping.schema tables

/-- What a query reads, as it is written: its table, its joins and the conjuncts of its
conditions. -/
def Reads (repo : Repository) (query : Query) (tables : List TableRef) (scope : List Piece) :
    Prop :=
  ∃ keys joined conjuncts,
    Resolves repo.mapping.schema repo.model (baseTable repo.model query) query.conditions keys
    ∧ tables = baseTable repo.model query
      :: (queryJoins repo.mapping.schema repo.model query keys).map (·.table)
    ∧ joinPieces (storedJoins repo.mapping.schema tables
        (queryJoins repo.mapping.schema repo.model query keys)) = .ok joined
    ∧ List.Forall₂ (repo.IsConjunct query tables) query.conditions conjuncts
    ∧ scope = word " FROM " :: (baseTable repo.model query).pieces ++ joined
      ++ clause " WHERE " " AND " conjuncts

/-- The count of the different values of a column. -/
def countText (column : ColumnRef) : String :=
  "SELECT COUNT(DISTINCT " ++ quoteIdentifier column.table ++ "." ++ quoteIdentifier column.column
    ++ ") AS `total`"

theorem textOf_countDistinct (column : ColumnRef) :
    textOf (word "SELECT " :: (SelectItem.countDistinct column "total").pieces)
      = countText column := by
  have htotal : quoteIdentifier "total" = "`total`" := by decide +kernel
  have hstart : "SELECT COUNT(DISTINCT " = "SELECT " ++ "COUNT(DISTINCT " := by decide +kernel
  have hend : ") AS `total`" = ") AS " ++ "`total`" := by decide +kernel
  unfold countText SelectItem.pieces
  rw [hstart, hend, ← htotal, textOf_cons, textOf_append, textOf_cons]
  simp only [ColumnRef.pieces, textOf_cons, textOf_nil, Piece.text, String.append_empty,
    String.append_assoc]

/-- Counts of different columns of a table have different texts. -/
theorem countText_injective {a b : ColumnRef} {text : String} (htable : a.table = b.table)
    (h : countText a ++ text = countText b ++ text) : a = b := by
  unfold countText at h
  rw [htable, String.append_left_inj, String.append_left_inj, String.append_right_inj] at h
  have hcolumn := quoteIdentifier_injective h
  rcases a with ⟨table, column⟩
  rcases b with ⟨other, second⟩
  rw [show table = other from htable, show column = second from hcolumn]

variable {repo : Repository} {query : Query} {prepared : Prepared}

/-- A text stands in a statement behind what is returned: by the select itself if no relations are
loaded, and otherwise by the derived table of keys. -/
def Shows (prepared : Prepared) (text : String) : Prop :=
  (prepared.included = [] → ∃ table items tail,
      prepared.statement.sql = "SELECT " ++ textOf (itemPieces table items) ++ text ++ tail)
  ∧ (prepared.included ≠ [] → ∃ table others items tail rest,
      prepared.statement.sql = "SELECT " ++ textOf (itemPieces table others) ++ " FROM "
        ++ textOf table.pieces ++ " INNER JOIN (SELECT DISTINCT " ++ textOf (itemPieces table items)
        ++ text ++ tail ++ ") AS " ++ rest)

theorem table_keyAmong (tables : List TableRef) :
    (repo.keyAmong query tables).table = (repo.ownKey query).table :=
  ColumnRef.table_stored tables _

/-- The table of a query tells how the primary key is stored, unless another table has its alias. -/
theorem keyAmong_eq_ownKey {tables : List TableRef}
    (hmodel : repo.mapping.schema.model? repo.model.name = some repo.model)
    (hother : ∀ t ∈ tables, t.aliasName ≠ (baseTable repo.model query).aliasName) :
    repo.keyAmong query (baseTable repo.model query :: tables) = repo.ownKey query := by
  have howner : modelOf? repo.mapping.schema (baseTable repo.model query :: tables)
      (baseTable repo.model query).aliasName = some repo.model := by
    -- the last table under an alias tells its model, and here it is the first one
    have hnone : tables.reverse.findSome? (fun t =>
        if t.aliasName == (baseTable repo.model query).aliasName then
          t.model?.bind repo.mapping.schema.model? else none) = none := by
      refine List.findSome?_eq_none_iff.mpr fun t ht => ?_
      exact if_neg (by simpa using hother t (List.mem_reverse.mp ht))
    rw [modelOf?, List.reverse_cons, List.findSome?_append, hnone]
    simp [baseTable, TableRef.plain, hmodel]
  simp only [keyAmong, ColumnRef.stored, keyRef, howner]
  rfl

/-- What a count reads is what its query reads. -/
theorem reads_of_countSelect {keys : List (ColumnRef × Option Link)} {scope : List Piece}
    (hkeys : Resolves repo.mapping.schema repo.model (baseTable repo.model query) query.conditions
      keys)
    (h : ((countSelect repo.model (baseTable repo.model query)
        (queryJoins repo.mapping.schema repo.model query keys)
        (comparisons repo.model (baseTable repo.model query) repo.mapping.config.dateStorage
          query.conditions keys)).stored repo.mapping.schema).scope = .ok scope) :
    repo.Reads query (baseTable repo.model query
      :: (queryJoins repo.mapping.schema repo.model query keys).map (·.table)) scope := by
  rcases Select.scope_eq_ok.mp h with ⟨joined, conjuncts, hjoined, hconjuncts, rfl⟩
  rw [Select.stored_joins] at hjoined
  rw [Select.stored_predicates] at hconjuncts
  refine ⟨keys, joined, conjuncts, hkeys, rfl, hjoined, ?_, ?_⟩
  · exact isConjunct_of_conjuncts hkeys hconjuncts
  · rw [Select.stored_eq]
    rfl

variable {schema : Schema} {model : Model} {base : TableRef}

/-- A count is written as the column that is counted and what is read. -/
theorem textOf_countSelect {joins : List (Join Select)} {predicates : List Predicate}
    {ps : List Piece} (h : ((countSelect repo.model (baseTable repo.model query) joins
      predicates).stored repo.mapping.schema).pieces = .ok ps) :
    ∃ scope, ((countSelect repo.model (baseTable repo.model query) joins predicates).stored
        repo.mapping.schema).scope = .ok scope
      ∧ textOf ps
        = countText (repo.keyAmong query (baseTable repo.model query :: joins.map (·.table)))
          ++ textOf scope := by
  rcases Select.pieces_eq_scope h with ⟨scope, hscope, rfl⟩
  refine ⟨scope, hscope, ?_⟩
  rw [Select.stored_eq, textOf_append, textOf_append, ← textOf_countDistinct]
  show textOf (word "SELECT " :: separated ", " [_]) ++ textOf scope ++ textOf [] = _
  rw [separated, List.intercalate_singleton, textOf_nil, String.append_empty]
  rfl

/-- A select that loads relations is written around its derived table of keys. -/
theorem textOf_loadingSelect {columns : List String} {plain : Select} {loading : Loading}
    {ps : List Piece}
    (h : ((loadingSelect model base columns plain loading).stored schema).pieces = .ok ps) :
    ∃ others scope items tail rest,
      ((keySelect model base plain).stored schema).scope = .ok scope
      ∧ textOf ps = "SELECT " ++ textOf (itemPieces base others) ++ " FROM " ++ textOf base.pieces
        ++ " INNER JOIN (SELECT DISTINCT " ++ textOf (itemPieces plain.table items) ++ textOf scope
        ++ tail ++ ") AS " ++ rest := by
  rcases pieces_loadingSelect h with ⟨others, derived, rest, hderived, rfl⟩
  rcases Select.textOf_pieces hderived with ⟨scope, tail, hscope, htext⟩
  refine ⟨others, scope, ((keySelect model base plain).stored schema).items, tail, textOf rest,
    hscope, ?_⟩
  rw [Select.stored_distinct, Select.stored_table, show (keySelect model base plain).distinct = true
    from rfl, if_pos rfl] at htext
  -- the words are written piece by piece
  have hopen : " INNER JOIN (SELECT DISTINCT " = " INNER JOIN " ++ "(" ++ "SELECT DISTINCT " := by
    decide +kernel
  rw [hopen]
  simp only [textOf_cons, textOf_append, htext, Piece.text, String.append_assoc]
  rfl

/-- The statement for the page shows what its plain select reads. -/
theorem shows_scope {loading : Loading} {joins : List (Join Select)} {predicates : List Predicate}
    {select : Select} {scope ps : List Piece}
    (hselect : selectWith model base query.columns (plainSelect base query joins predicates) loading
      = .ok select)
    (hps : (select.stored schema).pieces = .ok ps) (hstatement : prepared.statement = .ofPieces ps)
    (hincluded : prepared.included = loading.included)
    (hscope : ((plainSelect base query joins predicates).stored schema).scope = .ok scope) :
    Shows prepared (textOf scope) := by
  have hsql : prepared.statement.sql = textOf ps := congrArg Statement.sql hstatement
  unfold Shows
  rw [hsql, hincluded]
  -- the text stands in the select itself, or in its derived table of keys, which reads the same
  rcases selectWith_eq_ok hselect with ⟨hnone, rfl⟩ | ⟨hsome, rfl⟩
  · refine ⟨fun _ => ?_, fun h => absurd hnone h⟩
    rcases Select.textOf_pieces hps with ⟨scope', tail, hscope', htext⟩
    obtain rfl := Except.ok.inj (hscope.symm.trans hscope')
    rw [Select.stored_distinct, Select.stored_table,
      show (plainSelect base query joins predicates).distinct = false from rfl,
      if_neg Bool.false_ne_true] at htext
    exact ⟨_, _, tail, htext⟩
  · refine ⟨fun h => absurd h hsome, fun _ => ?_⟩
    rcases textOf_loadingSelect hps with ⟨others, scope', items, tail, rest, hscope', htext⟩
    have hsame : ((keySelect model base (plainSelect base query joins predicates)).stored
      schema).scope = ((plainSelect base query joins predicates).stored schema).scope :=
      Select.scope_stored rfl rfl rfl
    obtain rfl := Except.ok.inj ((hscope.symm.trans hsame.symm).trans hscope')
    exact ⟨_, others, items, tail, rest, htext⟩

/-- **A count reads exactly what the page reads.** Every select that can be prepared comes with a
count. What is written behind the column that it counts are the table of the query, the joins of its
conditions and those that it asks for, and the conjuncts of its conditions, and nothing else: no
relation is joined to be loaded, there are no groups, no order and no limit. The same text stands in
the statement for the page, behind the items of the select that has the conditions, and both bind
the same values. The column is the primary key of the records exactly if the tables of the query
tell that it is stored there. This is so unless a joined table takes the alias of theirs. -/
theorem prepare_counts_iff {d : Descriptor}
    (hquery : Query.ofDescriptor repo.mapping.config d = .ok query)
    (hkind : query.kind = .select) (hprepared : repo.prepare d = .ok prepared) :
    ∃ count tables scope,
      prepared.count? = some count
      ∧ count.params = prepared.statement.params
      ∧ repo.Reads query (baseTable repo.model query :: tables) scope
      ∧ Shows prepared (textOf scope)
      ∧ count.sql = countText (repo.keyAmong query (baseTable repo.model query :: tables))
          ++ textOf scope
      ∧ (count.sql = countText (repo.ownKey query) ++ textOf scope
          ↔ repo.keyAmong query (baseTable repo.model query :: tables) = repo.ownKey query)
      ∧ (repo.mapping.schema.model? repo.model.name = some repo.model →
          (∀ t ∈ tables, t.aliasName ≠ (baseTable repo.model query).aliasName) →
          repo.keyAmong query (baseTable repo.model query :: tables) = repo.ownKey query) := by
  rcases bind_eq_ok.mp hprepared with ⟨query', hquery', hprepare⟩
  obtain rfl := Except.ok.inj (hquery.symm.trans hquery')
  rcases prepareQuery_eq_ok hprepare with ⟨expansion, hexpansion, hcount, hstatement, hincluded, -⟩
  rcases ofQuery_select hkind hexpansion with ⟨keys, loading, select, hkeys, hloading, hselect, rfl⟩
  rcases countStatement?_eq_ok hcount with ⟨counted, hcounted, hsome⟩
  rcases textOf_countSelect hcounted with ⟨scope, hscope, htext⟩
  rcases Tree.statement_eq_ok.mp hstatement with ⟨ps, hps, hprepared⟩
  refine ⟨_, _, scope, hsome, ?_, reads_of_countSelect hkeys hscope, ?_, htext, ?_,
    keyAmong_eq_ownKey⟩
  · rw [hprepared, Select.params_pieces hcounted, Select.params_pieces hps]
    rw [slotValues_selectWith (loaded_of_loadRelations hloading) hselect]
    exact Select.slotValues_stored rfl rfl rfl
  · refine shows_scope hselect hps hprepared hincluded ?_
    rw [← hscope]
    exact Select.scope_stored rfl rfl rfl
  · constructor
    · intro hown
      exact countText_injective (table_keyAmong _) (htext.symm.trans hown)
    · intro hkey
      rw [← hkey]
      exact htext

/-- A repository of users whose posts are related under the name of the users' own table, and keep
their identity in a column of another name. -/
def namesakes : Repository where
  mapping := {
    schema := {
      models := [
        ("User", ⟨"User", some "users", "id", []⟩),
        ("Post", ⟨"Post", some "posts", "id",
          [{ Attribute.plain "id" .number with column? := some "post_id" }]⟩)]
      relations := ⟨[⟨.hasMany, "users", "User", "Post", "user_id", none⟩], []⟩ }
    config := .default
    valid := Config.validate_default }
  model := ⟨"User", some "users", "id", []⟩

/-- The users who wrote a post. -/
def writers : Descriptor := .ofFields [("users", .int 5)]

/-- The query that the descriptor stands for. -/
def writersQuery : Query :=
  { Query.empty .select with
    conditions := [.equal "users" (.int 5)], limit? := some 50, offset? := some 0 }

theorem prepare_counts_iff_writers : ∃ prepared count tables scope,
    Query.ofDescriptor namesakes.mapping.config writers = .ok writersQuery
      ∧ writersQuery.kind = .select
      ∧ namesakes.prepare writers = .ok prepared
      ∧ prepared.count? = some count
      ∧ count.sql = countText ⟨"users", "post_id"⟩ ++ textOf scope
      ∧ count.sql ≠ countText (namesakes.ownKey writersQuery) ++ textOf scope
      ∧ Shows prepared (textOf scope)
      ∧ namesakes.Reads writersQuery tables scope := by
  have hquery : Query.ofDescriptor namesakes.mapping.config writers = .ok writersQuery := rfl
  have hrun : (namesakes.prepare writers).toOption.isSome = true := by decide +kernel
  cases hprepared : namesakes.prepare writers with
  | error e =>
    rw [hprepared] at hrun
    exact absurd hrun nofun
  | ok prepared =>
    rcases prepare_counts_iff hquery rfl hprepared with
      ⟨count, tables, scope, hcount, -, hreads, hshows, htext, hown, -⟩
    -- the one condition joins the posts, under the alias of the users
    have htables : tables = [⟨"posts", "users", some "Post"⟩] := by
      rcases hreads with ⟨keys, _, _, hkeys, htables, -⟩
      rcases List.forall₂_cons_left_iff.mp hkeys with ⟨key, rest, hkey, hrest, rfl⟩
      obtain rfl := List.forall₂_nil_left_iff.mp hrest
      obtain rfl := Except.ok.inj hkey
      exact (List.cons.inj htables).2
    subst htables
    have hkey : namesakes.keyAmong writersQuery
        [baseTable namesakes.model writersQuery, ⟨"posts", "users", some "Post"⟩]
        = ⟨"users", "post_id"⟩ := by decide +kernel
    rw [hkey] at htext hown
    refine ⟨prepared, count, _, scope, hquery, rfl, rfl, hcount, htext, ?_, hshows, hreads⟩
    rw [ne_eq, hown]
    decide +kernel

end Repository

end RecordMapping
