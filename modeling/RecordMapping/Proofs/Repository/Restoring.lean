import RecordMapping.Proofs.Hydration.Naming
import RecordMapping.Proofs.Hydration.Reading
import RecordMapping.Proofs.Model.Columns
import RecordMapping.Proofs.Repository.Writing
import RecordMapping.Proofs.Sql.Slots

/-!
# Reading back what was inserted

An insertion puts the values of a record into the columns of their attributes, and the columns of a
row are read as attributes again.

* `Sql.inserts_statement`: which columns the text of an insertion names;
* `Hydration.get?_record_cells`: what is read from the columns that a record was put into;
* `Repository.persist_restores`: if no two attributes share a column, then every attribute that was
  inserted is read back, and no other one.
-/

namespace RecordMapping

/-! ## Values by attribute -/

namespace Record

variable {record : Record}

/-- All values of the record are values of attributes. -/
def AllDeclared (record : Record) : Prop :=
  ∀ field ∈ record.attributes, record.model.hasAttribute field.1 = true

instance (record : Record) : Decidable record.AllDeclared :=
  inferInstanceAs (Decidable (∀ field ∈ record.attributes, _))

/-- The attributes that have a value, in the order of their declaration, with their values. -/
def entries (record : Record) : List (Attribute × Value) :=
  record.model.attributes.filterMap fun a => (record.get? a.name).map (a, ·)

/-- The values of attributes stand in front of the others. -/
theorem values_eq_append (record : Record) :
    record.values = (record.entries.map fun entry => (entry.1.name, entry.2))
      ++ record.attributes.filter fun field => !record.model.hasAttribute field.1 := by
  show _ ++ (record.attributes.filter fun field => !record.model.hasAttribute field.1) = _
  rw [entries, List.map_filterMap]
  congr 2
  funext a
  rw [Option.map_map]
  rfl

theorem values_eq_entries (h : record.AllDeclared) :
    record.values = record.entries.map fun entry => (entry.1.name, entry.2) := by
  have hothers :
      (record.attributes.filter fun field => !record.model.hasAttribute field.1) = [] := by
    refine List.filter_eq_nil_iff.mpr fun field hfield => ?_
    simpa using h field hfield
  rw [values_eq_append, hothers, List.append_nil]

theorem entries_fst (record : Record) : record.entries.map (·.1)
    = record.model.attributes.filter fun a => (record.get? a.name).isSome := by
  rw [entries, List.map_filterMap, ← List.filterMap_eq_filter]
  congr 1
  funext a
  cases hvalue : record.get? a.name <;> simp [Option.guard, hvalue]

theorem names_values (h : record.AllDeclared) : record.values.map (·.1)
    = (record.model.attributes.filter fun a => (record.get? a.name).isSome).map (·.name) := by
  rw [values_eq_entries h, ← entries_fst, List.map_map, List.map_map]
  rfl

/-- The attributes that have a value stand in the order of their declaration, each of them once. -/
theorem entries_sublist (record : Record) :
    (record.entries.map (·.1)).Sublist record.model.attributes := by
  rw [entries_fst]
  exact List.filter_sublist

theorem mem_entries {a : Attribute} {v : Value} :
    (a, v) ∈ record.entries ↔ a ∈ record.model.attributes ∧ record.get? a.name = some v := by
  unfold entries
  simp

/-- The columns that the record is put into, with the stored values. -/
def cells (record : Record) (storage : DateStorage) : List (String × Value) :=
  record.entries.map fun entry =>
    (entry.1.column, Storage.toStorage record.model.table (some entry.1) entry.2 storage)

theorem nodup_cells (h : record.model.DistinctColumns) (storage : DateStorage) :
    ((record.cells storage).map (·.1)).Nodup := by
  have hcolumns : (record.cells storage).map (·.1) = (record.entries.map (·.1)).map (·.column) := by
    rw [cells, List.map_map, List.map_map]
    rfl
  rw [hcolumns]
  exact h.sublist (record.entries_sublist.map _)

end Record

/-- What a value becomes that is put into the column of an attribute and read from it. -/
def Storage.restored (table : String) (storage : DateStorage) (a : Attribute) (v : Value) : Value :=
  fromStorage a (toStorage table (some a) v storage)

/-! ## Into columns -/

namespace Sql

/-- The text names a table and columns of it, and then has a question mark for each of them. -/
def Statement.Inserts (st : Statement) (table : String) (columns : List String) : Prop :=
  ∃ lexemes, Lexeme.scan st.sql = some lexemes
    ∧ lexemes.filter Lexeme.isSlot
      = .name table :: columns.map .name ++ List.replicate columns.length .mark

/-- An insertion names the columns of its values, and its parameters are the values. -/
theorem inserts_statement {table : TableRef} {values : List (String × Value)} {st : Statement}
    (h : (Tree.insert table values).statement = .ok st) :
    st.Inserts table.table (values.map (·.1)) ∧ st.params = values.map (·.2) := by
  obtain ⟨pieces, hpieces, rfl⟩ := Tree.statement_eq_ok.mp h
  have hfills := Tree.fills hpieces
  refine ⟨⟨_, hfills.separated.scan_text, ?_⟩, ?_⟩
  · rw [hfills.filter_lexemes, Tree.slots, List.map_append, List.map_cons, List.map_map,
      List.map_map, List.map_map, List.length_map, ← List.map_const]
    rfl
  · show pieces.filterMap Piece.value? = _
    rw [hfills.values, Tree.slots, List.cons_append, List.filterMap_cons_none rfl,
      List.filterMap_append, List.filterMap_map, List.filterMap_map]
    simp [Slot.value?, Function.comp_def]

end Sql

/-! ## From columns -/

namespace Hydration

variable {r : Record}

/-- The columns of a record are read as its attributes. -/
theorem map_readField_cells (h : r.model.DistinctColumns) (storage : DateStorage) :
    (r.cells storage).map (readField r.model)
      = r.entries.map fun entry =>
        (entry.1.name, Storage.restored r.model.table storage entry.1 entry.2) := by
  rw [Record.cells, List.map_map]
  refine List.map_congr_left fun entry hentry => ?_
  have hcolumn := Model.attributeForColumn?_column h (Record.mem_entries.mp hentry).1
  show readField r.model (entry.1.column, _) = _
  rw [readField, hcolumn]
  rfl

/-- The record that is read has what is read from its columns, as it is. -/
theorem attributes_record_cells (hdeclared : r.model.Declared) (h : r.model.DistinctColumns)
    (storage : DateStorage) :
    (record r.model (r.cells storage)).attributes
      = Fields.ofList ((r.cells storage).map (readField r.model)) := by
  apply attributes_record
  intro cell hcell
  obtain ⟨entry, hentry, rfl⟩ := List.mem_map.mp hcell
  have ha := (Record.mem_entries.mp hentry).1
  exact ⟨entry.1, Model.attributeForColumn?_column h ha, Model.attribute?_of_mem hdeclared ha⟩

/-- An attribute that has a value is read back, and one that has none is not there. -/
theorem get?_record_cells (hdeclared : r.model.Declared) (h : r.model.DistinctColumns)
    (storage : DateStorage) {a : Attribute} (ha : a ∈ r.model.attributes) :
    (record r.model (r.cells storage)).get? a.name
      = (r.get? a.name).map (Storage.restored r.model.table storage a) := by
  have hnames : (r.entries.map fun entry =>
      (entry.1.name, Storage.restored r.model.table storage entry.1 entry.2)).map (·.1)
        = (r.entries.map (·.1)).map (·.name) := by
    rw [List.map_map, List.map_map]
    rfl
  rw [Record.get?, attributes_record_cells hdeclared h, map_readField_cells h]
  -- no two attributes have the same name, so the value under it is that of the attribute
  cases hvalue : r.get? a.name with
  | some v =>
    have hentry : (a, v) ∈ r.entries := Record.mem_entries.mpr ⟨ha, hvalue⟩
    refine Fields.get?_ofList_of_mem ?_ (List.mem_map_of_mem hentry)
    rw [hnames]
    exact hdeclared.nodup_names.sublist (r.entries_sublist.map _)
  | none =>
    refine Fields.get?_ofList_of_not_mem fun hmem => ?_
    rw [hnames, List.map_map] at hmem
    obtain ⟨entry, hentry, hname⟩ := List.mem_map.mp hmem
    have hsome := (Record.mem_entries.mp hentry).2
    rw [show entry.1.name = a.name from hname, hvalue] at hsome
    exact absurd hsome nofun

/-- The attributes that are read are those that have a value. -/
theorem names_record_cells (hdeclared : r.model.Declared) (h : r.model.DistinctColumns)
    (hall : r.AllDeclared) (storage : DateStorage) :
    (record r.model (r.cells storage)).values.map (·.1) = r.values.map (·.1) := by
  have hfound : (record r.model (r.cells storage)).AllDeclared := by
    intro field hfield
    rw [attributes_record_cells hdeclared h, map_readField_cells h] at hfield
    obtain ⟨entry, hentry, rfl⟩ := List.mem_map.mp (Fields.mem_of_mem_ofList hfield)
    have ha := (Record.mem_entries.mp hentry).1
    show (r.model.attribute? entry.1.name).isSome = true
    rw [Model.attribute?_of_mem hdeclared ha]
    rfl
  rw [Record.names_values hfound, Record.names_values hall]
  congr 1
  refine List.filter_congr fun a ha => ?_
  rw [get?_record_cells hdeclared h storage ha, Option.isSome_map]

end Hydration

/-! ## There and back -/

namespace Repository

open Expansion Sql

variable {repo : Repository} {record : Record}

/-- An insertion can always be prepared. -/
theorem prepareQuery_insertQuery (repo : Repository) (record : Record) :
    let base : TableRef := .plain repo.model.table (some repo.model.name)
    let values := storedForm repo.model repo.mapping.config.dateStorage (insertQuery record).values
    ∃ prepared, repo.prepareQuery (insertQuery record) = .ok prepared
      ∧ (Tree.insert base (storedValues repo.mapping.schema base values)).statement
        = .ok prepared.statement :=
  ⟨_, rfl, rfl⟩

/-- Its own table leads to a model of the schema. -/
theorem modelOf?_of_model {schema : Schema} {model : Model}
    (hmodel : schema.model? model.name = some model) :
    modelOf? schema [.plain model.table (some model.name)]
      (TableRef.plain model.table (some model.name)).aliasName = some model := by
  simp [modelOf?, TableRef.plain, hmodel]

/-- Under its own table a model tells the columns. -/
theorem storedValues_of_model {schema : Schema} {model : Model}
    (hmodel : schema.model? model.name = some model) (values : List (String × Value)) :
    storedValues schema (.plain model.table (some model.name)) values
      = values.map fun value => (model.columnFor value.1, value.2) := by
  unfold storedValues
  rw [modelOf?_of_model hmodel]

/-- The values of a record go into the columns of their attributes. -/
theorem storedValues_insertQuery (hdeclared : record.model.Declared) (hall : record.AllDeclared)
    {schema : Schema} (hmodel : schema.model? record.model.name = some record.model)
    (storage : DateStorage) :
    storedValues schema (.plain record.model.table (some record.model.name))
        (storedForm record.model storage (insertQuery record).values)
      = record.cells storage := by
  have hvalues : (insertQuery record).values
      = record.entries.map fun entry => (entry.1.name, some entry.2) := by
    show record.values.map _ = _
    rw [Record.values_eq_entries hall, List.map_map]
    rfl
  rw [storedValues_of_model hmodel, hvalues, storedForm, List.filterMap_map, List.map_filterMap,
    Record.cells, ← List.filterMap_eq_map]
  refine List.filterMap_congr fun entry hentry => ?_
  have ha := (Record.mem_entries.mp hentry).1
  show some (record.model.columnFor entry.1.name, Storage.toStorage record.model.table
    (record.model.attribute? entry.1.name) entry.2 storage) = some _
  rw [Model.columnFor_of_mem hdeclared ha, Model.attribute?_of_mem hdeclared ha]

/-- **What is inserted is read back.** Let the model of a repository be declared attribute by
attribute and be the schema's model of its name, and let no two of its attributes share a column;
they may have formatters and swap their names. Then a record of the model with declared attributes
only can be inserted. The text of the insertion names the table and then different columns, one for
each of its parameters. If a row has these columns with these parameters, then the record that is
read from it has the attributes that were inserted and no other ones, each with its value as it
comes out of storage. Putting the record into form changes nothing of what is read. -/
theorem persist_restores (hdeclared : repo.model.Declared) (hcolumns : repo.model.DistinctColumns)
    (hmodel : repo.mapping.schema.model? repo.model.name = some repo.model)
    (hrecord : record.model = repo.model) (hall : record.AllDeclared) :
    ∃ prepared columns, repo.prepareQuery (insertQuery record) = .ok prepared
      ∧ (repo.mapping.config.LeavesRoom → ∀ pool, ((repo.persist record).run pool).2
        = pool.afterAttempts repo.retries prepared.statement)
      ∧ prepared.statement.Inserts repo.model.table columns
      ∧ columns.length = prepared.statement.params.length
      ∧ columns.Nodup
      ∧ let row := Row.ofList (columns.zip prepared.statement.params)
        let found := (Hydration.plainRow repo.model row).record
        found.values.map (·.1) = record.values.map (·.1)
        ∧ (∀ a ∈ repo.model.attributes, found.get? a.name = (record.get? a.name).map
          (Storage.restored repo.model.table repo.mapping.config.dateStorage a))
        ∧ found.attributes = Fields.ofList (row.cells.map (Hydration.readField repo.model)) := by
  obtain ⟨mapping, model⟩ := repo
  obtain rfl : record.model = model := hrecord
  obtain ⟨prepared, hprepared, hstatement⟩ :=
    prepareQuery_insertQuery ⟨mapping, record.model⟩ record
  have hnodup := Record.nodup_cells hcolumns mapping.config.dateStorage
  dsimp only at hstatement
  -- the columns and parameters of the statement are the cells of the record
  rw [storedValues_insertQuery hdeclared hall hmodel] at hstatement
  obtain ⟨hinserts, hparams⟩ := inserts_statement hstatement
  have hcheck : check ⟨mapping, record.model⟩ record = .ok () := if_pos BEq.rfl
  refine ⟨prepared, _, hprepared, fun hroom pool => run_persist hcheck hprepared hroom pool,
    hinserts, ?_, hnodup, ?_⟩
  · rw [hparams, List.length_map, List.length_map]
  · have hcells : (Row.ofList (((record.cells mapping.config.dateStorage).map (·.1)).zip
        prepared.statement.params)).cells = record.cells mapping.config.dateStorage := by
      rw [hparams, List.zip_map', List.map_id']
      exact Row.cells_ofList hnodup
    dsimp only [Hydration.plainRow]
    rw [hcells]
    exact ⟨Hydration.names_record_cells hdeclared hcolumns hall _,
      fun a ha => Hydration.get?_record_cells hdeclared hcolumns _ ha,
      Hydration.attributes_record_cells hdeclared hcolumns _⟩

/-- A title that is stored as the body of a letter. -/
def letterTitle : Attribute := ⟨"title", .string, some "body", none, none⟩

/-- A body that is stored as the title of a letter. -/
def letterBody : Attribute := ⟨"body", .string, some "title", none, none⟩

/-- A date that is stored as a number. -/
def letterSent : Attribute := ⟨"sent", .date, none, some .epoch, none⟩

/-- A place that is stored behind the name of the table. -/
def letterPlace : Attribute :=
  ⟨"place", .string, none, none, some fun table v => .str (table ++ "/" ++ v.text)⟩

/-- A kind of letters. -/
def letterModel : Model :=
  ((((Model.empty "Letter").declare letterTitle).declare letterBody).declare letterSent).declare
    letterPlace

/-- A repository of letters. -/
def letters : Repository where
  mapping := {
    schema := ⟨[("Letter", letterModel)], .empty⟩
    config := .default
    valid := Config.validate_default }
  model := letterModel

/-- A letter without a date. -/
def letter : Record :=
  letters.newRecord [("title", .str "Ode"), ("body", .str "Dear"), ("place", .str "Rome")]

theorem persist_restores_letter : ∃ prepared columns,
    letters.model.Declared
      ∧ letters.model.DistinctColumns
      ∧ letters.mapping.schema.model? letters.model.name = some letters.model
      ∧ letter.model = letters.model
      ∧ letter.AllDeclared
      ∧ letters.prepareQuery (insertQuery letter) = .ok prepared
      ∧ prepared.statement.Inserts "letter" columns
      ∧ let row := Row.ofList (columns.zip prepared.statement.params)
        let found := (Hydration.plainRow letters.model row).record
        found.values.map (·.1) = ["title", "body", "place"]
        ∧ found.get? "title" = some (.str "Ode")
        ∧ found.get? "body" = some (.str "Dear")
        ∧ found.get? "sent" = none
        ∧ found.get? "place" = some (.str "letter/Rome") := by
  have hattributes : letterModel.attributes = [letterTitle, letterBody, letterSent, letterPlace] :=
    rfl
  have hdeclared : letters.model.Declared :=
    .declare (.declare (.declare (.declare (.start "Letter" none "id") letterTitle) letterBody)
      letterSent) letterPlace
  have hcolumns : letters.model.DistinctColumns := by decide +kernel
  have hmodel : letters.mapping.schema.model? letters.model.name = some letters.model := rfl
  have hall : letter.AllDeclared := by decide +kernel
  obtain ⟨prepared, columns, hprepared, -, hinserts, -, -, hnames, hvalues, -⟩ :=
    persist_restores hdeclared hcolumns hmodel rfl hall
  refine ⟨prepared, columns, hdeclared, hcolumns, hmodel, rfl, hall, hprepared, hinserts, hnames,
    ?_, ?_, ?_, ?_⟩
  · exact hvalues letterTitle (hattributes ▸ by simp)
  · exact hvalues letterBody (hattributes ▸ by simp)
  · exact hvalues letterSent (hattributes ▸ by simp)
  · exact hvalues letterPlace (hattributes ▸ by simp)

end Repository

end RecordMapping
