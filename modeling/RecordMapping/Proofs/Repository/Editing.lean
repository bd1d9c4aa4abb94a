import RecordMapping.Proofs.Repository.Restoring

/-!
# What editing leaves to be written

A record that was read is edited: attributes are given values, and values are taken away, in any
order and as often as one likes. Then it is updated.

* `Record.Edited.after`: what a run of edits makes of a record is told by the last edit of each
  attribute;
* `Record.mem_changes`: what is to be written;
* `Repository.prepareQuery_updateQuery`: the statement of an update, as a function of this;
* `Repository.update_edits`: from the row to the statement.
-/

namespace RecordMapping

/-! ## What a record holds -/

namespace Record

variable {record : Record}

/-- All values are those that can be looked up. -/
theorem mem_values (hsorted : record.attributes.Sorted) {name : String} {value : Value} :
    (name, value) ∈ record.values ↔ record.get? name = some value := by
  rw [values_eq_append, List.mem_append, List.mem_map, List.mem_filter]
  constructor
  · rintro (⟨entry, hentry, hfield⟩ | ⟨hfield, -⟩)
    · obtain ⟨rfl, rfl⟩ := Prod.mk.inj hfield
      exact (mem_entries.mp hentry).2
    · exact hsorted.get?_of_mem hfield
  · intro hvalue
    cases hattribute : record.model.attribute? name with
    | some a =>
      have hname : a.name = name := by simpa using List.find?_some hattribute
      subst hname
      exact .inl ⟨(a, value),
        mem_entries.mpr ⟨List.mem_of_find?_eq_some hattribute, hvalue⟩, rfl⟩
    | none =>
      refine .inr ⟨Fields.mem_of_get? hvalue, ?_⟩
      simp [Model.hasAttribute, hattribute]

/-- Each name has one value. -/
theorem nodup_names_values (hdeclared : record.model.Declared)
    (hsorted : record.attributes.Sorted) : (record.values.map (·.1)).Nodup := by
  have hentries : (record.entries.map fun entry => (entry.1.name, entry.2)).map (·.1)
      = (record.entries.map (·.1)).map (·.name) := by
    rw [List.map_map, List.map_map]
    rfl
  rw [values_eq_append, List.map_append, hentries]
  refine List.nodup_append.mpr ⟨?_, ?_, ?_⟩
  · exact hdeclared.nodup_names.sublist (record.entries_sublist.map _)
  · have hnames : (record.attributes.map (·.1)).Nodup :=
      List.pairwise_map.mpr (hsorted.imp String.ne_of_lt)
    exact hnames.sublist (List.filter_sublist.map _)
  · -- behind the attributes stand the names that are not declared
    rintro name hname other hother rfl
    obtain ⟨a, ha, rfl⟩ := List.mem_map.mp hname
    obtain ⟨field, hfield, hfieldName⟩ := List.mem_map.mp hother
    have hundeclared := (List.mem_filter.mp hfield).2
    rw [hfieldName, Model.hasAttribute,
      Model.attribute?_of_mem hdeclared (record.entries_sublist.subset ha)] at hundeclared
    exact absurd hundeclared Bool.false_ne_true

/-- What is to be written are the values of the changed names. -/
theorem mem_changes (hsorted : record.attributes.Sorted) {name : String} {value : Value} :
    (name, value) ∈ record.changes ↔ name ∈ record.changed ∧ record.get? name = some value := by
  unfold changes
  rw [List.mem_filter, mem_values hsorted, List.contains_iff_mem, and_comm]

/-! ## Edits -/

/-- A change of an attribute. -/
inductive Edit where
  | set (name : String) (value : Value)
  | unset (name : String)

namespace Edit

/-- The attribute that is changed. -/
def name : Edit → String
  | set name _ => name
  | unset name => name

/-- The value that the attribute is given, if it is not taken away. -/
def value? : Edit → Option Value
  | set _ value => some value
  | unset _ => none

end Edit

/-- The record after an edit. -/
def edit (record : Record) : Edit → Record
  | .set name value => record.set name value
  | .unset name => record.unset name

/-- The record after edits, one after the other. -/
def afterEdits (record : Record) (edits : List Edit) : Record := edits.foldl edit record

/-- The last edit of an attribute. -/
def lastEdit? (edits : List Edit) (name : String) : Option Edit :=
  edits.reverse.find? (·.name == name)

/-- The value that the last edit of an attribute gave it, if this did not take the value away. -/
def lastSet? (edits : List Edit) (name : String) : Option Value :=
  (lastEdit? edits name).bind Edit.value?

theorem lastEdit?_append_singleton (edits : List Edit) (e : Edit) (name : String) :
    lastEdit? (edits ++ [e]) name = if e.name = name then some e else lastEdit? edits name := by
  unfold lastEdit?
  rw [List.reverse_append, List.reverse_singleton, List.singleton_append]
  by_cases hname : e.name = name
  · rw [if_pos hname, List.find?_cons_of_pos (by simpa using hname)]
  · rw [if_neg hname, List.find?_cons_of_neg (by simpa using hname)]

theorem lastEdit?_eq_none {edits : List Edit} {name : String} (h : ∀ e ∈ edits, e.name ≠ name) :
    lastEdit? edits name = none := by
  refine List.find?_eq_none.mpr fun e he hname => ?_
  exact h e (List.mem_reverse.mp he) (eq_of_beq hname)

theorem get?_edit (record : Record) (e : Edit) (name : String) :
    (record.edit e).get? name
      = if e.name = name then e.value?.map (normalized record.model name)
        else record.get? name := by
  cases e with
  | set key value =>
    show (record.attributes.insert key _).get? name = _
    rw [Fields.get?_insert]
    by_cases hkey : key = name <;> simp [Edit.name, Edit.value?, get?, hkey]
  | unset key => exact Fields.get?_erase record.attributes key name

theorem mem_changed_edit (record : Record) (e : Edit) (name : String) :
    name ∈ (record.edit e).changed
      ↔ if e.name = name then e.value?.isSome = true else name ∈ record.changed := by
  cases e with
  | set key value =>
    have hset : name ∈ (record.set key value).changed ↔ key = name ∨ name ∈ record.changed := by
      show name ∈ (if record.changed.contains key then record.changed else key :: _) ↔ _
      split
      · rename_i hchanged
        refine ⟨.inr, fun h => h.elim (fun hkey => ?_) id⟩
        exact hkey ▸ List.contains_iff_mem.mp hchanged
      · rw [List.mem_cons, eq_comm]
    show name ∈ (record.set key value).changed ↔ if key = name then _ else _
    rw [hset]
    by_cases hkey : key = name <;> simp [Edit.value?, hkey]
  | unset key =>
    show name ∈ record.changed.filter (· != key) ↔ _
    rw [List.mem_filter]
    by_cases hkey : key = name
    · simp [Edit.name, Edit.value?, hkey]
    · simp [Edit.name, hkey, Ne.symm hkey]

/-- What edits make of a record. Where an attribute was edited, its last edit tells which value it
has and whether this is to be written; elsewhere all stays as it was. -/
structure Edited (start : Record) (edits : List Edit) (record : Record) : Prop where
  model : record.model = start.model
  relations : record.relations = start.relations
  sorted : record.attributes.Sorted
  values : ∀ name, record.get? name
    = (lastEdit? edits name).elim (start.get? name) fun e =>
      e.value?.map (normalized start.model name)
  changed : ∀ name, name ∈ record.changed
    ↔ (lastEdit? edits name).elim (name ∈ start.changed) fun e => e.value?.isSome = true

namespace Edited

variable {start : Record} {edits : List Edit}

theorem refl (hsorted : start.attributes.Sorted) : Edited start [] start :=
  ⟨rfl, rfl, hsorted, fun _ => rfl, fun _ => Iff.rfl⟩

/-- One edit more. -/
theorem edit (h : Edited start edits record) (e : Edit) :
    Edited start (edits ++ [e]) (record.edit e) where
  model := by
    cases e <;> exact h.model
  relations := by
    cases e <;> exact h.relations
  sorted := by
    cases e with
    | set name value => exact h.sorted.insert name _
    | unset name => exact h.sorted.erase name
  values name := by
    rw [get?_edit, lastEdit?_append_singleton, h.values, h.model]
    by_cases hname : e.name = name <;> simp [hname]
  changed name := by
    rw [mem_changed_edit, lastEdit?_append_singleton, h.changed]
    by_cases hname : e.name = name <;> simp [hname]

/-- A run of edits. -/
theorem after (hsorted : start.attributes.Sorted) (edits : List Edit) :
    Edited start edits (start.afterEdits edits) := by
  induction edits using List.reverseRecOn with
  | nil => exact refl hsorted
  | append_singleton edits e ih =>
    have hstep : start.afterEdits (edits ++ [e]) = (start.afterEdits edits).edit e := by
      unfold afterEdits
      rw [List.foldl_append]
      rfl
    rw [hstep]
    exact ih.edit e

/-- An attribute that is not edited keeps its value. -/
theorem get?_of_forall_ne (h : Edited start edits record) {name : String}
    (hname : ∀ e ∈ edits, e.name ≠ name) : record.get? name = start.get? name := by
  rw [h.values, lastEdit?_eq_none hname]
  rfl

/-- Edits of other attributes leave the primary key as it is. -/
theorem primaryKey?_of_forall_ne (h : Edited start edits record)
    (hedits : ∀ e ∈ edits, e.name ≠ start.model.primaryKey) :
    record.primaryKey? = start.primaryKey? := by
  have hkey := h.get?_of_forall_ne hedits
  unfold primaryKey?
  rw [h.model, hkey]

/-- If there was nothing to be written before, then now it is what was given last. -/
theorem mem_changes_iff (h : Edited start edits record) (hstart : start.changed = [])
    {name : String} {value : Value} :
    (name, value) ∈ record.changes
      ↔ (lastSet? edits name).map (normalized start.model name) = some value := by
  rw [mem_changes h.sorted, h.changed, h.values, hstart, lastSet?]
  cases lastEdit? edits name with
  | none => simp
  | some e =>
    cases hvalue : e.value? with
    | none => simp [hvalue]
    | some v => simp [hvalue]

end Edited

end Record

/-! ## What a row leaves -/

namespace Hydration

variable {model : Model} {cells : List (String × Value)}

/-- The attributes of a record that was read stand in order. -/
theorem sorted_record (model : Model) (cells : List (String × Value)) :
    (record model cells).attributes.Sorted :=
  List.pairwise_map.mpr (Fields.sorted_ofList _)

/-- If no column is null that is read as the primary key, then the key is what is read from one of
them. -/
theorem primaryKey?_record (hsome : ∃ cell ∈ cells, readName model cell.1 = model.primaryKey)
    (hkeys : ∀ cell ∈ cells, readName model cell.1 = model.primaryKey → cell.2.isNull = false) :
    ∃ cell ∈ cells, readName model cell.1 = model.primaryKey
      ∧ (record model cells).primaryKey? = some (readValue model cell.1 cell.2) := by
  obtain ⟨cell, hcell, hname⟩ := hsome
  have hfound : (cells.reverse.find? fun cell =>
      readName model cell.1 == model.primaryKey).isSome = true :=
    List.find?_isSome.mpr ⟨cell, List.mem_reverse.mpr hcell, by simpa using hname⟩
  obtain ⟨last, hlast⟩ := Option.isSome_iff_exists.mp hfound
  have hmem : last ∈ cells := List.mem_reverse.mp (List.mem_of_find?_eq_some hlast)
  have hkey : readName model last.1 = model.primaryKey := by simpa using List.find?_some hlast
  refine ⟨last, hmem, hkey, ?_⟩
  unfold Record.primaryKey?
  show ((record model cells).get? model.primaryKey).filter _ = _
  rw [get?_record, hlast, Option.map_some, Option.filter_some,
    isNull_readValue last.1 (hkeys last hmem hkey)]
  rfl

end Hydration

/-! ## The statement of an update -/

namespace Repository

open Expansion Sql Sql.Piece

variable {repo : Repository} {record : Record} {key : Value}

/-- The column that an update sets for a value to be written, and the value as it is stored. -/
def assignment (repo : Repository) (change : String × Value) : String × Value :=
  (repo.model.columnFor change.1, Storage.toStorage repo.model.table
    (repo.model.attribute? change.1) change.2 repo.mapping.config.dateStorage)

/-- The comparison of the column of the primary key with the key of a record. -/
def keyConjunct (repo : Repository) (key : Value) : List Piece :=
  let base := TableRef.plain repo.model.table (some repo.model.name)
  let operand := boundValue repo.model base repo.mapping.config.dateStorage
    (keyRef repo.model base.aliasName) key
  ColumnRef.pieces ⟨repo.model.table, repo.model.primaryKeyColumn⟩
    ++ if operand.isNull then [word " IS NULL"] else [word " = ", param operand]

/-- The update that writes given changes to the row with a given key. -/
def updateStatement (repo : Repository) (changes : List (String × Value)) (key : Value) :
    Statement :=
  .ofPieces (word "UPDATE " :: name repo.model.table :: word " SET "
    :: separated ", " ((changes.map repo.assignment).map fun value =>
      [name value.1, word " = ", param value.2])
    ++ clause " WHERE " " AND " [repo.keyConjunct key])

/-- The name of the primary key has no dot, and it means no relation of the model. -/
structure PlainKey (repo : Repository) : Prop where
  undotted : Text.splitFirst? '.' repo.model.primaryKey = none
  unrelated : repo.mapping.schema.lookup repo.model.name repo.model.primaryKey = none

/-- Such a key is resolved as a column of the model's own table. -/
theorem PlainKey.resolveKey (h : repo.PlainKey) (base : TableRef) :
    Expansion.resolveKey repo.mapping.schema repo.model base repo.model.primaryKey
      = .ok (keyRef repo.model base.aliasName, none) := by
  unfold Expansion.resolveKey
  rw [h.undotted]
  dsimp only
  rw [h.unrelated]
  rfl

/-- The column of the primary key, under the name by which it is stored. -/
theorem stored_keyRef (hmodel : repo.mapping.schema.model? repo.model.name = some repo.model) :
    let base := TableRef.plain repo.model.table (some repo.model.name)
    (keyRef repo.model base.aliasName).stored repo.mapping.schema [base]
      = ⟨repo.model.table, repo.model.primaryKeyColumn⟩ := by
  intro base
  have hmodelOf := modelOf?_of_model hmodel
  unfold ColumnRef.stored
  rw [show (keyRef repo.model base.aliasName).table = base.aliasName from rfl, hmodelOf]
  rfl

/-- The condition on the primary key is written as its comparison. -/
theorem pieces_keyCondition (hmodel : repo.mapping.schema.model? repo.model.name = some repo.model)
    (key : Value) :
    let base := TableRef.plain repo.model.table (some repo.model.name)
    ((predicate repo.model base repo.mapping.config.dateStorage (keyRef repo.model base.aliasName)
        (repo.keyCondition key)).stored repo.mapping.schema [base]).pieces
      = .ok (repo.keyConjunct key) := by
  intro base
  rw [predicate_eq]
  unfold Predicate.stored
  dsimp only
  rw [stored_keyRef hmodel]
  exact equal_pieces _ _

/-- The values that an update sets are what is to be written, but for the primary key. -/
def pending (repo : Repository) (record : Record) : List (String × Value) :=
  record.changes.filter fun change => change.1 != repo.model.primaryKey

/-- If the primary key was not edited, this is all that is to be written. -/
theorem pending_of_edited {start : Record} {edits : List Record.Edit}
    (h : Record.Edited start edits record) (hstart : start.changed = [])
    (hedits : ∀ e ∈ edits, e.name ≠ repo.model.primaryKey) :
    repo.pending record = record.changes := by
  refine List.filter_eq_self.mpr fun change hchange => ?_
  rw [bne_iff_ne]
  intro hname
  have hvalue := (h.mem_changes_iff hstart).mp hchange
  rw [hname, Record.lastSet?, Record.lastEdit?_eq_none hedits] at hvalue
  exact absurd hvalue nofun

/-- The statement tree of an update, before it takes storage columns. -/
def updateTree (repo : Repository) (record : Record) (key : Value) : Tree :=
  let base := TableRef.plain repo.model.table (some repo.model.name)
  let storage := repo.mapping.config.dateStorage
  .update base (storedForm repo.model storage (repo.updateValues record))
    [predicate repo.model base storage (keyRef repo.model base.aliasName) (repo.keyCondition key)]

theorem ofQuery_updateQuery (hplain : repo.PlainKey) (record : Record) (key : Value) :
    ofQuery repo.mapping.schema repo.mapping.config.dateStorage repo.model
        (repo.updateQuery record key)
      = .ok ⟨repo.updateTree record key, none, [], repo.model.table⟩ := by
  let base := TableRef.plain repo.model.table (some repo.model.name)
  have hkeys : Resolves repo.mapping.schema repo.model base [repo.keyCondition key]
      [(keyRef repo.model base.aliasName, none)] := .cons (hplain.resolveKey base) .nil
  exact bind_eq_ok.mpr ⟨_, resolveConditions_eq_ok.mpr ⟨_, hkeys, rfl, rfl⟩, rfl⟩

/-- Its values become assignments, and its condition the comparison of the key. -/
theorem statement_updateTree
    (hmodel : repo.mapping.schema.model? repo.model.name = some repo.model)
    (hpending : repo.pending record ≠ []) (key : Value) :
    ((repo.updateTree record key).stored repo.mapping.schema).statement
      = .ok (repo.updateStatement (repo.pending record) key) := by
  have hvalues : storedValues repo.mapping.schema (.plain repo.model.table (some repo.model.name))
      (storedForm repo.model repo.mapping.config.dateStorage (repo.updateValues record))
        = (repo.pending record).map repo.assignment := by
    rw [storedValues_of_model hmodel]
    unfold storedForm updateValues
    rw [List.filterMap_map, List.map_filterMap, ← List.filterMap_eq_map]
    rfl
  have hwhere := wherePieces_eq_ok.mpr
    ⟨[repo.keyConjunct key], .cons (pieces_keyCondition hmodel key) .nil, rfl⟩
  unfold updateTree
  rw [Tree.stored, hvalues]
  -- an update that sets nothing would be refused
  obtain ⟨change, changes, hcons⟩ := List.exists_cons_of_ne_nil hpending
  rw [hcons]
  exact Tree.statement_eq_ok.mpr ⟨_, bind_eq_ok.mpr ⟨_, hwhere, rfl⟩, rfl⟩

/-- An update that sets something can be prepared. -/
theorem prepareQuery_updateQuery
    (hmodel : repo.mapping.schema.model? repo.model.name = some repo.model)
    (hplain : repo.PlainKey) (hpending : repo.pending record ≠ []) (key : Value) :
    ∃ prepared, repo.prepareQuery (repo.updateQuery record key) = .ok prepared
      ∧ prepared.statement = repo.updateStatement (repo.pending record) key := by
  have hstatement := statement_updateTree hmodel hpending key
  refine ⟨_, bind_eq_ok.mpr ⟨_, ofQuery_updateQuery hplain record key, bind_eq_ok.mpr
    ⟨none, rfl, bind_eq_ok.mpr ⟨_, hstatement, rfl⟩⟩⟩, rfl⟩

/-! ## Running an update -/

/-- How a write of a record ends whose attempts were made, by the answer to the last one. -/
def settled {α : Type} (record : Record) (written : Outcome → α × Record) :
    Result Outcome → Except Halt α × Record
  | .error e => (.error (.failed e), record)
  | .ok outcome => (.ok (written outcome).1, (written outcome).2)

/-- A write that can be prepared ends as its attempts do. -/
theorem run_writing {α : Type} {query : Query} {prepared : Prepared}
    (hprepared : repo.prepareQuery query = .ok prepared) (hroom : repo.mapping.config.LeavesRoom)
    (written : Outcome → α × Record) (pool : Pool) :
    (repo.writing query record written).run pool
      = (settled record written (pool.lastAnswer repo.retries),
        pool.afterAttempts repo.retries prepared.statement) := by
  unfold writing
  rw [StateT.run_bind,
    show StateT.run (repo.write query) pool = _ from run_write hprepared hroom pool]
  cases pool.lastAnswer repo.retries <;> rfl

/-- Without room for the first attempt it halts. -/
theorem run_writing_of_not_leavesRoom {α : Type} {query : Query} {prepared : Prepared}
    (hprepared : repo.prepareQuery query = .ok prepared)
    (hroom : ¬ repo.mapping.config.LeavesRoom) (written : Outcome → α × Record) (pool : Pool) :
    (repo.writing query record written).run pool = ((.error .overflow, record), pool) := by
  unfold writing
  rw [StateT.run_bind, show StateT.run (repo.write query) pool = _ from
    run_write_of_not_leavesRoom hprepared hroom pool]
  rfl

section Running

variable (hrecord : record.model = repo.model)
include hrecord

theorem check_eq_ok : repo.check record = .ok () := by
  unfold check
  rw [hrecord]
  exact if_pos BEq.rfl

/-- A record without a primary key cannot be updated. -/
theorem run_update_of_none (hkey : record.primaryKey? = none) (pool : Pool) :
    (repo.update record).run pool = ((.error (.failed .missingPrimaryKey), record), pool) := by
  unfold update keyOf
  rw [check_eq_ok hrecord, hkey]
  rfl

/-- Without changes nothing is sent. -/
theorem run_update_of_nil (hkey : record.primaryKey? = some key)
    (hpending : repo.pending record = []) (pool : Pool) :
    (repo.update record).run pool = ((.ok 0, record), pool) := by
  have hvalues : repo.updateValues record = [] := List.map_eq_nil_iff.mpr hpending
  unfold update keyOf
  rw [check_eq_ok hrecord, hkey, hvalues]
  rfl

/-- With changes an update is the write of its query. -/
theorem update_eq_writing (hkey : record.primaryKey? = some key)
    (hpending : repo.pending record ≠ []) :
    repo.update record
      = repo.writing (repo.updateQuery record key) record (updated record) := by
  have hvalues : (repo.updateValues record).isEmpty = false := by
    rw [List.isEmpty_eq_false_iff]
    exact fun h => hpending (List.map_eq_nil_iff.mp h)
  unfold update keyOf
  rw [check_eq_ok hrecord, hkey]
  show (if (repo.updateValues record).isEmpty = true then _ else _) = _
  rw [hvalues]
  rfl

/-- After an update that went well there is nothing left to be written. -/
theorem update_again {pool next : Pool} {count : Nat} {after : Record}
    (h : (repo.update record).run pool = ((.ok count, after), next)) (pool' : Pool) :
    (repo.update after).run pool' = ((.ok 0, after), pool') := by
  cases hkey : record.primaryKey? with
  | none =>
    rw [run_update_of_none hrecord hkey] at h
    exact absurd (congrArg (·.1.1) h) nofun
  | some key =>
    by_cases hpending : repo.pending record = []
    · rw [run_update_of_nil hrecord hkey hpending] at h
      obtain ⟨-, rfl⟩ := Prod.mk.inj (congrArg (·.1) h)
      exact run_update_of_nil hrecord hkey hpending pool'
    · have hends := repo.ends_writing (repo.updateQuery record key) record (updated record) pool
      rw [← update_eq_writing hrecord hkey hpending, h] at hends
      obtain ⟨_, _, -, -, -, hwritten⟩ := hends.of_ok
      obtain ⟨-, rfl⟩ := Prod.mk.inj hwritten
      have hnone : record.clearChanges.changes = [] :=
        List.filter_eq_nil_iff.mpr fun _ _ => Bool.false_ne_true
      have hcleared : repo.pending record.clearChanges = [] := by
        rw [pending, hnone]
        rfl
      exact @run_update_of_nil repo record.clearChanges key hrecord hkey hcleared pool'

variable (hmodel : repo.mapping.schema.model? repo.model.name = some repo.model)
  (hplain : repo.PlainKey)
include hmodel hplain

/-- With changes, the statement of an update is sent as often as there are attempts. -/
theorem run_update (hroom : repo.mapping.config.LeavesRoom)
    (hkey : record.primaryKey? = some key) (hpending : repo.pending record ≠ []) (pool : Pool) :
    (repo.update record).run pool
      = (settled record (updated record) (pool.lastAnswer repo.retries),
        pool.afterAttempts repo.retries (repo.updateStatement (repo.pending record) key)) := by
  obtain ⟨prepared, hprepared, hstatement⟩ :=
    prepareQuery_updateQuery hmodel hplain hpending key
  rw [update_eq_writing hrecord hkey hpending, run_writing hprepared hroom, hstatement]

/-- An update sends nothing only if there is no key, no change or no room for an attempt. -/
theorem sent_update_iff (pool : Pool) : ((repo.update record).run pool).2.sent = pool.sent
    ↔ record.primaryKey? = none ∨ repo.pending record = []
      ∨ ¬ repo.mapping.config.LeavesRoom := by
  cases hkey : record.primaryKey? with
  | none =>
    rw [run_update_of_none hrecord hkey]
    exact iff_of_true rfl (.inl rfl)
  | some key =>
    by_cases hpending : repo.pending record = []
    · rw [run_update_of_nil hrecord hkey hpending]
      exact iff_of_true rfl (.inr (.inl hpending))
    · by_cases hroom : repo.mapping.config.LeavesRoom
      · rw [run_update hrecord hmodel hplain hroom hkey hpending]
        refine iff_of_false (sent_afterAttempts_ne pool repo.retries _) ?_
        simp [hpending, hroom]
      · obtain ⟨prepared, hprepared, -⟩ := prepareQuery_updateQuery hmodel hplain hpending key
        rw [update_eq_writing hrecord hkey hpending,
          run_writing_of_not_leavesRoom hprepared hroom]
        exact iff_of_true rfl (.inr (.inr hroom))

end Running

/-- **An update writes what was set last, and nothing else.** Let the model of a repository be
declared attribute by attribute and be the schema's model of its name, and let the name of its
primary key have no dot and mean no relation. Then a record that was read from columns, edited
anyhow but for the primary key, and updated behaves like this:

* what is to be written has one entry for each attribute whose last edit gave it a value, with this
  value in the form that the attribute takes, and no other entry;
* if the record has a primary key, the cap on retries leaves room for the first attempt, and there
  is something to be written, then the attempts to run one statement are made: the update that
  sets the columns of these attributes to the stored forms of their values where the column of the
  primary key is the key of the record;
* otherwise, and only then, no statement is sent;
* after an update that went well another one sends nothing.

If some column is read as the primary key, and none of those that are is null, then the record has
a primary key, which is read from one of them. A null in one of them can leave the record without:
besides the column of the primary key, this may be one that no attribute declares and that merely
has the name of the key. -/
theorem update_edits (hdeclared : repo.model.Declared)
    (hmodel : repo.mapping.schema.model? repo.model.name = some repo.model)
    (hplain : repo.PlainKey) (cells : List (String × Value))
    (relations : List (String × List Record)) {edits : List Record.Edit}
    (hedits : ∀ e ∈ edits, e.name ≠ repo.model.primaryKey) :
    let found := { Hydration.record repo.model cells with relations }
    let edited := found.afterEdits edits
    (edited.changes.map (·.1)).Nodup
    ∧ (∀ name value, (name, value) ∈ edited.changes
      ↔ (Record.lastSet? edits name).map (Record.normalized repo.model name) = some value)
    ∧ (∀ key, found.primaryKey? = some key → repo.mapping.config.LeavesRoom →
      edited.changes ≠ [] → ∀ pool, (repo.update edited).run pool
        = (settled edited (updated edited) (pool.lastAnswer repo.retries),
          pool.afterAttempts repo.retries (repo.updateStatement edited.changes key)))
    ∧ (∀ pool : Pool, ((repo.update edited).run pool).2.sent = pool.sent
      ↔ found.primaryKey? = none ∨ edited.changes = [] ∨ ¬ repo.mapping.config.LeavesRoom)
    ∧ (∀ pool next count after, (repo.update edited).run pool = ((.ok count, after), next) →
      (repo.update after).run next = ((.ok 0, after), next))
    ∧ ((∃ cell ∈ cells, Hydration.readName repo.model cell.1 = repo.model.primaryKey) →
      (∀ cell ∈ cells, Hydration.readName repo.model cell.1 = repo.model.primaryKey →
        cell.2.isNull = false) →
      ∃ cell ∈ cells, Hydration.readName repo.model cell.1 = repo.model.primaryKey
        ∧ found.primaryKey? = some (Hydration.readValue repo.model cell.1 cell.2)) := by
  intro found edited
  have hsorted : found.attributes.Sorted := Hydration.sorted_record repo.model cells
  have hedited : Record.Edited found edits edited := .after hsorted edits
  have hrecord : edited.model = repo.model := hedited.model
  -- the primary key was not edited, so it is the one that was read, and is not to be written
  have hkey : edited.primaryKey? = found.primaryKey? := hedited.primaryKey?_of_forall_ne hedits
  have hpending : repo.pending edited = edited.changes := pending_of_edited hedited rfl hedits
  refine ⟨?_, fun name value => hedited.mem_changes_iff rfl, ?_, ?_,
    fun pool next count after h => ?_, ?_⟩
  · have hnames := Record.nodup_names_values (hrecord ▸ hdeclared) hedited.sorted
    exact hnames.sublist (List.filter_sublist.map _)
  · intro key hfound hroom hchanges pool
    rw [← hpending] at hchanges ⊢
    exact run_update hrecord hmodel hplain hroom (hkey.trans hfound) hchanges pool
  · intro pool
    rw [← hkey, ← hpending]
    exact sent_update_iff hrecord hmodel hplain pool
  · exact update_again hrecord h next
  · exact Hydration.primaryKey?_record

/-- A kind of athletes. Their key has a column of another name, and a date is stored as a number. -/
def athleteModel : Model :=
  (((Model.empty "Athlete").declare ⟨"id", .number, some "athlete_id", none, none⟩).declare
    (.plain "name" .string)).declare ⟨"joined", .date, none, some .epoch, none⟩

/-- A repository of athletes. -/
def athletes : Repository where
  mapping := {
    schema := ⟨[("Athlete", athleteModel)], .empty⟩
    config := .default
    valid := Config.validate_default }
  model := athleteModel

/-- The columns of an athlete. -/
def ann : List (String × Value) :=
  [("joined", .int 0), ("athlete_id", .int 1), ("name", .str "Ann")]

/-- A name that is given, taken away and given again, a date, and a name that is not declared and
taken away in the end. -/
def annEdits : List Record.Edit :=
  [.set "name" (.str "Bea"), .set "nick" (.str "A"), .unset "name", .set "joined" (.int 60),
    .set "name" (.str "Cleo"), .unset "nick"]

theorem update_edits_ann :
    let found := { Hydration.record athletes.model ann with relations := [] }
    let edited := found.afterEdits annEdits
    athletes.model.Declared
    ∧ athletes.mapping.schema.model? athletes.model.name = some athletes.model
    ∧ athletes.PlainKey
    ∧ (∀ e ∈ annEdits, e.name ≠ athletes.model.primaryKey)
    ∧ edited.changes.map (·.1) = ["name", "joined"]
    ∧ ("name", .str "Cleo") ∈ edited.changes
    ∧ ∃ st : Statement, (∀ pool, (athletes.update edited).run pool
        = (settled edited (updated edited) (pool.lastAnswer athletes.retries),
          pool.afterAttempts athletes.retries st))
      ∧ st.sql = "UPDATE `athlete` SET `name` = ?, `joined` = ? WHERE `athlete`.`athlete_id` = ?"
      ∧ st.params = [.str "Cleo", .int 60, .int 1] := by
  have hdeclared : athletes.model.Declared :=
    .declare (.declare (.declare (.start "Athlete" none "id") _) _) _
  have hmodel : athletes.mapping.schema.model? athletes.model.name = some athletes.model := rfl
  have hplain : athletes.PlainKey := ⟨by decide +kernel, by decide +kernel⟩
  have hedits : ∀ e ∈ annEdits, e.name ≠ athletes.model.primaryKey := by decide +kernel
  have hroom : athletes.mapping.config.LeavesRoom := by
    show _ < UInt32.size
    decide
  obtain ⟨-, hmem, hrun, -, -, -⟩ := update_edits hdeclared hmodel hplain ann [] hedits
  have hcleo := (hmem "name" (.str "Cleo")).mpr rfl
  have hchanges := List.ne_nil_of_mem hcleo
  refine ⟨hdeclared, hmodel, hplain, hedits, by decide +kernel, hcleo, _,
    hrun (.int 1) rfl hroom hchanges, by decide +kernel, rfl⟩

-- a null in a column that merely has the name of the key takes the key away
example : (Hydration.record athletes.model (ann ++ [("id", .null)])).primaryKey?.isNone = true := by
  decide +kernel

end Repository

end RecordMapping
