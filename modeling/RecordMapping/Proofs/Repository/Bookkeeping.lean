import RecordMapping.Proofs.Repository.Editing

/-!
# The books of a record

A record keeps two books: the values of its attributes, and the names of those that are to be
written. Most of what happens to a record changes both of them, but the primary key is given without
being noted, and forgetting what was to be written leaves the values alone. Still no name is noted
without a value.

* `Record.Kept`: what holds of the books;
* `Record.Kept.act`, `Record.Kept.afterActions`: every action keeps it, and so does a run of them;
* `Record.bookkeeping`: what this means for the listings of a record.
-/

namespace RecordMapping

namespace Record

variable {model : Model} {record : Record}

/-! ## Actions -/

/-- What happens to a record: it is edited, is given its primary key, forgets what was to be
written, or is inserted or updated through a repository whose database answers in some way. -/
inductive Action where
  | edit (e : Edit)
  | setPrimaryKey (key : Value)
  | clearChanges
  | persist (repo : Repository) (pool : Pool)
  | update (repo : Repository) (pool : Pool)

/-- The record after an action. A write may succeed or fail. -/
def act (record : Record) : Action → Record
  | .edit e => record.edit e
  | .setPrimaryKey key => record.setPrimaryKey key
  | .clearChanges => record.clearChanges
  | .persist repo pool => ((repo.persist record).run pool).1.2
  | .update repo pool => ((repo.update record).run pool).1.2

/-- The record after actions, one after the other. -/
def afterActions (record : Record) (actions : List Action) : Record := actions.foldl act record

/-- How a record begins: new, with values in any order, or read, with values that stand in order. -/
inductive Begins (model : Model) : Record → Prop where
  | new (values : List (String × Value)) : Begins model (.ofValues model values)
  | read {attributes : Fields Value} (h : attributes.Sorted) :
    Begins model (.ofStored model attributes)

/-! ## What is kept -/

/-- The books of a record of a model: the values stand in the order of their names, each name once,
and every name that is to be written has a value. -/
structure Kept (model : Model) (record : Record) : Prop where
  model : record.model = model
  sorted : record.attributes.Sorted
  held : ∀ name ∈ record.changed, (record.get? name).isSome = true

namespace Kept

/-- An edit notes a name together with its value, and takes both away together. -/
theorem edit (h : Kept model record) (e : Edit) : Kept model (record.edit e) where
  model := by
    cases e <;> exact h.model
  sorted := by
    cases e with
    | set name value => exact h.sorted.insert name _
    | unset name => exact h.sorted.erase name
  held name hname := by
    rw [mem_changed_edit] at hname
    rw [get?_edit]
    split
    · rename_i hedited
      rw [if_pos hedited] at hname
      rwa [Option.isSome_map]
    · rename_i hother
      rw [if_neg hother] at hname
      exact h.held name hname

/-- The primary key is not noted; where it was noted before, it still has a value. -/
theorem setPrimaryKey (h : Kept model record) (key : Value) :
    Kept model (record.setPrimaryKey key) where
  model := h.model
  sorted := h.sorted.insert _ key
  held name hname := by
    show (Fields.get? (record.attributes.insert record.model.primaryKey key) name).isSome = true
    rw [Fields.get?_insert]
    split
    · rfl
    · exact h.held name hname

theorem clearChanges (h : Kept model record) : Kept model record.clearChanges :=
  ⟨h.model, h.sorted, fun _ hname => absurd hname List.not_mem_nil⟩

theorem afterInsert (h : Kept model record) (outcome : Outcome) :
    Kept model (Repository.afterInsert record outcome) := by
  unfold Repository.afterInsert
  cases outcome.insertId? with
  | none => exact h.clearChanges
  | some id => exact (h.setPrimaryKey (.ofNat id)).clearChanges

/-- However a write ends, the record is the one of before, or what its outcome makes of it. -/
theorem of_ends {α : Type} {repo : Repository} {query : Query} {written : Outcome → α × Record}
    {pool next : Pool} {result : Except Halt α × Record}
    (hends : repo.Ends query record written pool result next) (h : Kept model record)
    (hwritten : ∀ outcome, Kept model (written outcome).2) : Kept model result.2 := by
  cases hends with
  | halted halt => exact h
  | failed hprepared hlast => exact h
  | wrote hprepared hlast => exact hwritten _

/-- Every action keeps the books. -/
theorem act (h : Kept model record) (action : Action) : Kept model (record.act action) := by
  cases action with
  | edit e => exact h.edit e
  | setPrimaryKey key => exact h.setPrimaryKey key
  | clearChanges => exact h.clearChanges
  | persist repo pool => exact of_ends (repo.ends_persist record pool) h h.afterInsert
  | update repo pool =>
    show Kept model ((repo.update record).run pool).1.2
    rcases repo.ends_update record pool with ⟨e, hrun⟩ | hrun | ⟨key, hends⟩
    · rw [hrun]
      exact h
    · rw [hrun]
      exact h
    · exact of_ends hends h fun _ => h.clearChanges

/-- So does a run of actions. -/
theorem afterActions (h : Kept model record) (actions : List Action) :
    Kept model (record.afterActions actions) := by
  induction actions generalizing record with
  | nil => exact h
  | cons action actions ih => exact ih (h.act action)

end Kept

/-- A record begins with its books in order. -/
theorem Begins.kept (h : Begins model record) : Kept model record := by
  have hempty : Kept model (empty model) :=
    ⟨rfl, .nil, fun _ hname => absurd hname List.not_mem_nil⟩
  cases h with
  | new values =>
    -- each of the values is given by an edit
    unfold ofValues
    generalize empty model = start at hempty
    induction values generalizing start with
    | nil => exact hempty
    | cons value values ih => exact ih _ (hempty.edit (.set value.1 value.2))
  | read hsorted =>
    exact ⟨rfl, List.pairwise_map.mpr hsorted, fun _ hname => absurd hname List.not_mem_nil⟩

/-! ## Listings -/

/-- The names of the values: first the declared ones that have a value, as they are declared, then
the others, as they stand. -/
theorem names_values_eq_append (record : Record) : record.values.map (·.1)
    = (record.model.attributes.map (·.name)).filter (fun name => (record.get? name).isSome)
      ++ record.attributes.names.filter fun name => !record.model.hasAttribute name := by
  have hdeclared : (record.entries.map fun entry => (entry.1.name, entry.2)).map (·.1)
      = (record.entries.map (·.1)).map (·.name) := by
    rw [List.map_map, List.map_map]
    rfl
  rw [values_eq_append, List.map_append, hdeclared, entries_fst, List.filter_map, Fields.names,
    List.filter_map]
  rfl

/-- Something is noted exactly if something is to be written. -/
theorem isDirty_iff (h : Kept model record) : record.isDirty = true ↔ record.changes ≠ [] := by
  unfold isDirty
  rw [Bool.not_eq_true', List.isEmpty_eq_false_iff]
  constructor
  · intro hchanged
    obtain ⟨name, hname⟩ := List.exists_mem_of_ne_nil _ hchanged
    obtain ⟨value, hvalue⟩ := Option.isSome_iff_exists.mp (h.held name hname)
    exact List.ne_nil_of_mem ((mem_changes h.sorted).mpr ⟨hname, hvalue⟩)
  · intro hchanges
    obtain ⟨⟨name, value⟩, hchange⟩ := List.exists_mem_of_ne_nil _ hchanges
    exact List.ne_nil_of_mem ((mem_changes h.sorted).mp hchange).1

/-- **The books of a record agree, whatever happens to it.** Let the attributes of a model be
declared one after the other. Let a record of it begin new or read, and let any actions follow, with
writes through any repositories that succeed or fail. Then

* every name that is noted is that of an attribute that has a value;
* the values list each attribute that has a value once, with this value: first the declared ones in
  the order of their declaration, then the others in the order of their names;
* what is to be written is, in this order, the values whose names are noted;
* the record is dirty exactly if this is not nothing. -/
theorem bookkeeping (hdeclared : model.Declared) {start : Record} (hstart : Begins model start)
    (actions : List Action) :
    let record := start.afterActions actions
    (∀ name ∈ record.changed, ∃ value, record.get? name = some value)
    ∧ (record.values.map (·.1)).Nodup
    ∧ (∀ name value, (name, value) ∈ record.values ↔ record.get? name = some value)
    ∧ (∃ others, record.values.map (·.1)
        = (model.attributes.map (·.name)).filter (fun name => (record.get? name).isSome) ++ others
      ∧ others.Pairwise (· < ·) ∧ ∀ name ∈ others, model.hasAttribute name = false)
    ∧ record.changes.Sublist record.values
    ∧ (∀ entry, entry ∈ record.changes ↔ entry ∈ record.values ∧ entry.1 ∈ record.changed)
    ∧ (record.isDirty = true ↔ record.changes ≠ []) := by
  intro record
  have hkept : Kept model record := hstart.kept.afterActions actions
  have hmodel : record.model = model := hkept.model
  refine ⟨fun name hname => Option.isSome_iff_exists.mp (hkept.held name hname),
    nodup_names_values (hmodel ▸ hdeclared) hkept.sorted, fun name value => mem_values hkept.sorted,
    ⟨record.attributes.names.filter fun name => !model.hasAttribute name, ?_, ?_, ?_⟩,
    List.filter_sublist, fun entry => ?_, isDirty_iff hkept⟩
  · rw [← hmodel]
    exact record.names_values_eq_append
  · exact (List.pairwise_map.mpr hkept.sorted).filter _
  · intro name hname
    simpa using (List.mem_filter.mp hname).2
  · unfold changes
    rw [List.mem_filter, List.contains_iff_mem]

/-- An athlete whose insertion fails first, and then gives the key 9; the date is changed, and an
update of it fails; a name that is not declared is taken away and comes back. -/
def athleteActions : List Action :=
  [.persist Repository.athletes (.ofAnswers [.error Repository.gone]),
    .edit (.unset "nick"),
    .persist Repository.athletes (.ofAnswers [.ok (.inserted 9)]),
    .edit (.set "joined" (.int 60)),
    .update Repository.athletes (.ofAnswers [.error Repository.gone]),
    .edit (.set "nick" (.str "B")),
    .setPrimaryKey (.int 10)]

theorem bookkeeping_athlete :
    let start := ofValues Repository.athleteModel [("nick", .str "A"), ("name", .str "Ann")]
    let record := start.afterActions athleteActions
    Repository.athleteModel.Declared ∧ Begins Repository.athleteModel start
      ∧ record.values.map (·.1) = ["id", "name", "joined", "nick"]
      ∧ record.changes.map (·.1) = ["joined", "nick"]
      ∧ record.isDirty = true := by
  intro start record
  have hdeclared : Repository.athleteModel.Declared :=
    .declare (.declare (.declare (.start "Athlete" none "id") _) _) _
  have hstart : Begins Repository.athleteModel start := .new _
  have hchanges : record.changes.map (·.1) = ["joined", "nick"] := by decide +kernel
  obtain ⟨-, -, -, -, -, -, hdirty⟩ := bookkeeping hdeclared hstart athleteActions
  refine ⟨hdeclared, hstart, by decide +kernel, hchanges, hdirty.mpr fun hnone => ?_⟩
  have hnames : record.changes.map (·.1) = [] := by rw [show record.changes = [] from hnone]; rfl
  exact absurd (hnames.symm.trans hchanges) (List.cons_ne_nil _ _).symm

end Record

end RecordMapping
