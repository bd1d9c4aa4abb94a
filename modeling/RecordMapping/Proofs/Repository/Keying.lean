import RecordMapping.Proofs.Repository.Editing

/-!
# Which row a record is written to

An update and a removal say by the primary key which row they mean. The key is the one that the
record has when it is written: if it was edited since the record was read, then another row is
meant.

* `Record.Edited.eq_key`: the key of a record after edits;
* `Repository.writes_by_key`: the only conjunct of an update or a removal compares the key.
-/

namespace RecordMapping

/-- If a record that had a key has one after edits, then it is the value that the key was set to
last, in the form that its attribute takes, or the one from before if it was not set. -/
theorem Record.Edited.eq_key {start record : Record} {edits : List Record.Edit}
    (h : Record.Edited start edits record) {before key : Value}
    (hbefore : start.primaryKey? = some before) (hkey : record.primaryKey? = some key) :
    key = ((lastSet? edits start.model.primaryKey).map
      (normalized start.model start.model.primaryKey)).getD before := by
  unfold primaryKey? at hkey
  rw [h.model, h.values] at hkey
  unfold lastSet?
  cases hlast : lastEdit? edits start.model.primaryKey with
  | none =>
    rw [hlast] at hkey
    exact (Option.some.inj (hbefore.symm.trans hkey)).symm
  | some e =>
    rw [hlast] at hkey
    -- an edit that takes the key away leaves none
    cases e with
    | unset name => exact absurd hkey nofun
    | set name value =>
      have hset := (Option.filter_eq_some_iff.mp hkey).1
      exact (Option.some.inj hset).symm

namespace Repository

open Expansion Sql Sql.Piece

variable {repo : Repository} {record : Record} {key : Value} {conjunct : List Piece}

/-! ## The conjunct -/

/-- The table of the model, under its own name. -/
def ownTable (repo : Repository) : TableRef := .plain repo.model.table (some repo.model.name)

/-- A conjunct that compares a key with the column that the name of the primary key means. The key
is compared in the form that conditions take; if this is null, the conjunct is a test for null. -/
def ComparesKey (repo : Repository) (key : Value) (conjunct : List Piece) : Prop :=
  ∃ column link?,
    resolveKey repo.mapping.schema repo.model repo.ownTable repo.model.primaryKey
      = .ok (column, link?)
    ∧ let operand := boundValue repo.model repo.ownTable repo.mapping.config.dateStorage column key
      conjunct = (column.stored repo.mapping.schema [repo.ownTable]).pieces
        ++ if operand.isNull then [word " IS NULL"] else [word " = ", param operand]

/-- The conjunct that is written for the condition on the primary key. -/
theorem comparesKey_of_isConjunct {query : Query} (htable : query.table? = none)
    (h : repo.IsConjunct query [baseTable repo.model query] (repo.keyCondition key) conjunct) :
    repo.ComparesKey key conjunct := by
  have hbase : baseTable repo.model query = repo.ownTable := by
    unfold baseTable
    rw [htable]
    rfl
  obtain ⟨column, link?, hresolve, hpieces⟩ := h
  rw [hbase] at hresolve hpieces
  exact ⟨column, link?, hresolve, Except.ok.inj (hpieces.symm.trans (equal_pieces _ _))⟩

/-- A query with no other condition has one conjunct. -/
theorem exists_comparesKey {query : Query} {conjuncts : List (List Piece)}
    (htable : query.table? = none) (hconditions : query.conditions = [repo.keyCondition key])
    (h : List.Forall₂ (repo.IsConjunct query [baseTable repo.model query]) query.conditions
      conjuncts) : ∃ conjunct, conjuncts = [conjunct] ∧ repo.ComparesKey key conjunct := by
  rw [hconditions] at h
  obtain ⟨conjunct, rest, hconjunct, hrest, rfl⟩ := List.forall₂_cons_left_iff.mp h
  rw [List.forall₂_nil_left_iff.mp hrest]
  exact ⟨conjunct, rfl, comparesKey_of_isConjunct htable hconjunct⟩

/-- The name of the key means its own column, unless it has a dot or means a relation. -/
theorem ComparesKey.eq_keyConjunct (h : repo.ComparesKey key conjunct)
    (hmodel : repo.mapping.schema.model? repo.model.name = some repo.model)
    (hplain : repo.PlainKey) : conjunct = repo.keyConjunct key := by
  obtain ⟨column, link?, hresolve, hconjunct⟩ := h
  rw [hplain.resolveKey] at hresolve
  obtain ⟨rfl, -⟩ := Prod.mk.inj (Except.ok.inj hresolve)
  have hstored := stored_keyRef hmodel
  rw [hconjunct]
  unfold ownTable keyConjunct
  rw [hstored]

/-! ## Updates and removals -/

/-- The query that removes the row of a record. -/
def removeQuery (repo : Repository) (key : Value) : Query :=
  { Query.empty .delete with conditions := [repo.keyCondition key] }

/-- A write of a record sends nothing, or the attempts of its prepared query are made. -/
theorem Ends.sent {α : Type} {query : Query} {written : Outcome → α × Record} {pool next : Pool}
    {result : Except Halt α × Record} (h : repo.Ends query record written pool result next) :
    next = pool ∨ ∃ prepared, repo.prepareQuery query = .ok prepared
      ∧ next = pool.afterAttempts repo.retries prepared.statement := by
  cases h with
  | halted halt => exact .inl rfl
  | failed hprepared hlast => exact .inr ⟨_, hprepared, rfl⟩
  | wrote hprepared hlast => exact .inr ⟨_, hprepared, rfl⟩

/-- A removal of a record with a key sends what the write of its query sends. -/
theorem run_remove_sent (hrecord : record.model = repo.model) (hkey : record.primaryKey? = some key)
    (pool : Pool) : ((repo.remove record).run.run pool).2
      = ((repo.write (repo.removeQuery key)).run.run pool).2 := by
  have hremove : repo.remove record = Outcome.affected <$> repo.write (repo.removeQuery key) := by
    unfold remove keyOf
    rw [check_eq_ok hrecord, hkey]
    rfl
  rw [hremove]
  cases hwrite : (repo.write (repo.removeQuery key)).run.run pool with
  | mk ending next => rw [run_map _ hwrite]

/-- An update sends nothing, or its attempts are those of a statement whose only conjunct compares
the key of the record. -/
theorem update_by_key (hrecord : record.model = repo.model) (pool : Pool) :
    ((repo.update record).run pool).2 = pool
      ∨ ∃ key conjunct prepared, record.primaryKey? = some key
        ∧ repo.ComparesKey key conjunct ∧ Updates repo.ownTable [conjunct] prepared
        ∧ ((repo.update record).run pool).2
          = pool.afterAttempts repo.retries prepared.statement := by
  cases hkey : record.primaryKey? with
  | none =>
    rw [run_update_of_none hrecord hkey]
    exact .inl rfl
  | some key =>
    by_cases hpending : repo.pending record = []
    · rw [run_update_of_nil hrecord hkey hpending]
      exact .inl rfl
    · rw [update_eq_writing hrecord hkey hpending]
      rcases (repo.ends_writing _ record (updated record) pool).sent with
        hnothing | ⟨prepared, hprepared, hsent⟩
      · exact .inl hnothing
      · obtain ⟨conjuncts, hconjuncts, hupdates⟩ := updates_of_prepareQuery rfl hprepared
        obtain ⟨conjunct, rfl, hcompares⟩ := exists_comparesKey rfl rfl hconjuncts
        exact .inr ⟨key, conjunct, prepared, rfl, hcompares, hupdates, hsent⟩

/-- A removal sends nothing, or its attempts are those of a statement of this kind. -/
theorem remove_by_key (hrecord : record.model = repo.model) (pool : Pool) :
    ((repo.remove record).run.run pool).2 = pool
      ∨ ∃ key conjunct prepared, record.primaryKey? = some key
        ∧ repo.ComparesKey key conjunct ∧ Deletes repo.ownTable [conjunct] prepared
        ∧ ((repo.remove record).run.run pool).2
          = pool.afterAttempts repo.retries prepared.statement := by
  cases hkey : record.primaryKey? with
  | none =>
    have hremove : repo.remove record = throw (.failed .missingPrimaryKey) := by
      unfold remove keyOf
      rw [check_eq_ok hrecord, hkey]
      rfl
    rw [hremove]
    exact .inl rfl
  | some key =>
    rw [run_remove_sent hrecord hkey]
    rcases repo.write_cases (repo.removeQuery key) pool with
      ⟨halt, hrun⟩ | ⟨prepared, hprepared, hrun⟩
    · rw [hrun]
      exact .inl rfl
    · obtain ⟨conjuncts, hconjuncts, hdeletes⟩ := deletes_of_prepareQuery rfl hprepared
      obtain ⟨conjunct, rfl, hcompares⟩ := exists_comparesKey rfl rfl hconjuncts
      rw [hrun]
      exact .inr ⟨key, conjunct, prepared, rfl, hcompares, hdeletes, rfl⟩

/-- **A keyed write means the row of the key that the record has.** Let a record that was read have
the primary key `k`, and let it be edited anyhow, its key included. An update or a removal then
sends nothing, or the attempts of one statement, whose `WHERE` clause has a single conjunct. This
compares the primary key with the value that it was set to last, in the form that its attribute
takes, and with `k` if it was not set. So the row that was read is meant, unless the key was set to
another value. If the model is the schema's and the name of its key has no dot and means no
relation, then the compared column is that of the key, in the model's own table. -/
theorem writes_by_key (cells : List (String × Value)) (relations : List (String × List Record))
    {k : Value}
    (hfound : { Hydration.record repo.model cells with relations }.primaryKey? = some k)
    (edits : List Record.Edit) (pool : Pool) :
    let found := { Hydration.record repo.model cells with relations }
    let edited := found.afterEdits edits
    let key := ((Record.lastSet? edits repo.model.primaryKey).map
      (Record.normalized repo.model repo.model.primaryKey)).getD k
    (((repo.update edited).run pool).2 = pool
      ∨ ∃ conjunct prepared, repo.ComparesKey key conjunct
        ∧ Updates repo.ownTable [conjunct] prepared
        ∧ ((repo.update edited).run pool).2
          = pool.afterAttempts repo.retries prepared.statement)
    ∧ (((repo.remove edited).run.run pool).2 = pool
      ∨ ∃ conjunct prepared, repo.ComparesKey key conjunct
        ∧ Deletes repo.ownTable [conjunct] prepared
        ∧ ((repo.remove edited).run.run pool).2
          = pool.afterAttempts repo.retries prepared.statement)
    ∧ (repo.mapping.schema.model? repo.model.name = some repo.model → repo.PlainKey →
      ∀ conjunct, repo.ComparesKey key conjunct → conjunct = repo.keyConjunct key) := by
  intro found edited key
  have hsorted : found.attributes.Sorted := Hydration.sorted_record repo.model cells
  have hedited : Record.Edited found edits edited := .after hsorted edits
  have hrecord : edited.model = repo.model := hedited.model
  refine ⟨?_, ?_, fun hmodel hplain conjunct h => h.eq_keyConjunct hmodel hplain⟩
  · rcases update_by_key hrecord pool with
      hnothing | ⟨held, conjunct, prepared, hheld, hcompares, hupdates, hsent⟩
    · exact .inl hnothing
    · rw [hedited.eq_key hfound hheld] at hcompares
      exact .inr ⟨conjunct, prepared, hcompares, hupdates, hsent⟩
  · rcases remove_by_key hrecord pool with
      hnothing | ⟨held, conjunct, prepared, hheld, hcompares, hdeletes, hsent⟩
    · exact .inl hnothing
    · rw [hedited.eq_key hfound hheld] at hcompares
      exact .inr ⟨conjunct, prepared, hcompares, hdeletes, hsent⟩

/-- The key is taken away and given again, beside other edits. -/
def keyEdits : List Record.Edit :=
  [.set "name" (.str "Bea"), .unset "id", .set "id" (.int 1), .set "joined" (.int 60)]

theorem writes_by_key_ann :
    let found := { Hydration.record athletes.model ann with relations := [] }
    let edited := found.afterEdits keyEdits
    let pool := Pool.ofAnswers []
    found.primaryKey? = some (.int 1)
    ∧ athletes.mapping.schema.model? athletes.model.name = some athletes.model
    ∧ athletes.PlainKey
    ∧ ∃ prepared, Deletes athletes.ownTable [athletes.keyConjunct (.int 1)] prepared
      ∧ ((athletes.remove edited).run.run pool).2
        = pool.afterAttempts athletes.retries prepared.statement := by
  intro found edited pool
  have hfound : found.primaryKey? = some (.int 1) := rfl
  have hmodel : athletes.mapping.schema.model? athletes.model.name = some athletes.model := rfl
  have hplain : athletes.PlainKey := ⟨by decide +kernel, by decide +kernel⟩
  have hsent : ((athletes.remove edited).run.run pool).2.sent.length ≠ pool.sent.length := by
    decide +kernel
  obtain ⟨-, hremove, hcolumn⟩ := writes_by_key ann [] hfound keyEdits pool
  rcases hremove with hnothing | ⟨conjunct, prepared, hcompares, hdeletes, hrun⟩
  · have hunsent : ((athletes.remove edited).run.run pool).2.sent.length = pool.sent.length :=
      congrArg (fun next : Pool => next.sent.length) hnothing
    exact absurd hunsent hsent
  · rw [hcolumn hmodel hplain conjunct hcompares] at hdeletes
    exact ⟨hfound, hmodel, hplain, prepared, hdeletes, hrun⟩

/-- A record whose key was set to another value means another row than the one that was read. -/
theorem removes_other_row :
    let found := { Hydration.record athletes.model ann with relations := [] }
    let edited := found.afterEdits [.set "id" (.int 2)]
    let pool := Pool.ofAnswers []
    found.primaryKey? = some (.int 1)
    ∧ edited.primaryKey? = some (.int 2)
    ∧ ∃ st, ((athletes.remove edited).run.run pool).2.sent = [st]
      ∧ st.sql = "DELETE FROM `athlete` WHERE `athlete`.`athlete_id` = ?"
      ∧ st.params = [.int 2] := by
  refine ⟨rfl, rfl, _, rfl, by decide +kernel, rfl⟩

end Repository

end RecordMapping
