import RecordMapping.Proofs.Repository.Retrying

/-!
# What writing does to a record

Inserting and updating a record can end in several ways: the record is refused, its query cannot be
prepared, there is nothing to write, the attempts cannot be counted or fail, or the statement goes
well.

* `Repository.ends_persist`, `Repository.ends_update`: each operation ends in one of its ways;
* `Repository.writes_keep`: only a statement that went well changes the record, and then no more
  than what is to be written and, after an insertion, the primary key.
-/

namespace RecordMapping.Repository

open Sql

variable {repo : Repository} {query : Query} {pool : Pool}

/-! ## Ways to end -/

/-- A write that can be prepared is running its statement. -/
theorem write_eq {prepared : Prepared} (h : repo.prepareQuery query = .ok prepared) :
    repo.write query = repo.run prepared.statement := by
  unfold write
  rw [h]
  rfl

/-- A write that can be prepared and counted is what its attempts are. -/
theorem run_write {prepared : Prepared} (h : repo.prepareQuery query = .ok prepared)
    (hroom : repo.mapping.config.LeavesRoom) (pool : Pool) :
    (repo.write query).run.run pool
      = (Run.returned (pool.lastAnswer repo.retries),
        pool.afterAttempts repo.retries prepared.statement) := by
  rw [write_eq h]
  exact run_run hroom prepared.statement pool

/-- Without room for the first attempt nothing is sent. -/
theorem run_write_of_not_leavesRoom {prepared : Prepared}
    (h : repo.prepareQuery query = .ok prepared) (hroom : ¬ repo.mapping.config.LeavesRoom)
    (pool : Pool) : (repo.write query).run.run pool = (.error .overflow, pool) := by
  have hhalted : repo.run prepared.statement = throw .overflow := if_neg hroom
  rw [write_eq h, hhalted]
  rfl

/-- A write halts before it is sent, or it is prepared and its attempts are made. -/
theorem write_cases (repo : Repository) (query : Query) (pool : Pool) :
    (∃ halt, (repo.write query).run.run pool = (.error halt, pool))
      ∨ ∃ prepared, repo.prepareQuery query = .ok prepared
        ∧ (repo.write query).run.run pool
          = (Run.returned (pool.lastAnswer repo.retries),
            pool.afterAttempts repo.retries prepared.statement) := by
  cases hprepared : repo.prepareQuery query with
  | error e =>
    unfold write
    rw [hprepared]
    exact .inl ⟨.failed e, rfl⟩
  | ok prepared =>
    by_cases hroom : repo.mapping.config.LeavesRoom
    · exact .inr ⟨prepared, rfl, run_write hprepared hroom pool⟩
    · exact .inl ⟨.overflow, run_write_of_not_leavesRoom hprepared hroom pool⟩

/-- A write of a record: a failure leaves the record as it is, and the outcome of a statement that
went well tells the result and the record afterwards. -/
def writing {α : Type} (repo : Repository) (query : Query) (record : Record)
    (written : Outcome → α × Record) : StateM Pool (Except Halt α × Record) := do
  match ← repo.write query with
  | .error halt => return (.error halt, record)
  | .ok outcome => return (.ok (written outcome).1, (written outcome).2)

/-- How a write of a record ends: with a result, a record and a conversation. -/
inductive Ends {α : Type} (repo : Repository) (query : Query) (record : Record)
    (written : Outcome → α × Record) (pool : Pool) : Except Halt α × Record → Pool → Prop where
  /-- It halts before anything is sent. -/
  | halted (halt : Halt) : Ends repo query record written pool (.error halt, record) pool
  /-- The last of its attempts fails. -/
  | failed {prepared : Prepared} {e : Error} (hprepared : repo.prepareQuery query = .ok prepared)
      (hlast : pool.lastAnswer repo.retries = .error e) :
      Ends repo query record written pool (.error (.failed e), record)
        (pool.afterAttempts repo.retries prepared.statement)
  /-- The last of its attempts goes well. -/
  | wrote {prepared : Prepared} {outcome : Outcome}
      (hprepared : repo.prepareQuery query = .ok prepared)
      (hlast : pool.lastAnswer repo.retries = .ok outcome) :
      Ends repo query record written pool (.ok (written outcome).1, (written outcome).2)
        (pool.afterAttempts repo.retries prepared.statement)

theorem ends_writing {α : Type} (repo : Repository) (query : Query) (record : Record)
    (written : Outcome → α × Record) (pool : Pool) :
    let run := (repo.writing query record written).run pool
    repo.Ends query record written pool run.1 run.2 := by
  unfold writing
  rw [StateT.run_bind]
  rcases repo.write_cases query pool with ⟨halt, hrun⟩ | ⟨prepared, hprepared, hrun⟩
  · rw [show StateT.run (repo.write query) pool = _ from hrun]
    exact .halted halt
  · rw [show StateT.run (repo.write query) pool = _ from hrun]
    cases hlast : pool.lastAnswer repo.retries with
    | error e => exact .failed hprepared hlast
    | ok outcome => exact .wrote hprepared hlast

/-- What an insertion that went well makes of a record. -/
def inserted (record : Record) (outcome : Outcome) : List (String × Value) × Record :=
  ((afterInsert record outcome).values, afterInsert record outcome)

/-- An insertion ends like the write of its query. -/
theorem ends_persist (repo : Repository) (record : Record) (pool : Pool) :
    let run := (repo.persist record).run pool
    repo.Ends (insertQuery record) record (inserted record) pool run.1 run.2 := by
  unfold persist
  cases repo.check record with
  | error e => exact .halted (.failed e)
  | ok _ => exact repo.ends_writing (insertQuery record) record (inserted record) pool

/-- A record that can be inserted is sent as often as there are attempts. -/
theorem run_persist {record : Record} {prepared : Prepared} (hcheck : repo.check record = .ok ())
    (hprepared : repo.prepareQuery (insertQuery record) = .ok prepared)
    (hroom : repo.mapping.config.LeavesRoom) (pool : Pool) :
    ((repo.persist record).run pool).2 = pool.afterAttempts repo.retries prepared.statement := by
  unfold persist
  rw [hcheck]
  dsimp only
  rw [StateT.run_bind,
    show StateT.run (repo.write (insertQuery record)) pool = _ from run_write hprepared hroom pool]
  cases pool.lastAnswer repo.retries <;> rfl

/-- The query that writes the changed values of a record. -/
def updateQuery (repo : Repository) (record : Record) (key : Value) : Query :=
  { Query.empty .update with
    values := repo.updateValues record
    conditions := [repo.keyCondition key] }

/-- What an update that went well makes of a record. -/
def updated (record : Record) (outcome : Outcome) : Nat × Record :=
  (outcome.affected, record.clearChanges)

/-- An update is refused, or has nothing to write, or ends like the write of its query. -/
theorem ends_update (repo : Repository) (record : Record) (pool : Pool) :
    let run := (repo.update record).run pool
    (∃ e, run = ((.error (.failed e), record), pool)) ∨ run = ((.ok 0, record), pool)
      ∨ ∃ key,
        repo.Ends (repo.updateQuery record key) record (updated record) pool run.1 run.2 := by
  unfold update
  cases repo.check record >>= fun _ => keyOf record with
  | error e => exact .inl ⟨e, rfl⟩
  | ok key =>
    dsimp only
    by_cases hempty : (repo.updateValues record).isEmpty = true
    · rw [if_pos hempty]
      exact .inr (.inl rfl)
    · rw [if_neg hempty]
      exact .inr (.inr ⟨key,
        repo.ends_writing (repo.updateQuery record key) record (updated record) pool⟩)

/-! ## What is kept -/

namespace Ends

variable {α : Type} {record after : Record} {written : Outcome → α × Record} {next : Pool}

/-- A write that halts leaves the record as it was. -/
theorem eq_of_error {halt : Halt}
    (h : repo.Ends query record written pool (.error halt, after) next) : after = record := by
  cases h with
  | halted halt => rfl
  | failed hprepared hlast => rfl

/-- A write that goes well was prepared and answered. -/
theorem of_ok {a : α} (h : repo.Ends query record written pool (.ok a, after) next) :
    ∃ prepared outcome, repo.prepareQuery query = .ok prepared
      ∧ pool.lastAnswer repo.retries = .ok outcome
      ∧ next = pool.afterAttempts repo.retries prepared.statement
      ∧ written outcome = (a, after) := by
  cases h with
  | wrote hprepared hlast => exact ⟨_, _, hprepared, hlast, rfl, rfl⟩

end Ends

/-- Attempts leave their mark on the conversation. -/
theorem sent_afterAttempts_ne (pool : Pool) (retries : Nat) (st : Statement) :
    (pool.afterAttempts retries st).sent ≠ pool.sent := by
  have hone := pool.one_le_attempts retries
  intro h
  have hlength := congrArg List.length h
  unfold Pool.afterAttempts at hlength
  rw [List.length_append, List.length_replicate] at hlength
  omega

/-- A record after it was inserted: nothing is left to be written, and its values are those of
before, but for the primary key, which is the one that was generated, if one was. -/
structure Stored (before after : Record) (id? : Option Nat) : Prop where
  model : after.model = before.model
  relations : after.relations = before.relations
  changed : after.changed = []
  kept : id? = none → after.attributes = before.attributes
  generated : ∀ id, id? = some id → after.get? before.model.primaryKey = some (.ofNat id)
  others : ∀ name, name ≠ before.model.primaryKey → after.get? name = before.get? name

theorem stored_afterInsert (record : Record) (outcome : Outcome) :
    Stored record (afterInsert record outcome) outcome.insertId? := by
  unfold afterInsert
  cases outcome.insertId? with
  | none => exact ⟨rfl, rfl, rfl, fun _ => rfl, nofun, fun _ _ => rfl⟩
  | some id =>
    have hget (name : String) : (record.setPrimaryKey (.ofNat id)).clearChanges.get? name
        = if record.model.primaryKey = name then some (.ofNat id) else record.get? name :=
      Fields.get?_insert record.attributes record.model.primaryKey name (.ofNat id)
    refine ⟨rfl, rfl, rfl, nofun, ?_, ?_⟩
    · rintro _ ⟨⟩
      rw [hget, if_pos rfl]
    · intro name hname
      rw [hget, if_neg hname.symm]

/-- **A write that halts leaves the record as it was.** This is so wherever an insertion or an
update fails: when the record is checked, when its statement is prepared, or after any number of
attempts to run it; and it is so where the attempts cannot be counted. An insertion that goes well
changes no value but the primary key, and this only if a key was generated; nothing is left to be
written. An update that goes well changes no value and no related record, only what is to be
written, and if nothing was sent not even this. -/
theorem writes_keep (repo : Repository) (record : Record) (pool : Pool) :
    (∀ halt after next, (repo.persist record).run pool = ((.error halt, after), next) →
      after = record)
    ∧ (∀ values after next, (repo.persist record).run pool = ((.ok values, after), next) →
      ∃ prepared outcome, repo.prepareQuery (insertQuery record) = .ok prepared
        ∧ pool.lastAnswer repo.retries = .ok outcome
        ∧ next = pool.afterAttempts repo.retries prepared.statement
        ∧ Stored record after outcome.insertId? ∧ values = after.values)
    ∧ (∀ halt after next, (repo.update record).run pool = ((.error halt, after), next) →
      after = record)
    ∧ (∀ count after next, (repo.update record).run pool = ((.ok count, after), next) →
      after = { record with changed := after.changed }
        ∧ (next.sent = pool.sent → after = record)
        ∧ (next.sent ≠ pool.sent → after.changed = [])) := by
  have hpersist := repo.ends_persist record pool
  have hupdate := repo.ends_update record pool
  refine ⟨?_, ?_, ?_, ?_⟩
  · intro halt after next h
    rw [h] at hpersist
    exact hpersist.eq_of_error
  · intro values after next h
    rw [h] at hpersist
    obtain ⟨prepared, outcome, hprepared, hlast, hnext, hwritten⟩ := hpersist.of_ok
    obtain ⟨rfl, rfl⟩ := Prod.mk.inj hwritten
    exact ⟨prepared, outcome, hprepared, hlast, hnext, stored_afterInsert record outcome, rfl⟩
  · intro halt after next h
    rw [h] at hupdate
    rcases hupdate with ⟨e', hrun⟩ | hrun | ⟨key, hends⟩
    · exact congrArg (·.1.2) hrun
    · exact congrArg (·.1.2) hrun
    · exact hends.eq_of_error
  · intro count after next h
    rw [h] at hupdate
    rcases hupdate with ⟨e', hrun⟩ | hrun | ⟨key, hends⟩
    · exact absurd (congrArg (·.1.1) hrun) nofun
    · -- nothing was to be written
      obtain ⟨hend, rfl⟩ := Prod.mk.inj hrun
      obtain ⟨-, rfl⟩ := Prod.mk.inj hend
      refine ⟨?_, fun _ => rfl, fun hsent => absurd rfl hsent⟩
      cases after
      rfl
    · obtain ⟨prepared, outcome, -, -, rfl, hwritten⟩ := hends.of_ok
      obtain ⟨-, rfl⟩ := Prod.mk.inj hwritten
      have hsent := sent_afterAttempts_ne pool repo.retries prepared.statement
      exact ⟨rfl, fun hkept => absurd hkept hsent, fun _ => rfl⟩

/-- A post that is not stored yet. -/
def newPost : Record := posts.newRecord [("posted", .int 60)]

/-- A database that reports a deadlock, then stores a record under the key 9, and then is gone. -/
def storesOne : Pool :=
  .ofAnswers [.error (.transientConflict "Deadlock found"), .ok (.inserted 9), .error gone]

/-- The new post takes its key. Then it is given another date, which it keeps when the update
fails. -/
theorem writes_keep_newPost : ∃ post next redated halt last,
    (posts.persist newPost).run storesOne = ((.ok post.values, post), next)
      ∧ post.get? "id" = some (.int 9)
      ∧ post.get? "posted" = newPost.get? "posted"
      ∧ post.changed = []
      ∧ redated = post.set "posted" (.int 120)
      ∧ (posts.update redated).run next = ((.error halt, redated), last) := by
  have hok : ((posts.persist newPost).run storesOne).1.1.toOption.isSome = true := by
    decide +kernel
  have herror : ((posts.update (((posts.persist newPost).run storesOne).1.2.set "posted"
      (.int 120))).run ((posts.persist newPost).run storesOne).2).1.1.toOption.isSome = false := by
    decide +kernel
  have hanswer : storesOne.lastAnswer posts.retries = .ok (.inserted 9) := rfl
  rcases hpersist : (posts.persist newPost).run storesOne with ⟨⟨result, post⟩, next⟩
  rw [hpersist] at hok herror
  cases result with
  | error e => exact absurd hok nofun
  | ok values =>
    obtain ⟨prepared, outcome, -, hlast, -, hstored, rfl⟩ :=
      (writes_keep posts newPost storesOne).2.1 values post next hpersist
    obtain rfl := Except.ok.inj (hanswer.symm.trans hlast)
    rcases hupdate : (posts.update (post.set "posted" (.int 120))).run next with
      ⟨⟨result, redated⟩, last⟩
    rw [hupdate] at herror
    cases result with
    | ok count => exact absurd herror nofun
    | error halt =>
      obtain rfl :=
        (writes_keep posts (post.set "posted" (.int 120)) next).2.2.1 halt redated last hupdate
      exact ⟨post, next, _, halt, last, rfl, hstored.generated 9 rfl,
        hstored.others "posted" (by decide), hstored.changed, rfl, hupdate⟩

end RecordMapping.Repository
