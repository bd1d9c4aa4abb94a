import RecordMapping.Proofs.Query.Filtering

/-!
# What attempts leave

A statement that meets a conflict is sent again, up to a cap. How often it is sent depends on the
answers that come: `Pool.attempts` counts the conflicts in front of them. No more of the answers are
looked at than there are attempts, so a list of answers that is long enough stands for any
behaviour of a database.

* `Pool.run_sendRetrying`: the attempts to run a statement end with the last of their answers;
* `Repository.run_fetch`, `Repository.run_page`: what reading records and pages sends and returns;
* `Repository.all_attempts`: a page is read by the attempts to count the records, and then, if these
  went well, by the attempts to read them.
-/

namespace RecordMapping

open Sql

variable {α β : Type}

/-! ## Steps -/

/-- What returns does not stop the program. -/
theorem returned_ne_overflow (result : Result α) : Run.returned result ≠ .error .overflow := by
  cases result <;> nofun

theorem map_returned (f : α → β) (result : Result α) :
    f <$> Run.returned result = Run.returned (f <$> result) := by
  cases result <;> rfl

/-- A step that went well is followed by the next one. -/
theorem run_bind_ok {x : Run α} {f : α → Run β} {pool next : Pool} {a : α}
    (h : x.run.run pool = (.ok a, next)) : (x >>= f).run.run pool = (f a).run.run next := by
  rw [ExceptT.run_bind, StateT.run_bind, h]
  rfl

/-- A step that halts is the last one. -/
theorem run_bind_error {x : Run α} {f : α → Run β} {pool next : Pool} {halt : Halt}
    (h : x.run.run pool = (.error halt, next)) :
    (x >>= f).run.run pool = (.error halt, next) := by
  rw [ExceptT.run_bind, StateT.run_bind, h]
  rfl

/-- What is computed from the result of a step without the database follows at once. -/
theorem run_bind_ofResult {x : Run α} {f : α → Result β} {pool next : Pool} {result : Result α}
    (h : x.run.run pool = (Run.returned result, next)) :
    (x >>= fun a => Run.ofResult (f a)).run.run pool = (Run.returned (result >>= f), next) := by
  cases result with
  | ok a => exact run_bind_ok h
  | error e => exact run_bind_error h

/-- A step that only talks to the database does not halt. -/
theorem run_liftM (x : StateM Pool α) (pool : Pool) :
    (liftM x : Run α).run.run pool = (.ok (x.run pool).1, (x.run pool).2) := rfl

theorem run_map {x : Run α} (f : α → β) {pool next : Pool} {ending : Except Halt α}
    (h : x.run.run pool = (ending, next)) : (f <$> x).run.run pool = (f <$> ending, next) := by
  rw [ExceptT.run_map, StateT.run_map, h]
  rfl

/-! ## Attempts -/

namespace Pool

/-- Whether an answer reports a conflict, after which the statement may be sent again. -/
def isConflict : Result Outcome → Bool
  | .error e => e.isTransient
  | .ok _ => false

/-- How many of the answers to come are conflicts, before the first one that is not. -/
def conflicts (pool : Pool) : Nat := (pool.answers.takeWhile isConflict).length

/-- How often a statement is sent: once more after each conflict, within the cap on retries. -/
def attempts (pool : Pool) (retries : Nat) : Nat := min (pool.conflicts + 1) (retries + 1)

/-- The answer to an attempt, counted from zero. -/
def answer (pool : Pool) (i : Nat) : Result Outcome := pool.answers.getD i (.ok .empty)

/-- The answer to the last attempt. -/
def lastAnswer (pool : Pool) (retries : Nat) : Result Outcome :=
  pool.answer (pool.attempts retries - 1)

/-- The conversation after the attempts to run a statement: the statement was sent unchanged as
often as there were attempts, and each of them took an answer. -/
def afterAttempts (pool : Pool) (retries : Nat) (st : Statement) : Pool where
  answers := pool.answers.drop (pool.attempts retries)
  sent := pool.sent ++ List.replicate (pool.attempts retries) st

/-- The conversation after one attempt. -/
def afterSend (pool : Pool) (st : Statement) : Pool :=
  ⟨pool.answers.drop 1, pool.sent ++ [st]⟩

variable {pool : Pool} {retries : Nat} {st : Statement}

theorem run_send (st : Statement) (pool : Pool) :
    (send st).run pool = (pool.answer 0, pool.afterSend st) := by
  obtain ⟨answers, sent⟩ := pool
  cases answers <;> rfl

/-- After a conflict the answers are those of one conflict less. -/
theorem conflicts_of_isConflict (st : Statement) (h : isConflict (pool.answer 0) = true) :
    pool.conflicts = (pool.afterSend st).conflicts + 1 := by
  obtain ⟨answers, sent⟩ := pool
  cases answers with
  | nil => exact absurd h Bool.false_ne_true
  | cons answer answers =>
    have hfirst : isConflict answer = true := h
    show (List.takeWhile _ (answer :: answers)).length = _
    rw [List.takeWhile_cons_of_pos hfirst]
    rfl

theorem conflicts_of_not_isConflict (h : isConflict (pool.answer 0) = false) :
    pool.conflicts = 0 := by
  obtain ⟨answers, sent⟩ := pool
  cases answers with
  | nil => rfl
  | cons answer answers =>
    have hfirst : isConflict answer = false := h
    show (List.takeWhile _ (answer :: answers)).length = _
    rw [List.takeWhile_cons_of_neg (by simp [hfirst])]
    rfl

theorem one_le_attempts (pool : Pool) (retries : Nat) : 1 ≤ pool.attempts retries := by
  unfold attempts
  omega

/-- A single attempt ends with its answer. -/
theorem run_send_of_attempts (h : pool.attempts retries = 1) :
    (send st).run pool = (pool.lastAnswer retries, pool.afterAttempts retries st) := by
  rw [run_send]
  unfold lastAnswer afterAttempts
  rw [h]
  rfl

/-- After a conflict one retry less is left. -/
theorem attempts_succ (st : Statement) (h : isConflict (pool.answer 0) = true) :
    pool.attempts (retries + 1) = (pool.afterSend st).attempts retries + 1 := by
  unfold attempts
  rw [conflicts_of_isConflict st h]
  omega

theorem lastAnswer_succ (st : Statement) (h : isConflict (pool.answer 0) = true) :
    pool.lastAnswer (retries + 1) = (pool.afterSend st).lastAnswer retries := by
  have hone := (pool.afterSend st).one_le_attempts retries
  unfold lastAnswer
  rw [attempts_succ st h]
  show pool.answers.getD _ _ = (pool.answers.drop 1).getD _ _
  rw [List.getD_eq_getElem?_getD, List.getD_eq_getElem?_getD, List.getElem?_drop]
  congr 2
  omega

theorem afterAttempts_succ (st : Statement) (h : isConflict (pool.answer 0) = true) :
    pool.afterAttempts (retries + 1) st = (pool.afterSend st).afterAttempts retries st := by
  unfold afterAttempts
  rw [attempts_succ st h]
  show Pool.mk _ _ = Pool.mk ((pool.answers.drop 1).drop _) (pool.sent ++ [st] ++ _)
  rw [List.drop_drop, Nat.add_comm 1, List.append_assoc, List.singleton_append,
    List.replicate_succ]

/-- The attempts to run a statement end with the last of their answers, which is the result. -/
theorem run_sendRetrying (st : Statement) (retries : Nat) (pool : Pool) :
    (sendRetrying st retries).run pool
      = (pool.lastAnswer retries, pool.afterAttempts retries st) := by
  induction retries generalizing pool with
  | zero =>
    apply run_send_of_attempts
    unfold attempts
    omega
  | succ retries ih =>
    rw [sendRetrying, StateT.run_bind]
    cases hconflict : isConflict (pool.answer 0) with
    | true =>
      -- the retries that are left go on with the answers that are left
      rw [lastAnswer_succ st hconflict, afterAttempts_succ st hconflict, ← ih, run_send]
      cases hanswer : pool.answer 0 with
      | ok outcome => rw [hanswer] at hconflict; exact absurd hconflict Bool.false_ne_true
      | error e =>
        have htransient : e.isTransient = true := by rwa [hanswer] at hconflict
        show StateT.run (if e.isTransient = true then _ else _ : StateM Pool _) _ = _
        rw [if_pos htransient]
    | false =>
      have hattempts : pool.attempts (retries + 1) = 1 := by
        unfold attempts
        rw [conflicts_of_not_isConflict hconflict]
        omega
      have hsend := @run_send_of_attempts _ _ st hattempts
      have hfirst : pool.lastAnswer (retries + 1) = pool.answer 0 := by
        unfold lastAnswer
        rw [hattempts]
      rw [hsend, hfirst]
      cases hanswer : pool.answer 0 with
      | ok outcome => rfl
      | error e =>
        have hfinal : e.isTransient = false := by rwa [hanswer] at hconflict
        show StateT.run (if e.isTransient = true then _ else _ : StateM Pool _) _ = _
        rw [if_neg (by simp [hfinal])]
        rfl

/-- If the cap leaves room for the first attempt, running a statement is what its attempts are. -/
theorem run_execute {retries : UInt32} (hroom : retries.toNat + 1 < UInt32.size) (st : Statement)
    (pool : Pool) : (execute retries st).run.run pool
      = (Run.returned (pool.lastAnswer retries.toNat), pool.afterAttempts retries.toNat st) := by
  have hrun : execute retries st = ExceptT.mk (Run.returned <$> sendRetrying st retries.toNat) :=
    if_pos hroom
  rw [hrun, ExceptT.run_mk, StateT.run_map, run_sendRetrying]
  rfl

end Pool

/-- The number of retries leaves room for the first attempt. -/
def Config.LeavesRoom (config : Config) : Prop := config.retries.toNat + 1 < UInt32.size

/-! ## Reading -/

namespace Repository

variable {repo : Repository} {prepared : Prepared} {pool : Pool}

/-- The number of times that a repository sends a statement again. -/
def retries (repo : Repository) : Nat := repo.mapping.config.retries.toNat

/-- The records in the answer to a prepared query. -/
def recordsOf (repo : Repository) (prepared : Prepared) (outcome : Outcome) :
    Result (List Record) :=
  if prepared.included.isEmpty then .ok (Hydration.plainRecords repo.model outcome.rows)
  else
    Assembly.assemble prepared.included <$>
      Hydration.nestedRows repo.model prepared.baseAlias prepared.included outcome.rows

/-- The page of the given records, with the number that was counted. -/
def pageOf (repo : Repository) (prepared : Prepared) (counted : Outcome) (data : List Record) :
    Page where
  data
  limit := prepared.limit?.getD repo.mapping.config.defaultLimit
  offset := prepared.offset?.getD 0
  total := totalOf counted

/-- Fetching is running the statement and reading what the answer holds. -/
theorem fetch_eq (repo : Repository) (prepared : Prepared) :
    repo.fetch prepared
      = repo.run prepared.statement >>= fun outcome =>
        Run.ofResult (repo.recordsOf prepared outcome) := by
  unfold fetch recordsOf
  congr 1
  funext outcome
  split
  · rfl
  · cases Hydration.nestedRows repo.model prepared.baseAlias prepared.included outcome.rows <;> rfl

/-- Running a statement is what its attempts are. -/
theorem run_run (hroom : repo.mapping.config.LeavesRoom) (st : Statement) (pool : Pool) :
    (repo.run st).run.run pool
      = (Run.returned (pool.lastAnswer repo.retries), pool.afterAttempts repo.retries st) :=
  Pool.run_execute hroom st pool

/-- Records are read from the last answer to their statement. -/
theorem run_fetch (hroom : repo.mapping.config.LeavesRoom) (prepared : Prepared) (pool : Pool) :
    (repo.fetch prepared).run.run pool
      = (Run.returned (pool.lastAnswer repo.retries >>= repo.recordsOf prepared),
        pool.afterAttempts repo.retries prepared.statement) := by
  rw [fetch_eq]
  exact run_bind_ofResult (run_run hroom prepared.statement pool)

/-- If the count fails, its error is the result of the page, and nothing else is sent. -/
theorem run_page_of_error (hroom : repo.mapping.config.LeavesRoom) {count : Statement}
    (hcount : prepared.count? = some count) {e : Error}
    (hlast : pool.lastAnswer repo.retries = .error e) :
    (repo.page prepared).run.run pool
      = (.error (.failed e), pool.afterAttempts repo.retries count) := by
  have hrun := run_run hroom count pool
  rw [hlast] at hrun
  unfold page
  rw [hcount]
  exact run_bind_error (run_map totalOf hrun)

/-- If the count goes well, the records are fetched, and put together with it. -/
theorem run_page_of_ok (hroom : repo.mapping.config.LeavesRoom) {count : Statement}
    (hcount : prepared.count? = some count) {counted : Outcome}
    (hlast : pool.lastAnswer repo.retries = .ok counted) :
    let next := pool.afterAttempts repo.retries count
    (repo.page prepared).run.run pool
      = (Run.returned (repo.pageOf prepared counted <$>
          (next.lastAnswer repo.retries >>= repo.recordsOf prepared)),
        next.afterAttempts repo.retries prepared.statement) := by
  have hrun := run_run hroom count pool
  rw [hlast] at hrun
  unfold page
  rw [hcount]
  refine (run_bind_ok (run_map totalOf hrun)).trans ?_
  rw [← map_returned]
  exact run_map (repo.pageOf prepared counted) (run_fetch hroom prepared _)

/-- A page begins with what its prepared query says. -/
theorem run_all {d : Descriptor} (hprepared : repo.prepare d = .ok prepared) (pool : Pool) :
    (repo.all d).run.run pool = (repo.page prepared).run.run pool := by
  unfold all
  rw [hprepared]
  rfl

/-- **Each statement is sent in one block of attempts.** A cap of `r` retries must leave room for
the first attempt. Then a statement that is run is sent unchanged once more than there are conflicts
in front of the other answers, but not more than `r + 1` times; the last answer is the result,
whether it is a conflict, another error or an outcome. Reading a page that a descriptor asks for,
such a block is sent for the statement that counts the records. If it ends with an error, this is
the result, and nothing else is sent. Otherwise one block is sent for the statement that reads them,
and its error, or the page that its answer holds, is the result. -/
theorem all_attempts :
    (∀ (retries : UInt32) (st : Statement) (pool : Pool), retries.toNat + 1 < UInt32.size →
      (Pool.execute retries st).run.run pool
        = (Run.returned (pool.lastAnswer retries.toNat), pool.afterAttempts retries.toNat st))
    ∧ ∀ (repo : Repository) (d : Descriptor) (query : Query) (prepared : Prepared),
      repo.mapping.config.LeavesRoom → Query.ofDescriptor repo.mapping.config d = .ok query →
      query.kind = .select → repo.prepare d = .ok prepared →
      ∃ count, prepared.count? = some count ∧ ∀ pool : Pool,
        let next := pool.afterAttempts repo.retries count
        let last := next.afterAttempts repo.retries prepared.statement
        (∀ e, pool.lastAnswer repo.retries = .error e →
          (repo.all d).run.run pool = (.error (.failed e), next))
        ∧ ∀ counted, pool.lastAnswer repo.retries = .ok counted →
          (∀ e, next.lastAnswer repo.retries = .error e →
            (repo.all d).run.run pool = (.error (.failed e), last))
          ∧ ∀ found, next.lastAnswer repo.retries = .ok found →
            (repo.all d).run.run pool
              = (Run.returned (repo.pageOf prepared counted <$> repo.recordsOf prepared found),
                last) := by
  refine ⟨fun retries st pool hroom => Pool.run_execute hroom st pool, ?_⟩
  intro repo d query prepared hroom hquery hkind hprepared
  -- a select is counted
  have hprepare : repo.prepareQuery query = .ok prepared := by
    obtain ⟨query', hquery', hprepare⟩ := bind_eq_ok.mp hprepared
    rwa [Except.ok.inj (hquery.symm.trans hquery')]
  obtain ⟨_, _, -, -, counted, hcount, -⟩ := selects_of_prepareQuery hkind hprepare
  refine ⟨_, hcount, fun pool => ⟨fun e he => ?_, fun outcome hcounted => ?_⟩⟩
  · rw [run_all hprepared]
    exact run_page_of_error hroom hcount he
  · have hpage := run_page_of_ok hroom hcount hcounted
    refine ⟨fun e he => ?_, fun found hfound => ?_⟩
    · rw [run_all hprepared, hpage, he]
      rfl
    · rw [run_all hprepared, hpage, hfound]
      rfl

/-- The error that there is no connection any more. -/
def gone : Error := .connection (.reported "gone")

/-- The text of a lock error with its number, which does not speak of a deadlock. -/
def lockTimeout : String := "ERROR 1205: Lock wait timeout exceeded"

/-- A text that speaks of a deadlock and has no number in front. -/
def chosenVictim : String := "Transaction was chosen as the Deadlock victim"

/-- A database that reports two conflicts, then an outcome, and then that it is gone. -/
def twoConflicts : Pool :=
  .ofAnswers [.error (.database lockTimeout), .error (.database chosenVictim), .ok .empty,
    .error gone]

/-- The first error is a conflict by its number alone, and the second one by its word alone. The
count is sent three times and the statement for the records once. -/
theorem all_attempts_twoConflicts :
    (Error.startsWithLockCode lockTimeout ∧ ¬ Error.mentionsDeadlock lockTimeout)
    ∧ (Error.mentionsDeadlock chosenVictim ∧ ¬ Error.startsWithLockCode chosenVictim)
    ∧ ∃ query prepared count,
      posts.mapping.config.LeavesRoom
        ∧ Query.ofDescriptor posts.mapping.config postsOfUser = .ok query
        ∧ query.kind = .select
        ∧ posts.prepare postsOfUser = .ok prepared
        ∧ prepared.count? = some count
        ∧ (posts.all postsOfUser).run.run twoConflicts
          = (.error (.failed gone), ⟨[], [count, count, count, prepared.statement]⟩) := by
  refine ⟨by decide +kernel, by decide +kernel, ?_⟩
  have hroom : posts.mapping.config.LeavesRoom := by
    show Config.default.retries.toNat + 1 < UInt32.size
    decide
  have hquery : Query.ofDescriptor posts.mapping.config postsOfUser = .ok _ := rfl
  have hrun : (posts.prepare postsOfUser).toOption.isSome = true := by decide +kernel
  cases hprepared : posts.prepare postsOfUser with
  | error e => rw [hprepared] at hrun; exact absurd hrun nofun
  | ok prepared =>
    obtain ⟨count, hcount, hall⟩ := all_attempts.2 posts postsOfUser _ prepared hroom hquery rfl
      hprepared
    have hattempts : twoConflicts.attempts posts.retries = 3 := by decide +kernel
    have hcounted : twoConflicts.lastAnswer posts.retries = .ok .empty := by
      unfold Pool.lastAnswer
      rw [hattempts]
      rfl
    have hnext : twoConflicts.afterAttempts posts.retries count
        = ⟨[.error gone], [count, count, count]⟩ := by
      unfold Pool.afterAttempts
      rw [hattempts]
      rfl
    have hresult := ((hall twoConflicts).2 .empty hcounted).1
    rw [hnext] at hresult
    exact ⟨_, prepared, count, hroom, hquery, rfl, rfl, hcount, hresult gone rfl⟩

end Repository

end RecordMapping
