import RecordMapping.Proofs.Repository.Retrying
import RecordMapping.Repository.Related

/-!
# What reading sends

A computation that talks to the database appends statements to those that were sent before.
`Sends` describes what it appends, whatever the answers are.

The operations that read are put together in `Reading`: pages, single records and related records.
Each reads a query, prepares it and runs what was prepared.

* `Reading.sends_run`: an operation sends what a page of its prepared query sends, or what fetching
  its records does;
* `Reading.sends_write`: if the query is a write, the write is sent. No operation asks what kind of
  query a descriptor stands for, so a descriptor may turn a search into a removal;
* `Reading.sends_select_iff`: an operation sends selects only, exactly if it does not stand for a
  write.
-/

namespace RecordMapping

open Sql

variable {α β : Type}

/-! ## Sent statements -/

/-- Whatever the database answers, the statements that a computation sends are as described. -/
def Sends (described : List Statement → Prop) (x : Run α) : Prop :=
  ∀ pool, ∃ sent, (x.run.run pool).2.sent = pool.sent ++ sent ∧ described sent

/-- No statements. -/
def Nothing (sent : List Statement) : Prop := sent = []

/-- All of some statements are of a kind. -/
def Only (kind : Statement → Prop) (sent : List Statement) : Prop := ∀ st ∈ sent, kind st

/-- One statement, once or several times over. -/
def Repeated (st : Statement) (sent : List Statement) : Prop :=
  ∃ n, sent = List.replicate (n + 1) st

theorem only_of_repeated {kind : Statement → Prop} {st : Statement} (h : kind st)
    {sent : List Statement} (hsent : Repeated st sent) : Only kind sent := by
  rcases hsent with ⟨n, rfl⟩
  intro other hother
  rwa [List.eq_of_mem_replicate hother]

namespace Sends

variable {described other : List Statement → Prop} {x : Run α} {f : α → Run β}

theorem mono (h : Sends described x) (hother : ∀ sent, described sent → other sent) :
    Sends other x := by
  intro pool
  rcases h pool with ⟨sent, happend, hsent⟩
  exact ⟨sent, happend, hother sent hsent⟩

/-- Nothing is sent by a computation whose end is known. -/
theorem ended {ending : Except Halt α} (h : described []) :
    Sends described (ExceptT.mk (pure ending)) :=
  fun pool => ⟨[], (List.append_nil pool.sent).symm, h⟩

theorem quiet {ending : Except Halt α} : Sends Nothing (ExceptT.mk (pure ending)) := ended rfl

/-- A result that is known is a failure, or the next step follows. -/
theorem ofResult_bind {result : Result α} (hok : ∀ a, result = .ok a → Sends described (f a))
    (herror : ∀ e, result = .error e → described []) :
    Sends described (Run.ofResult result >>= f) := by
  cases result with
  | ok a => exact hok a rfl
  | error e => exact ended (herror e rfl)

/-- What two steps send is sent by the first one, and then, if it went well, by the second one. -/
theorem bind (hx : Sends described x) (hf : ∀ a, Sends other (f a))
    {both : List Statement → Prop} (hfirst : ∀ sent, described sent → both sent)
    (hboth : ∀ sent rest, described sent → other rest → both (sent ++ rest)) :
    Sends both (x >>= f) := by
  intro pool
  rcases hx pool with ⟨sent, happend, hsent⟩
  cases hrun : x.run.run pool with
  | mk result next =>
    rw [hrun] at happend
    -- what was sent stays sent, whether the step went well or not
    cases result with
    | error halt =>
      rw [run_bind_error hrun]
      exact ⟨sent, happend, hfirst sent hsent⟩
    | ok a =>
      rcases hf a next with ⟨rest, hnext, hrest⟩
      refine ⟨sent ++ rest, ?_, hboth sent rest hsent hrest⟩
      rw [run_bind_ok hrun, hnext, happend, List.append_assoc]

/-- Two steps send statements of a kind if each of them does. -/
theorem bind_only {kind : Statement → Prop} (hx : Sends (Only kind) x)
    (hf : ∀ a, Sends (Only kind) (f a)) : Sends (Only kind) (x >>= f) :=
  hx.bind hf (fun _ h => h) fun _ _ hsent hrest => List.forall_mem_append.mpr ⟨hsent, hrest⟩

/-- A step that sends nothing may follow. -/
theorem bind_quiet (hx : Sends described x) (hf : ∀ a, Sends Nothing (f a)) :
    Sends described (x >>= f) := by
  refine hx.bind hf (fun _ h => h) fun sent rest hsent hrest => ?_
  rwa [show rest = [] from hrest, List.append_nil]

end Sends

namespace Repository

variable {repo : Repository} {st : Statement}

/-- If there is room for the first attempt, a statement that is run is sent. -/
theorem sends_run (hroom : repo.mapping.config.LeavesRoom) :
    Sends (Repeated st) (repo.run st) := by
  intro pool
  rw [run_run hroom]
  refine ⟨_, rfl, pool.attempts repo.retries - 1, ?_⟩
  rw [Nat.sub_add_cancel (pool.one_le_attempts repo.retries)]

/-- No other statement is sent than the one that is run, and none if there is no room. -/
theorem sends_run_only {kind : Statement → Prop}
    (h : repo.mapping.config.LeavesRoom → kind st) : Sends (Only kind) (repo.run st) := by
  by_cases hroom : repo.mapping.config.LeavesRoom
  · exact (sends_run hroom).mono fun _ => only_of_repeated (h hroom)
  · have hhalted : repo.run st = throw .overflow := if_neg hroom
    rw [hhalted]
    exact Sends.ended nofun

/-- The records of an answer are read without the database. -/
theorem sends_fetch {described : List Statement → Prop} {prepared : Prepared}
    (h : Sends described (repo.run prepared.statement)) :
    Sends described (repo.fetch prepared) := by
  apply h.bind_quiet
  intro outcome
  split
  · exact Sends.quiet
  · exact Sends.quiet.bind_quiet fun _ => Sends.quiet

/-- A page whose count is of a kind and whose records are fetched by such a statement. -/
theorem sends_page_only {kind : Statement → Prop} {prepared : Prepared}
    (hcount : ∀ count, prepared.count? = some count → repo.mapping.config.LeavesRoom → kind count)
    (hdata : repo.mapping.config.LeavesRoom → kind prepared.statement) :
    Sends (Only kind) (repo.page prepared) := by
  have hrecords (total : Int64) : Sends (Only kind) (do
      let data ← repo.fetch prepared
      return Page.mk data (prepared.limit?.getD repo.mapping.config.defaultLimit)
        (prepared.offset?.getD 0) total) :=
    (sends_fetch (sends_run_only hdata)).bind_quiet fun _ => Sends.quiet
  unfold page
  -- the count is sent first, if there is one
  cases hcase : prepared.count? with
  | none => exact Sends.bind_only (Sends.ended nofun) hrecords
  | some count =>
    refine Sends.bind_only ?_ hrecords
    exact (sends_run_only (hcount count hcase)).bind_quiet fun _ => Sends.quiet

/-- A page without a count sends the statement for its records. -/
theorem sends_page_uncounted {prepared : Prepared} (hcount : prepared.count? = none)
    (hroom : repo.mapping.config.LeavesRoom) :
    Sends (Repeated prepared.statement) (repo.page prepared) := by
  unfold page
  rw [hcount]
  exact (sends_fetch (sends_run hroom)).bind_quiet fun _ => Sends.quiet

end Repository

/-! ## Kinds of statements -/

/-- The text of a statement begins like that of a select. -/
def Sql.Statement.IsSelect (st : Statement) : Prop := "SELECT ".toList <+: st.sql.toList

theorem isSelect_of_select {s : Select} (h : (Tree.select s).statement = .ok st) :
    st.IsSelect := by
  obtain ⟨ps, hps, rfl⟩ := Tree.statement_eq_ok.mp h
  obtain ⟨joined, conjuncts, -, -, rfl⟩ := Select.pieces_eq_ok.mp hps
  show _ <+: (textOf (.word (if s.distinct then _ else _) :: _)).toList
  rw [textOf_cons, String.toList_append]
  refine List.IsPrefix.trans ?_ (List.prefix_append _ _)
  cases s.distinct with
  | true => exact ⟨"DISTINCT ".toList, rfl⟩
  | false => exact List.prefix_rfl

/-- A tree that is not a select. -/
def Sql.Tree.IsWrite : Tree → Prop
  | .select _ => False
  | _ => True

theorem not_isSelect_of_write {tree : Tree} {st : Statement} (hwrite : tree.IsWrite)
    (h : tree.statement = .ok st) : ¬ st.IsSelect := by
  -- no other statement begins with the first letter of a select
  have hword {text : String} (ps : List Piece) (htext : text.toList.head? ≠ some 'S')
      (hne : text.toList ≠ []) : ¬ (Statement.ofPieces (.word text :: ps)).IsSelect := by
    show ¬ "SELECT ".toList <+: (textOf (.word text :: ps)).toList
    rw [textOf_cons, String.toList_append]
    show ¬ 'S' :: "ELECT ".toList <+: text.toList ++ _
    obtain ⟨c, cs, hcs⟩ := List.exists_cons_of_ne_nil hne
    rw [hcs, List.cons_append, List.cons_prefix_cons]
    rw [hcs] at htext
    exact fun hprefix => htext (congrArg some hprefix.1.symm)
  obtain ⟨ps, hps, rfl⟩ := Tree.statement_eq_ok.mp h
  cases tree with
  | select s => exact hwrite.elim
  | insert table values =>
    rw [← Except.ok.inj hps]
    exact hword _ (by decide) (by decide)
  | update table values predicates =>
    cases values with
    | nil => exact absurd hps nofun
    | cons value values =>
      obtain ⟨conditions, -, hps⟩ := bind_eq_ok.mp hps
      rw [← Except.ok.inj hps]
      exact hword _ (by decide) (by decide)
  | delete table predicates =>
    obtain ⟨conditions, -, hps⟩ := bind_eq_ok.mp hps
    rw [← Except.ok.inj hps]
    exact hword _ (by decide) (by decide)

theorem isWrite_stored {schema : Schema} {tree : Tree} (h : tree.IsWrite) :
    (tree.stored schema).IsWrite := by
  cases tree with
  | select s => exact h.elim
  | _ => trivial

namespace Repository

open Expansion

variable {repo : Repository} {query : Query} {prepared : Prepared}

/-- A query that is not a select is expanded to a write that is not counted. -/
theorem ofQuery_write {expansion : Expansion} {schema : Schema} {storage : DateStorage}
    {model : Model} (hkind : query.kind ≠ .select)
    (h : ofQuery schema storage model query = .ok expansion) :
    expansion.tree.IsWrite ∧ expansion.count? = none := by
  cases hcase : query.kind with
  | select => exact absurd hcase hkind
  | insert =>
    obtain ⟨_, -, h⟩ := bind_eq_ok.mp h
    rw [hcase] at h
    rw [← Except.ok.inj h]
    exact ⟨trivial, rfl⟩
  | update =>
    obtain ⟨_, -, -, rfl⟩ := ofQuery_update hcase h
    exact ⟨trivial, rfl⟩
  | delete =>
    obtain ⟨_, -, -, rfl⟩ := ofQuery_delete hcase h
    exact ⟨trivial, rfl⟩

/-- The statements that are prepared for a select are selects. -/
theorem isSelect_of_prepareQuery (hkind : query.kind = .select)
    (h : repo.prepareQuery query = .ok prepared) :
    prepared.statement.IsSelect
      ∧ ∀ count, prepared.count? = some count → count.IsSelect := by
  obtain ⟨expansion, hexpansion, hcount, hstatement, -⟩ := prepareQuery_eq_ok h
  obtain ⟨keys, loading, select, -, -, -, rfl⟩ := ofQuery_select hkind hexpansion
  refine ⟨isSelect_of_select hstatement, ?_⟩
  intro count hsome
  obtain ⟨st, hst, hprepared⟩ := map_eq_ok.mp hcount
  rw [hsome] at hprepared
  rw [← Option.some.inj hprepared]
  exact isSelect_of_select hst

/-- The statement that is prepared for a write is not a select, and is not counted. -/
theorem write_of_prepareQuery (hkind : query.kind ≠ .select)
    (h : repo.prepareQuery query = .ok prepared) :
    ¬ prepared.statement.IsSelect ∧ prepared.count? = none := by
  obtain ⟨expansion, hexpansion, hcount, hstatement, -⟩ := prepareQuery_eq_ok h
  obtain ⟨hwrite, hnone⟩ := ofQuery_write hkind hexpansion
  rw [hnone] at hcount
  exact ⟨not_isSelect_of_write (isWrite_stored hwrite) hstatement, (Except.ok.inj hcount).symm⟩

end Repository

/-! ## Operations that read -/

/-- An operation that reads records: a page of them, by a descriptor or by JSON, a single one, the
page of those that are related to a record, or the single related one. -/
inductive Reading where
  | all (repo : Repository) (d : Descriptor)
  | runQuery (repo : Repository) (json : Json)
  | find (repo : Repository) (lookup : Lookup)
  | related (r : Related) (owner : Record) (d? : Option Descriptor)
  | get (r : Related) (owner : Record)

namespace Reading

/-- The records that an operation reads. -/
def run : Reading → Run (List Record)
  | all repo d => return (← repo.all d).data
  | runQuery repo json => return (← repo.runQuery json).data
  | find repo lookup => return [← repo.find lookup]
  | related r owner d? => return (← r.all owner d?).data
  | get r owner => return [← r.get owner]

/-- The repository from which an operation reads. -/
def source : Reading → Repository
  | all repo _ | runQuery repo _ | find repo _ => repo
  | related r _ _ | get r _ => r.target

/-- The query of an operation. -/
def query : Reading → Result Query
  | all repo d => Query.ofDescriptor repo.mapping.config d
  | runQuery repo json => do Query.ofDescriptor repo.mapping.config (← Descriptor.ofJson json)
  | find repo lookup => repo.lookupQuery lookup
  | related r owner d? => r.scopedQuery owner d?
  | get r owner =>
    if r.relation.kind ≠ .belongsTo then
      .error (.relationship (.isCollection r.relation.aliasName))
    else do r.target.lookupQuery (.key (← r.pointer owner))

/-- The prepared query of an operation. -/
def prepared (reading : Reading) : Result Prepared := reading.query >>= reading.source.prepareQuery

/-- An operation that looks for a record by its key. -/
def IsByKey : Reading → Prop
  | find _ (.key _) | get _ _ => True
  | _ => False

variable {described : List Statement → Prop}

/-- A search for a single record sends what fetching records for it does. -/
theorem sends_find {repo : Repository} {lookup : Lookup}
    (hok : ∀ prepared, (find repo lookup).prepared = .ok prepared →
      Sends described (repo.fetch prepared))
    (herror : ∀ e, (find repo lookup).prepared = .error e → described []) :
    Sends described (repo.find lookup) := by
  refine Sends.ofResult_bind (fun prepared h => ?_) herror
  apply (hok prepared h).bind_quiet
  intro records
  cases records with
  | nil => exact Sends.quiet
  | cons record rest => exact Sends.quiet

/-- An operation sends what a page of its prepared query sends, or what fetching its records does.
Without a prepared query it sends nothing. -/
theorem sends_run (reading : Reading)
    (hok : ∀ prepared, reading.prepared = .ok prepared →
      Sends described (reading.source.page prepared)
        ∧ Sends described (reading.source.fetch prepared))
    (herror : ∀ e, reading.prepared = .error e → described []) : Sends described reading.run := by
  cases reading with
  | all repo d =>
    show Sends described (repo.all d >>= _)
    exact (Sends.ofResult_bind (fun p h => (hok p h).1) herror).bind_quiet fun _ => Sends.quiet
  | runQuery repo json =>
    -- the descriptor is read first, and if this fails there is no query
    refine Sends.bind_quiet (Sends.ofResult_bind (fun d hd => ?_) fun e he => ?_)
      fun _ => Sends.quiet
    · simp only [Reading.prepared, query, hd] at hok herror
      exact Sends.ofResult_bind (fun p h => (hok p h).1) herror
    · apply herror e
      simp only [Reading.prepared, query, he]
      rfl
  | find repo lookup =>
    exact (sends_find (fun p h => (hok p h).2) herror).bind_quiet fun _ => Sends.quiet
  | related r owner d? =>
    show Sends described (r.all owner d? >>= _)
    exact (Sends.ofResult_bind (fun p h => (hok p h).1) herror).bind_quiet fun _ => Sends.quiet
  | get r owner =>
    refine Sends.bind_quiet ?_ fun _ => Sends.quiet
    -- only a relation to one leads to a single record
    by_cases hkind : r.relation.kind = .belongsTo
    · unfold Related.get
      simp only [Reading.prepared, query, hkind, ne_eq, not_true_eq_false, if_false] at hok herror ⊢
      refine Sends.ofResult_bind (fun key hkey => ?_) fun e he => ?_
      · rw [hkey] at hok herror
        exact sends_find (fun p h => (hok p h).2) herror
      · apply herror e
        rw [he]
        rfl
    · have hrefused : Sends Nothing (r.get owner) := by
        unfold Related.get
        simp only [hkind, ne_eq, not_false_eq_true, if_true]
        exact Sends.quiet
      refine hrefused.mono ?_
      rintro _ rfl
      apply herror (.relationship (.isCollection r.relation.aliasName))
      simp only [Reading.prepared, query, hkind, ne_eq, not_false_eq_true, if_true]
      rfl

/-- A search by a key is a select. -/
theorem kind_of_lookupKey {repo : Repository} {key : Value} {query : Query}
    (h : repo.lookupQuery (.key key) = .ok query) : query.kind = .select := by
  rw [← Except.ok.inj h]

theorem kind_of_isByKey {reading : Reading} {query : Query} (hkey : reading.IsByKey)
    (h : reading.query = .ok query) : query.kind = .select := by
  cases reading with
  | find repo lookup =>
    cases lookup with
    | key key => exact kind_of_lookupKey h
    | query d => exact hkey.elim
  | get r owner =>
    by_cases hkind : r.relation.kind = .belongsTo
    · simp only [Reading.query, hkind, ne_eq, not_true_eq_false, if_false] at h
      rcases bind_eq_ok.mp h with ⟨key, -, hlookup⟩
      exact kind_of_lookupKey hlookup
    · simp only [Reading.query, hkind, ne_eq, not_false_eq_true, if_true] at h
      contradiction
  | _ => exact hkey.elim

/-- The operation stands for a write: it has a query that can be prepared and run, and that query is
not a select. -/
def Writes (reading : Reading) (prepared : Prepared) : Prop :=
  ∃ query, reading.query = .ok query ∧ reading.source.prepareQuery query = .ok prepared
    ∧ reading.source.mapping.config.LeavesRoom ∧ query.kind ≠ .select

/-- If an operation does not stand for a write, it sends selects only. -/
theorem sends_select (reading : Reading) (h : ∀ prepared, ¬ reading.Writes prepared) :
    Sends (Only Statement.IsSelect) reading.run := by
  refine sends_run reading (fun prepared hprepared => ?_) fun _ _ => nofun
  rcases bind_eq_ok.mp hprepared with ⟨query, hquery, hprepare⟩
  -- without room for an attempt nothing is sent, whatever kind of query it is
  have hkind (hroom : reading.source.mapping.config.LeavesRoom) : query.kind = .select := by
    by_contra hwrite
    exact h prepared ⟨query, hquery, hprepare, hroom, hwrite⟩
  have hselect hroom := Repository.isSelect_of_prepareQuery (hkind hroom) hprepare
  have hdata hroom : prepared.statement.IsSelect := (hselect hroom).1
  have hcount count (hsome : prepared.count? = some count) hroom : count.IsSelect :=
    (hselect hroom).2 count hsome
  exact ⟨Repository.sends_page_only hcount hdata,
    Repository.sends_fetch (Repository.sends_run_only hdata)⟩

/-- If an operation stands for a write, it sends the write, and nothing else. -/
theorem sends_write {reading : Reading} {prepared : Prepared} (h : reading.Writes prepared) :
    Sends (Repeated prepared.statement) reading.run := by
  rcases h with ⟨query, hquery, hprepare, hroom, hkind⟩
  have hprepared : reading.prepared = .ok prepared := bind_eq_ok.mpr ⟨query, hquery, hprepare⟩
  refine sends_run reading (fun other hother => ?_) fun e he => ?_
  · rw [← Except.ok.inj (hprepared.symm.trans hother)]
    rcases Repository.write_of_prepareQuery hkind hprepare with ⟨-, hcount⟩
    exact ⟨Repository.sends_page_uncounted hcount hroom,
      Repository.sends_fetch (Repository.sends_run hroom)⟩
  · exact absurd (hprepared.symm.trans he) nofun

/-- **An operation that reads sends selects only, exactly if it does not stand for a write.** It
stands for one if its descriptor says so. Then no error comes before the write is sent: the write,
once more after each conflict, is what the operation sends. An operation that looks for a record by
its key has no descriptor, and never writes. -/
theorem sends_select_iff (reading : Reading) :
    (Sends (Only Statement.IsSelect) reading.run ↔ ∀ prepared, ¬ reading.Writes prepared)
      ∧ (∀ prepared, reading.Writes prepared →
          ¬ prepared.statement.IsSelect ∧ Sends (Repeated prepared.statement) reading.run)
      ∧ (reading.IsByKey → Sends (Only Statement.IsSelect) reading.run) := by
  have hwrites {prepared : Prepared} (h : reading.Writes prepared) :
      ¬ prepared.statement.IsSelect ∧ Sends (Repeated prepared.statement) reading.run := by
    refine ⟨?_, sends_write h⟩
    rcases h with ⟨query, -, hprepare, -, hkind⟩
    exact (Repository.write_of_prepareQuery hkind hprepare).1
  refine ⟨⟨fun hselects prepared h => ?_, sends_select reading⟩, fun _ => hwrites, fun hkey => ?_⟩
  · -- the statements that are sent are selects, and are the write
    rcases hwrites h with ⟨hwrite, hsends⟩
    rcases hselects (.ofAnswers []) with ⟨sent, hsent, honly⟩
    rcases hsends (.ofAnswers []) with ⟨rest, hrest, n, rfl⟩
    rw [hsent, List.append_cancel_left_eq] at hrest
    rw [hrest] at honly
    exact hwrite (honly prepared.statement (List.mem_replicate.mpr ⟨Nat.succ_ne_zero n, rfl⟩))
  · refine sends_select reading fun prepared h => ?_
    rcases h with ⟨query, hquery, -, -, hkind⟩
    exact hkind (kind_of_isByKey hkey hquery)

/-- A descriptor for the post with a key that asks for its removal. -/
def removal : Descriptor :=
  .ofFields [("type", .str "delete"), ("where", .obj [("id", .int 1)])]

theorem sends_select_iff_removal : ∃ prepared,
    (all Repository.posts removal).Writes prepared
      ∧ prepared.statement.sql = "DELETE FROM `posts` WHERE `posts`.`id` = ?"
      ∧ Sends (Repeated prepared.statement) (all Repository.posts removal).run
      ∧ ¬ Sends (Only Statement.IsSelect) (all Repository.posts removal).run := by
  have hquery : (all Repository.posts removal).query = .ok _ := rfl
  have hrun : (all Repository.posts removal).prepared.toOption.map (·.statement.sql)
      = some "DELETE FROM `posts` WHERE `posts`.`id` = ?" := by decide +kernel
  have hroom : Config.default.LeavesRoom := by
    unfold Config.LeavesRoom
    decide
  rcases sends_select_iff (all Repository.posts removal) with ⟨hselects, hsends, -⟩
  cases hprepared : (all Repository.posts removal).prepared with
  | error e =>
    rw [hprepared] at hrun
    exact absurd hrun nofun
  | ok prepared =>
    rw [hprepared] at hrun
    have hwrites : (all Repository.posts removal).Writes prepared :=
      ⟨_, hquery, hprepared, hroom, by decide⟩
    exact ⟨prepared, hwrites, Option.some.inj hrun, (hsends prepared hwrites).2,
      fun h => hselects.mp h prepared hwrites⟩

end Reading

end RecordMapping
