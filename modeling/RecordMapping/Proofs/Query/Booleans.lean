import RecordMapping.Proofs.Query.Filtering
import RecordMapping.Proofs.Sql.Truth

/-!
# Filters on booleans

True is stored as one and false as null. Equality with false and difference from it are written as
tests for null then. But any comparison of a stored null with one is unknown, and so is any
comparison with a null in a list.

* `BooleanTest`: what a filter asks of a boolean, and the spellings of such filters;
* `holds_iff_finds`: which stored booleans meet the comparison that is made for a test;
* `prepare_booleans_iff`: a written filter is true of no boolean that it should not find, and it
  finds all the others exactly if its test is `Complete`.
-/

namespace RecordMapping

open Expansion Sql

/-! ## Tests of booleans -/

/-- What a filter asks of a boolean. -/
inductive BooleanTest where
  | equal (c : Bool)
  | notEqual (c : Bool)
  | isIn (cs : List Bool)
  | notIn (cs : List Bool)

namespace BooleanTest

/-- Whether a boolean passes a test. -/
def accepts : BooleanTest → Bool → Bool
  | equal c, b => b == c
  | notEqual c, b => b != c
  | isIn cs, b => cs.contains b
  | notIn cs, b => !cs.contains b

/-- Whether the stored form of a boolean meets the comparison for a test. -/
def finds : BooleanTest → Bool → Bool
  | equal c, b => b == c
  | notEqual c, b => b && !c
  | isIn cs, b => b && cs.contains true
  | notIn cs, _ => cs.isEmpty

/-- Tests that are passed by nothing else than what their comparison finds. -/
def Complete : BooleanTest → Prop
  | equal _ => True
  | notEqual c => c = false
  | isIn cs => false ∉ cs
  | notIn cs => cs = [] ∨ true ∈ cs ∧ false ∈ cs

variable {test : BooleanTest}

theorem accepts_of_finds {b : Bool} (h : test.finds b = true) : test.accepts b = true := by
  cases test with
  | equal c => exact h
  | notEqual c =>
    obtain ⟨rfl, hc⟩ := Bool.and_eq_true_iff.mp h
    simpa [accepts] using hc
  | isIn cs =>
    obtain ⟨rfl, hc⟩ := Bool.and_eq_true_iff.mp h
    exact hc
  | notIn cs =>
    obtain rfl := List.isEmpty_iff.mp h
    rfl

theorem complete_iff :
    test.Complete ↔ ∀ b, test.finds b = true ↔ test.accepts b = true := by
  cases test with
  | equal c => exact iff_of_true trivial fun _ => Iff.rfl
  | notEqual c => cases c <;> simp [Complete, finds, accepts]
  | isIn cs => simp [Complete, finds, accepts]
  | notIn cs =>
    cases cs with
    | nil => simp [Complete, finds, accepts]
    | cons c cs => cases c <;> simp [Complete, finds, accepts]

/-- The condition that a test on a key is read as. -/
def condition (key : String) : BooleanTest → Condition
  | equal c => .compare key .equal (.bool c)
  | notEqual c => .compare key .notEqual (.bool c)
  | isIn cs => .list key .isIn (cs.map .bool)
  | notIn cs => .list key .notIn (cs.map .bool)

/-- How a test on a key is written in an object of conditions. -/
inductive Spells (key : String) : BooleanTest → Criterion → Prop where
  | bare (c : Bool) : Spells key (.equal c) (.entry key (.bool c))
  | array (cs : List Bool) : Spells key (.isIn cs) (.entry key (.arr (cs.map .bool)))
  | equal (c : Bool) : Spells key (.equal c) (.operator key "$eq" (.bool c))
  | notEqual (c : Bool) : Spells key (.notEqual c) (.operator key "$ne" (.bool c))
  | isIn (cs : List Bool) : Spells key (.isIn cs) (.operator key "$in" (.arr (cs.map .bool)))
  | notIn (cs : List Bool) : Spells key (.notIn cs) (.operator key "$nin" (.arr (cs.map .bool)))

theorem Spells.condition_eq {key : String} {criterion : Criterion}
    (h : Spells key test criterion) : criterion.condition = .ok (test.condition key) := by
  have hlist (op : Operator) (cs : List Bool) :
      Condition.list key op ((cs.map Json.bool).map Query.readOperand)
        = .list key op (cs.map .bool) := by
    rw [List.map_map]
    rfl
  cases h with
  | bare c | equal c | notEqual c => rfl
  | array cs | isIn cs => exact congrArg Except.ok (hlist .isIn cs)
  | notIn cs => exact congrArg Except.ok (hlist .notIn cs)

end BooleanTest

/-! ## Stored booleans -/

/-- The stored form of a boolean. -/
def storedBool (b : Bool) : Value := if b then .int 1 else .null

theorem isNull_storedBool (b : Bool) : (storedBool b).isNull = !b := by cases b <;> rfl

theorem toStorage_bool {a : Attribute} (htype : a.type = .boolean)
    (hformatter : a.formatter? = none) (table : String) (storage : DateStorage) (b : Bool) :
    Storage.toStorage table (some a) (.bool b) storage = storedBool b := by
  simp [Storage.toStorage, hformatter, htype, Storage.plainStorage, storedBool]

variable {δ : Type} [LinearOrder δ] {db : Database δ}

/-- Two stored booleans are equal for the database if both are true. -/
theorem test_equal_stored (hone : db.cell (.int 1) ≠ ⊥) (b c : Bool) :
    Cell.test (compareData db .equal) (db.cell (storedBool b)) (db.cell (storedBool c))
      = (b && c) := by
  rw [Bool.eq_iff_iff, Bool.and_eq_true_iff]
  refine Cell.test_eq_iff.trans ⟨fun hsame => ?_, ?_⟩
  · obtain ⟨d, hb, hc⟩ := hsame
    cases b with
    | false => exact absurd (hb.symm.trans db.cell_null) WithBot.coe_ne_bot
    | true =>
      cases c with
      | false => exact absurd (hc.symm.trans db.cell_null) WithBot.coe_ne_bot
      | true => exact ⟨rfl, rfl⟩
  · rintro ⟨rfl, rfl⟩
    exact Cell.same_of_eq rfl hone

/-- No two stored booleans are known to differ. -/
theorem test_notEqual_stored (b c : Bool) :
    Cell.test (compareData db .notEqual) (db.cell (storedBool b)) (db.cell (storedBool c))
      = false := by
  refine Bool.eq_false_iff.mpr fun htest => ?_
  obtain ⟨hb, hc, hne⟩ := Cell.ne_of_test_notEqual htest
  have hnull : db.cell (storedBool false) = ⊥ := db.cell_null
  cases b with
  | false => exact hb hnull
  | true =>
    cases c with
    | false => exact hc hnull
    | true => exact hne rfl

/-- A stored boolean meets the comparison for a test if the test finds it. -/
theorem holds_iff_finds {test : BooleanTest} {key : String} {column : ColumnRef}
    {bound : Value → Value} (hbound : ∀ c, bound (.bool c) = storedBool c)
    (hone : db.cell (.int 1) ≠ ⊥) {row : JoinedRow δ} {b : Bool}
    (hrow : column.cell row = db.cell (storedBool b)) :
    Predicate.holds db ⟨column, (test.condition key).op, (test.condition key).value?.map bound,
        (test.condition key).values.map bound⟩ row = true
      ↔ test.finds b = true := by
  have hnull : db.cell (storedBool b) = ⊥ ↔ b = false := by
    cases b with
    | false => exact iff_of_true db.cell_null rfl
    | true => exact iff_of_false hone nofun
  have hvalues (cs : List Bool) : (cs.map Value.bool).map bound = cs.map storedBool := by
    rw [List.map_map]
    exact List.map_congr_left fun c _ => hbound c
  cases test with
  | equal c =>
    simp only [BooleanTest.condition, Condition.compare, Option.map_some, hbound, Predicate.holds,
      hrow, Option.all_some, isNull_storedBool, Option.any_some, test_equal_stored hone]
    cases c <;> simp [hnull, BooleanTest.finds]
  | notEqual c =>
    simp only [BooleanTest.condition, Condition.compare, Option.map_some, hbound, Predicate.holds,
      hrow, Option.all_some, isNull_storedBool, Option.any_some, test_notEqual_stored]
    cases c <;> simp [hnull, BooleanTest.finds]
  | isIn cs =>
    simp only [BooleanTest.condition, Condition.list, hvalues, Predicate.holds, hrow, List.any_map,
      Function.comp_def, test_equal_stored hone]
    simp [BooleanTest.finds, and_comm]
  | notIn cs =>
    simp only [BooleanTest.condition, Condition.list, hvalues, Predicate.holds, hrow, List.all_map,
      Function.comp_def, test_notEqual_stored]
    cases cs <;> simp [BooleanTest.finds]

/-! ## Written filters -/

namespace Repository

variable {repo : Repository} {query : Query} {prepared : Prepared} {tables : List TableRef}
  {conjunct : List Piece} {test : BooleanTest} {key name : String} {a : Attribute} {b : Bool}

/-- The key of a criterion means a boolean attribute of the model, which has no formatter. -/
structure MeansBoolean (repo : Repository) (query : Query) (key name : String) (a : Attribute) :
    Prop where
  column : ∃ link?,
    resolveKey repo.mapping.schema repo.model (baseTable repo.model query) key
      = .ok (⟨(baseTable repo.model query).aliasName, name⟩, link?)
  declared : repo.model.attribute? name = some a
  boolean : a.type = .boolean
  unformatted : a.formatter? = none

/-- In a row, the column of an attribute holds what a boolean is stored as. -/
def Stores (repo : Repository) (query : Query) (tables : List TableRef) (name : String)
    (a : Attribute) (db : Database δ) (row : JoinedRow δ) (b : Bool) : Prop :=
  (ColumnRef.stored repo.mapping.schema tables
      ⟨(baseTable repo.model query).aliasName, name⟩).cell row
    = db.cell (Storage.toStorage repo.model.table (some a) (.bool b)
        repo.mapping.config.dateStorage)

/-- A conjunct that is written for a test is true of the stored booleans that the test finds. -/
theorem verdict_eq_yes_iff_finds (hmeans : repo.MeansBoolean query key name a)
    (hconjunct : repo.IsConjunct query tables (test.condition key) conjunct)
    (hone : db.cell (.int 1) ≠ ⊥) {row : JoinedRow δ}
    (hstores : repo.Stores query tables name a db row b) :
    verdict? db row conjunct = some .yes ↔ test.finds b = true := by
  obtain ⟨column, link?, hkey, hpieces⟩ := hconjunct
  obtain ⟨link?', hcolumn⟩ := hmeans.column
  have hkeyColumn : (test.condition key).column = key := by cases test <;> rfl
  rw [hkeyColumn] at hkey
  obtain ⟨rfl, -⟩ := Prod.mk.inj (Except.ok.inj (hkey.symm.trans hcolumn))
  have hbound (c : Bool) :
      boundValue repo.model (baseTable repo.model query) repo.mapping.config.dateStorage
        ⟨(baseTable repo.model query).aliasName, name⟩ (.bool c) = storedBool c := by
    rw [boundValue, if_pos rfl]
    dsimp only
    rw [hmeans.declared]
    exact toStorage_bool hmeans.boolean hmeans.unformatted _ _ c
  rw [Stores, toStorage_bool hmeans.boolean hmeans.unformatted] at hstores
  obtain ⟨truth, hverdict, htruth⟩ := exists_verdict hpieces row
  rw [hverdict, Option.some_inj, htruth]
  exact holds_iff_finds hbound hone hstores

/-- In every row a conjunct is true of the stored form of a boolean if and only if the boolean
passes the test. -/
def Decides (repo : Repository) (query : Query) (tables : List TableRef) (name : String)
    (a : Attribute) (test : BooleanTest) (db : Database δ) (conjunct : List Piece) : Prop :=
  ∀ (row : JoinedRow δ) (b : Bool), repo.Stores query tables name a db row b →
    (verdict? db row conjunct = some .yes ↔ test.accepts b = true)

theorem decides_iff_complete (hmeans : repo.MeansBoolean query key name a)
    (hconjunct : repo.IsConjunct query tables (test.condition key) conjunct)
    (hone : db.cell (.int 1) ≠ ⊥) :
    repo.Decides query tables name a test db conjunct ↔ test.Complete := by
  rw [BooleanTest.complete_iff]
  constructor
  · intro hdecides b
    -- a row that has the stored form of the boolean everywhere
    have hstores : repo.Stores query tables name a db (fun _ _ => db.cell _) b := rfl
    rw [← verdict_eq_yes_iff_finds hmeans hconjunct hone hstores]
    exact hdecides _ b hstores
  · intro hfinds row b hstores
    rw [verdict_eq_yes_iff_finds hmeans hconjunct hone hstores]
    exact hfinds b

/-- A prepared query that does not insert has a conjunct for each of its conditions. -/
theorem exists_places (hkind : query.kind ≠ .insert) (h : repo.prepareQuery query = .ok prepared) :
    ∃ tables conjuncts, repo.Places query tables conjuncts prepared
      ∧ List.Forall₂ (repo.IsConjunct query tables) query.conditions conjuncts := by
  unfold Places
  cases hcase : query.kind with
  | select =>
    obtain ⟨tables, conjuncts, hconjuncts, hselects⟩ := selects_of_prepareQuery hcase h
    exact ⟨tables, conjuncts, hselects, hconjuncts⟩
  | insert => exact absurd hcase hkind
  | update =>
    obtain ⟨conjuncts, hconjuncts, hupdates⟩ := updates_of_prepareQuery hcase h
    exact ⟨_, conjuncts, ⟨rfl, hupdates⟩, hconjuncts⟩
  | delete =>
    obtain ⟨conjuncts, hconjuncts, hdeletes⟩ := deletes_of_prepareQuery hcase h
    exact ⟨_, conjuncts, ⟨rfl, hdeletes⟩, hconjuncts⟩

/-- **Which filters on booleans find what they ask for.** In the statement for a descriptor each
criterion has its conjunct. If the criterion tests a boolean attribute, then its conjunct is true
of no stored boolean that does not pass the test, whatever the database makes of its contents. It is
true of all that pass if and only if the test is for equality, for difference from false, for
membership in a list without false, or for absence from a list that is empty or has both. -/
theorem prepare_booleans_iff {d : Descriptor}
    (hquery : Query.ofDescriptor repo.mapping.config d = .ok query)
    (hkind : query.kind ≠ .insert) (hprepared : repo.prepare d = .ok prepared) :
    ∃ tables conjuncts, repo.Places query tables conjuncts prepared
      ∧ List.Forall₂ (fun criterion conjunct => ∀ test key name a,
          BooleanTest.Spells key test criterion → repo.MeansBoolean query key name a →
          ∀ (δ : Type) [LinearOrder δ] (db : Database δ), db.cell (.int 1) ≠ ⊥ →
            (∀ row b, repo.Stores query tables name a db row b →
              verdict? db row conjunct = some .yes → test.accepts b = true)
            ∧ (repo.Decides query tables name a test db conjunct ↔ test.Complete))
        d.criteria conjuncts := by
  obtain ⟨query', hquery', hprepare⟩ := bind_eq_ok.mp hprepared
  obtain rfl := Except.ok.inj (hquery.symm.trans hquery')
  obtain ⟨tables, conjuncts, hplaces, hconjuncts⟩ := exists_places hkind hprepare
  have hcriteria := Query.ofDescriptor_conditions hquery
  refine ⟨tables, conjuncts, hplaces, forall₂_comp ?_ hcriteria hconjuncts⟩
  intro criterion condition conjunct hcondition hconjunct test key name a hspells hmeans δ _ db hone
  obtain rfl := Except.ok.inj (hcondition.symm.trans hspells.condition_eq)
  refine ⟨fun row b hstores hverdict => ?_, decides_iff_complete hmeans hconjunct hone⟩
  rw [verdict_eq_yes_iff_finds hmeans hconjunct hone hstores] at hverdict
  exact BooleanTest.accepts_of_finds hverdict

/-- Whether a user is active. -/
def active : Attribute := .plain "active" .boolean

/-- A repository of users who may be active. -/
def accounts : Repository where
  mapping := {
    schema := {
      models := [("User", ⟨"User", some "users", "id", [active]⟩)]
      relations := .empty }
    config := .default
    valid := Config.validate_default }
  model := ⟨"User", some "users", "id", [active]⟩

/-- The users whose activity is one of both and not true: those who are not active. -/
def inactiveUsers : Descriptor := .ofFields
  [("active", .obj [("$in", .arr [.bool false, .bool true]), ("$ne", .bool true)])]

/-- An empty database of numbers, to which every value but null is the same. -/
def ones : Database ℕ where
  table _ := ⟨[], []⟩
  cell v := if v.isNull then ⊥ else .some 1
  cell_null := rfl
  like _ _ := false

/-- Neither of the two conjuncts is true of users who are not active. -/
theorem prepare_booleans_iff_inactiveUsers : ∃ query prepared tables conjuncts,
    Query.ofDescriptor accounts.mapping.config inactiveUsers = .ok query
      ∧ query.kind ≠ .insert
      ∧ accounts.prepare inactiveUsers = .ok prepared
      ∧ accounts.Places query tables conjuncts prepared
      ∧ ones.cell (.int 1) ≠ ⊥
      ∧ List.Forall₂ (fun test conjunct =>
          ¬ accounts.Decides query tables "active" active test ones conjunct)
        [.isIn [false, true], .notEqual true] conjuncts := by
  have hquery : Query.ofDescriptor accounts.mapping.config inactiveUsers = .ok _ := rfl
  have hkind : (QueryKind.select : QueryKind) ≠ .insert := by decide
  have hone : ones.cell (.int 1) ≠ ⊥ := WithBot.coe_ne_bot
  have hrun : (accounts.prepare inactiveUsers).isOk = true := by decide +kernel
  cases hprepared : accounts.prepare inactiveUsers with
  | error e =>
    rw [hprepared] at hrun
    exact absurd hrun nofun
  | ok prepared =>
    obtain ⟨tables, conjuncts, hplaces, hconjuncts⟩ := prepare_booleans_iff hquery hkind hprepared
    refine ⟨_, prepared, tables, conjuncts, hquery, hkind, rfl, hplaces, hone, ?_⟩
    have hmeans (query : Query) : accounts.MeansBoolean query "active" "active" active :=
      ⟨⟨none, rfl⟩, rfl, rfl, rfl⟩
    have hcriteria : inactiveUsers.criteria
        = [.operator "active" "$in" (.arr [.bool false, .bool true]),
          .operator "active" "$ne" (.bool true)] := rfl
    rw [hcriteria] at hconjuncts
    obtain ⟨first, rest, hfirst, hrest, rfl⟩ := List.forall₂_cons_left_iff.mp hconjuncts
    obtain ⟨second, others, hsecond, hothers, rfl⟩ := List.forall₂_cons_left_iff.mp hrest
    obtain rfl := List.forall₂_nil_left_iff.mp hothers
    have hin := hfirst _ _ _ _ (.isIn [false, true]) (hmeans _) ℕ ones hone
    have hne := hsecond _ _ _ _ (.notEqual true) (hmeans _) ℕ ones hone
    refine .cons (fun hdecides => ?_) (.cons (fun hdecides => ?_) .nil)
    · exact hin.2.mp hdecides List.mem_cons_self
    · exact absurd (hne.2.mp hdecides) nofun

end Repository

end RecordMapping
