import RecordMapping.Proofs.Query.Ordering
import RecordMapping.Proofs.Query.Readings

/-!
# Adding a condition to a descriptor

A condition is added where the style of a descriptor keeps its conditions: under `where`, or at the
top of a shorthand. At the top there are other keys too, and one that has a meaning of its own is
taken for that and not for a condition. The keys are taken to be in order, as they are in every
descriptor that is built (`Descriptor.Built.ordered`).

* `column_of_readCriteria`: the conditions on a key are all on this key, and there is one at least;
* `readWhere_insert`: with one more entry an object has the conditions of this entry in place of
  those that it had on the entry's key;
* `ofDescriptor_filter`: so has the query of a descriptor, if the condition is put among the others;
* `ofDescriptor_filter_iff`, `filter_adds_iff`: which is so exactly in the structured style and for
  keys without another meaning.
-/

namespace RecordMapping

/-- The value of an entry is a part of the object. -/
theorem Json.sizeOf_lt_obj {fields : Fields Json} {entry : String × Json} (h : entry ∈ fields) :
    sizeOf entry.2 < sizeOf (Json.obj fields) := by
  have hfields : sizeOf entry < sizeOf fields := List.sizeOf_lt_of_mem h
  have hentry : sizeOf entry = 1 + sizeOf entry.1 + sizeOf entry.2 := rfl
  have hobj : sizeOf (Json.obj fields) = 1 + sizeOf fields := Json.obj.sizeOf_spec fields
  omega

namespace Criterion

/-- The key that a criterion is about. -/
def key : Criterion → String
  | entry key _ => key
  | operator key _ _ => key

/-- The value that a criterion compares with. -/
def operand : Criterion → Json
  | entry _ value => value
  | operator _ _ operand => operand

/-- The criteria under a key are about this key, and compare with parts of its value. -/
theorem key_of_mem_under {name : String} {value : Json} {criterion : Criterion}
    (h : criterion ∈ under name value) :
    criterion.key = name ∧ sizeOf criterion.operand ≤ sizeOf value := by
  have hentry (h : criterion ∈ [entry name value]) :
      criterion.key = name ∧ sizeOf criterion.operand ≤ sizeOf value := by
    rw [List.mem_singleton.mp h]
    exact ⟨rfl, Nat.le_refl _⟩
  unfold under at h
  split at h
  · split at h
    · obtain ⟨pair, hpair, rfl⟩ := List.mem_map.mp h
      exact ⟨rfl, Nat.le_of_lt (Json.sizeOf_lt_obj hpair)⟩
    · exact hentry h
  · exact hentry h

theorem under_ne_nil (name : String) (value : Json) : under name value ≠ [] := by
  unfold under
  split
  · split
    · -- an object without operators is a plain value
      rename_i operators hoperators
      intro hnil
      rw [List.map_eq_nil_iff.mp hnil] at hoperators
      exact absurd hoperators (by decide)
    · exact List.cons_ne_nil _ _
  · exact List.cons_ne_nil _ _

/-- The condition that a criterion stands for is a test of its key, and what it compares with one
value compares with its operand. -/
theorem condition_cases {criterion : Criterion} {c : Condition}
    (h : criterion.condition = .ok c) : ∃ op, (∃ values, c = .list criterion.key op values)
      ∨ c = .unary criterion.key op
      ∨ c = .compare criterion.key op (Query.readOperand criterion.operand) := by
  cases criterion with
  | entry key value =>
    cases value with
    | arr items => exact ⟨.isIn, .inl ⟨_, (Except.ok.inj h).symm⟩⟩
    | _ => exact ⟨.equal, .inr (.inr (Except.ok.inj h).symm)⟩
  | operator key token operand =>
    dsimp only [condition] at h
    split at h
    · rename_i op hop
      unfold Query.readOperator at h
      split at h
      · exact ⟨_, .inr (.inl (Except.ok.inj h).symm)⟩
      · split at h
        · split at h
          · exact ⟨op, .inl ⟨_, (Except.ok.inj h).symm⟩⟩
          · exact absurd h nofun
        · exact ⟨op, .inr (.inr (Except.ok.inj h).symm)⟩
    · exact absurd h nofun

end Criterion

namespace Descriptor

/-- The conditions of a descriptor stand where its style keeps them. It is otherwise with a
shorthand that has a `where`, which can only have been put there later, and no conditions at its
top. -/
def InPlace (d : Descriptor) : Prop :=
  d.isStructured = true ∨ d.hoisted ≠ [] ∨ d.fields.get? "where" = none

variable {d : Descriptor} {key : String}

theorem filter_of_shorthand (hstyle : d.isStructured = false) (key : String) (value : Json) :
    d.filter key value = d.put key value :=
  if_neg (by simp [hstyle])

theorem filter_of_structured (hstyle : d.isStructured = true) {clause : Fields Json}
    (h : d.fields.get? "where" = some (.obj clause) ∨ d.fields.get? "where" = none ∧ clause = [])
    (key : String) (value : Json) :
    d.filter key value = d.put "where" (.obj (Fields.insert key value clause)) := by
  unfold filter
  rw [if_pos hstyle]
  rcases h with h | ⟨h, rfl⟩ <;> rw [h]

/-- In either style a condition is put under a key that means nothing else. -/
theorem exists_put_of_filter (h : d.isStructured = true ∨ Query.isConditionKey key = true)
    (value : Json) : ∃ place entry, d.filter key value = d.put place entry
      ∧ (place = "where" ∨ Query.isConditionKey place = true) := by
  cases hstyle : d.isStructured with
  | true => exact ⟨"where", _, if_pos hstyle, .inl rfl⟩
  | false =>
    rw [hstyle] at h
    exact ⟨key, value, filter_of_shorthand hstyle key value, .inr (h.resolve_left nofun)⟩

/-- A condition leaves the other reserved keys as they are. -/
theorem get?_filter (h : d.isStructured = true ∨ Query.isConditionKey key = true) (value : Json)
    {other : String} (hreserved : isReserved other = true) (hwhere : other ≠ "where") :
    (d.filter key value).fields.get? other = d.fields.get? other := by
  obtain ⟨place, entry, hput, hplace⟩ := exists_put_of_filter h value
  have hne : place ≠ other := by
    rintro rfl
    rcases hplace with hplace | hplace
    · exact hwhere hplace
    · simp [Query.isConditionKey, hreserved] at hplace
  rw [hput, get?_put_of_ne hne]

/-- Nor does it join anything. -/
theorem joinKeys_filter (h : d.isStructured = true ∨ Query.isConditionKey key = true)
    (value : Json) : (d.filter key value).joinKeys = d.joinKeys := by
  obtain ⟨place, entry, hput, hplace⟩ := exists_put_of_filter h value
  have hjoin : isJoinKey place = false := by
    rcases hplace with rfl | hplace
    · decide
    · simp only [Query.isConditionKey, isStructuredKey, Bool.and_eq_true, Bool.not_eq_true',
        Bool.or_eq_false_iff] at hplace
      exact hplace.2.2
  rw [hput, joinKeys_put hjoin]

/-- In a shorthand a condition stands at its place among the others. -/
theorem hoisted_put_of_condition (hstyle : d.isStructured = false) (hsorted : d.fields.Sorted)
    (hkey : Query.isConditionKey key = true) (value : Json) :
    (d.put key value).hoisted = Fields.insert key value d.hoisted := by
  have hne : ¬ d.isStructured = true := by simp [hstyle]
  have hput : ¬ (d.put key value).isStructured = true := hne
  rw [hoisted, hoisted, if_neg hne, if_neg hput]
  exact hsorted.filter_insert hkey value

/-- With a condition at its top a shorthand has those at its top. -/
theorem clause?_put_of_condition (hstyle : d.isStructured = false) (hsorted : d.fields.Sorted)
    (hkey : Query.isConditionKey key = true) (value : Json) :
    (d.put key value).clause? = some (.obj (Fields.insert key value d.hoisted)) := by
  have hne : (Fields.insert key value d.hoisted).isEmpty ≠ true := by
    intro hempty
    have hget := Fields.get?_insert d.hoisted key key value
    rw [List.isEmpty_iff.mp hempty, if_pos rfl] at hget
    exact absurd hget nofun
  rw [clause?, hoisted_put_of_condition hstyle hsorted hkey, if_neg hne]

end Descriptor

namespace Query

open Descriptor

variable {config : Config} {d : Descriptor} {query : Query} {key : String} {value : Json}
  {clause : Fields Json} {conditions replacement : List Condition}

/-! ## Conditions and their columns -/

/-- An operand that becomes a JSON value is this value. -/
theorem eq_of_readOperand {operand json : Json} (h : readOperand operand = .json json) :
    json = operand := by
  cases operand with
  | str text =>
    unfold readOperand Value.numeric? at h
    dsimp only at h
    split at h
    · cases h
    · cases hfinite : Number.readFinite? text <;> rw [hfinite] at h <;> cases h
  | int n =>
    unfold readOperand Value.ofJson at h
    dsimp only at h
    split at h <;> cases h
  | arr items => exact (Value.json.inj h).symm
  | obj fields => exact (Value.json.inj h).symm
  | _ => cases h

/-- The conditions on a key are all on this key, and there is one at least. -/
theorem column_of_readCriteria (h : readCriteria key value = .ok conditions) :
    (∀ c ∈ conditions, c.column = key) ∧ conditions ≠ [] := by
  rw [readCriteria_eq_mapM] at h
  constructor
  · intro c hc
    obtain ⟨criterion, hcriterion, hcondition⟩ := exists_of_mem_mapM h hc
    rw [← (Criterion.key_of_mem_under hcriterion).1]
    obtain ⟨op, ⟨values, rfl⟩ | rfl | rfl⟩ := Criterion.condition_cases hcondition <;> rfl
  · rintro rfl
    exact Criterion.under_ne_nil key value (List.forall₂_nil_right_iff.mp (mapM_eq_ok.mp h))

/-- A JSON value that a condition compares with is a part of what it was read from. -/
theorem sizeOf_of_readCriteria (h : readCriteria key value = .ok conditions) {c : Condition}
    (hc : c ∈ conditions) {json : Json} (hjson : c.value? = some (.json json)) :
    sizeOf json ≤ sizeOf value := by
  rw [readCriteria_eq_mapM] at h
  obtain ⟨criterion, hcriterion, hcondition⟩ := exists_of_mem_mapM h hc
  have hsize := (Criterion.key_of_mem_under hcriterion).2
  obtain ⟨op, ⟨values, rfl⟩ | rfl | rfl⟩ := Criterion.condition_cases hcondition
  · exact absurd hjson nofun
  · exact absurd hjson nofun
  · rwa [eq_of_readOperand (Option.some.inj hjson)]

/-- Each condition of an object is one of some entry. -/
theorem exists_of_mem_readWhere (h : readWhere (.obj clause) = .ok conditions) {c : Condition}
    (hc : c ∈ conditions) :
    ∃ entry ∈ clause, ∃ group, readCriteria entry.1 entry.2 = .ok group ∧ c ∈ group := by
  obtain ⟨groups, hgroups, hflat⟩ := bind_eq_ok.mp h
  rw [← Except.ok.inj hflat] at hc
  obtain ⟨group, hgroup, hc⟩ := List.mem_flatten.mp hc
  obtain ⟨entry, hentry, hread⟩ := exists_of_mem_mapM hgroups hgroup
  exact ⟨entry, hentry, group, hread, hc⟩

/-- The conditions of an object are on its keys. -/
theorem column_of_readWhere (h : readWhere (.obj clause) = .ok conditions) {c : Condition}
    (hc : c ∈ conditions) : ∃ entry ∈ clause, c.column = entry.1 := by
  obtain ⟨entry, hentry, group, hgroup, hc⟩ := exists_of_mem_readWhere h hc
  exact ⟨entry, hentry, (column_of_readCriteria hgroup).1 c hc⟩

theorem readWhere_cons {entry : String × Json} :
    readWhere (.obj (entry :: clause)) = .ok conditions
      ↔ ∃ group others, readCriteria entry.1 entry.2 = .ok group
        ∧ readWhere (.obj clause) = .ok others ∧ conditions = group ++ others := by
  unfold readWhere
  simp only [bind_eq_ok, mapM_eq_ok, List.forall₂_cons_left_iff]
  constructor
  · rintro ⟨_, ⟨group, groups, hgroup, hgroups, rfl⟩, hflat⟩
    exact ⟨group, groups.flatten, hgroup, ⟨groups, hgroups, rfl⟩, (Except.ok.inj hflat).symm⟩
  · rintro ⟨group, _, hgroup, ⟨groups, hgroups, hflat⟩, rfl⟩
    refine ⟨_, ⟨group, groups, hgroup, hgroups, rfl⟩, ?_⟩
    rw [← Except.ok.inj hflat]
    rfl

/-! ## One more entry -/

/-- Conditions with the given ones in place of those on a column. Conditions stand in the order of
their columns. -/
def replaceOn (column : String) (conditions replacement : List Condition) : List Condition :=
  conditions.filter (·.column < column) ++ replacement ++ conditions.filter (column < ·.column)

theorem replaceOn_nil (column : String) : replaceOn column [] replacement = replacement := by
  simp [replaceOn]

/-- Conditions on columns before it are not touched. -/
theorem replaceOn_append_of_lt {column : String} {front back : List Condition}
    (h : ∀ c ∈ front, c.column < column) :
    replaceOn column (front ++ back) replacement = front ++ replaceOn column back replacement := by
  have hkept : front.filter (·.column < column) = front :=
    List.filter_eq_self.mpr fun c hc => decide_eq_true (h c hc)
  have hnone : front.filter (column < ·.column) = [] :=
    List.filter_eq_nil_iff.mpr fun c hc hless =>
      String.lt_asymm (h c hc) (of_decide_eq_true hless)
  simp only [replaceOn, List.filter_append, hkept, hnone, List.nil_append, List.append_assoc]

/-- Conditions on columns behind it stand behind the given ones. -/
theorem replaceOn_of_lt {column : String} (h : ∀ c ∈ conditions, column < c.column) :
    replaceOn column conditions replacement = replacement ++ conditions := by
  have hkept : conditions.filter (column < ·.column) = conditions :=
    List.filter_eq_self.mpr fun c hc => decide_eq_true (h c hc)
  have hnone : conditions.filter (·.column < column) = [] :=
    List.filter_eq_nil_iff.mpr fun c hc hless =>
      String.lt_asymm (h c hc) (of_decide_eq_true hless)
  rw [replaceOn, hkept, hnone, List.nil_append]

/-- Conditions on the column itself are replaced. -/
theorem replaceOn_append_of_eq {column : String} {front back : List Condition}
    (h : ∀ c ∈ front, c.column = column) :
    replaceOn column (front ++ back) replacement = replaceOn column back replacement := by
  have hnone {p : Condition → Bool} (hp : ∀ c, p c = true → c.column ≠ column) :
      front.filter p = [] :=
    List.filter_eq_nil_iff.mpr fun c hc hpc => hp c hpc (h c hc)
  have hless : front.filter (·.column < column) = [] :=
    hnone fun c hc => String.ne_of_lt (of_decide_eq_true hc)
  have hgreater : front.filter (column < ·.column) = [] :=
    hnone fun c hc => (String.ne_of_lt (of_decide_eq_true hc)).symm
  simp only [replaceOn, List.filter_append, hless, hgreater, List.nil_append]

/-- **One more entry replaces the conditions on its key** and leaves all others as they are. -/
theorem readWhere_insert (hsorted : Fields.Sorted clause)
    (hclause : readWhere (.obj clause) = .ok conditions)
    (hreplacement : readCriteria key value = .ok replacement) :
    readWhere (.obj (Fields.insert key value clause))
      = .ok (replaceOn key conditions replacement) := by
  induction clause generalizing conditions with
  | nil =>
    obtain rfl : [] = conditions := Except.ok.inj hclause
    rw [replaceOn_nil]
    exact readWhere_cons.mpr ⟨replacement, [], hreplacement, rfl, (List.append_nil _).symm⟩
  | cons entry rest ih =>
    obtain ⟨hfirst, hrest⟩ := List.pairwise_cons.mp hsorted
    obtain ⟨group, others, hgroup, hothers, rfl⟩ := readWhere_cons.mp hclause
    have hcolumn := (column_of_readCriteria hgroup).1
    have hbehind : ∀ c ∈ others, entry.1 < c.column := by
      intro c hc
      obtain ⟨other, hother, hc⟩ := column_of_readWhere hothers hc
      rw [hc]
      exact hfirst other hother
    rw [Fields.insert]
    split
    · -- the entry is the one on the key
      rename_i hsame
      obtain rfl := eq_of_beq hsame
      rw [replaceOn_append_of_eq hcolumn, replaceOn_of_lt hbehind]
      exact readWhere_cons.mpr ⟨replacement, others, hreplacement, hothers, rfl⟩
    · split
      · -- the key comes before all entries
        rename_i hless
        have hall : ∀ c ∈ group ++ others, key < c.column := by
          refine List.forall_mem_append.mpr ⟨fun c hc => ?_, fun c hc => ?_⟩
          · rw [hcolumn c hc]
            exact hless
          · exact String.lt_trans hless (hbehind c hc)
        rw [replaceOn_of_lt hall]
        exact readWhere_cons.mpr ⟨replacement, _, hreplacement, hclause, rfl⟩
      · -- the key comes behind this entry
        rename_i hother hless
        have hfront : ∀ c ∈ group, c.column < key := by
          intro c hc
          rw [hcolumn c hc]
          grind
        rw [replaceOn_append_of_lt hfront]
        exact readWhere_cons.mpr ⟨group, _, hgroup, ih hrest hothers, rfl⟩

/-! ## The query of the new descriptor -/

/-- A condition that is put among those that a descriptor has changes nothing else. -/
theorem ofDescriptor_filter (hquery : ofDescriptor config d = .ok query)
    (hkey : d.isStructured = true ∨ isConditionKey key = true)
    (hput : (d.filter key value).clause? = some (.obj (Fields.insert key value clause)))
    (hsorted : Fields.Sorted clause) (hclause : readWhere (.obj clause) = .ok conditions)
    (hreplacement : readCriteria key value = .ok replacement) :
    ofDescriptor config (d.filter key value)
      = .ok { query with conditions := replaceOn key conditions replacement } := by
  have hread := ofDescriptor_eq_ok.mp hquery
  refine ofDescriptor_eq_ok.mpr (hread.changed ?_ ?_ ?_ ?_ ?_)
  · intro other hother
    refine get?_filter hkey value ?_ ?_ <;> revert other <;> decide
  · exact joinKeys_filter hkey value
  · rw [get?_filter hkey value (by decide) (by decide)]
    exact hread.includes
  · rw [order?, get?_filter hkey value (by decide) (by decide),
      get?_filter hkey value (by decide) (by decide)]
    exact hread.order
  · rw [hput]
    exact readWhere_insert hsorted hclause hreplacement

/-- In the structured style all conditions are under `where`. -/
theorem exists_clause_of_structured (hordered : d.Ordered) (hread : IsReadFrom config d query)
    (hstyle : d.isStructured = true) (key : String) (value : Json) :
    ∃ clause, Fields.Sorted clause ∧ readWhere (.obj clause) = .ok query.conditions
      ∧ (d.filter key value).clause? = some (.obj (Fields.insert key value clause)) := by
  have hclause? (e : Descriptor) (he : e.isStructured = true) :
      e.clause? = e.fields.get? "where" := by
    rw [clause?, hoisted, if_pos he]
    rfl
  have hput {clause : Fields Json} (h : d.fields.get? "where" = some (.obj clause)
      ∨ d.fields.get? "where" = none ∧ clause = []) :
      (d.filter key value).clause? = some (.obj (Fields.insert key value clause)) := by
    rw [filter_of_structured hstyle h, hclause? (d.put _ _) hstyle, get?_put_self]
  have hconditions := hread.conditions
  rw [hclause? d hstyle] at hconditions
  cases hwhere : d.fields.get? "where" with
  | none =>
    rw [hwhere] at hconditions
    exact ⟨[], .nil, hconditions, hput (.inr ⟨hwhere, rfl⟩)⟩
  | some json =>
    rw [hwhere] at hconditions
    cases json with
    | obj clause =>
      exact ⟨clause, hordered.clause clause hwhere, hconditions, hput (.inl hwhere)⟩
    | _ => cases hconditions

/-- In a shorthand whose conditions are in place all of them are at its top. -/
theorem readWhere_hoisted (hread : IsReadFrom config d query)
    (hplace : d.hoisted ≠ [] ∨ d.fields.get? "where" = none) :
    readWhere (.obj d.hoisted) = .ok query.conditions := by
  have hconditions := hread.conditions
  by_cases hempty : d.hoisted = []
  · have hnone := hplace.resolve_left fun h => h hempty
    rw [clause?, hempty, hnone] at hconditions
    rw [hempty]
    exact hconditions
  · rwa [clause?, if_neg (by simpa using hempty)] at hconditions

/-- A `where` that gives the conditions on the key `where` would have to contain itself. -/
theorem not_readWhere_of_readCriteria (hwhere : readWhere value = .ok conditions)
    (hcriteria : readCriteria "where" value = .ok conditions) : False := by
  obtain ⟨hcolumn, hne⟩ := column_of_readCriteria hcriteria
  obtain ⟨c, hc⟩ := List.exists_mem_of_ne_nil conditions hne
  cases value with
  | obj clause =>
    obtain ⟨entry, hentry, group, hgroup, hmem⟩ := exists_of_mem_readWhere hwhere hc
    have hkey : entry.1 = "where" := by
      rw [← (column_of_readCriteria hgroup).1 c hmem, hcolumn c hc]
    -- the key is no operator, so the object as a whole is what the condition compares with
    have hplain : isOperators clause = false := by
      refine Bool.eq_false_iff.mpr fun hoperators => ?_
      rw [isOperators, Bool.and_eq_true, List.all_eq_true] at hoperators
      have hdollar : ['$'].isPrefixOf entry.1.toList = true := hoperators.2 entry hentry
      rw [hkey] at hdollar
      exact absurd hdollar (by decide)
    rw [readCriteria, hplain] at hcriteria
    obtain rfl := Except.ok.inj hcriteria
    obtain rfl := List.mem_singleton.mp hc
    have hsize := sizeOf_of_readCriteria hgroup hmem rfl
    have hless := Json.sizeOf_lt_obj hentry
    omega
  | _ => exact absurd hwhere nofun

/-- A key with a meaning of its own is not read as a condition. -/
theorem readConditions_put_ne (hplace : d.hoisted ≠ [] ∨ d.fields.get? "where" = none)
    (hkey : isConditionKey key = false) (hread : IsReadFrom config d query)
    (hreplacement : readCriteria key value = .ok replacement) :
    readConditions (d.put key value).clause?
      ≠ .ok (replaceOn key query.conditions replacement) := by
  intro h
  obtain ⟨hcolumn, hne⟩ := column_of_readCriteria hreplacement
  obtain ⟨c, hc⟩ := List.exists_mem_of_ne_nil replacement hne
  have hmem : c ∈ replaceOn key query.conditions replacement :=
    List.mem_append_left _ (List.mem_append_right _ hc)
  have hclause := readWhere_hoisted hread hplace
  by_cases hempty : d.hoisted = []
  · have hnone := hplace.resolve_left fun h => h hempty
    by_cases hwhere : key = "where"
    · -- the new `where` is all that there is
      subst hwhere
      have hconditions : query.conditions = [] := by
        rw [hempty] at hclause
        exact (Except.ok.inj hclause).symm
      rw [clause?, hoisted_put hkey, hempty, get?_put_self, hconditions, replaceOn_nil] at h
      exact not_readWhere_of_readCriteria h hreplacement
    · rw [clause?_put hkey hwhere, clause?, hempty, hnone] at h
      rw [← Except.ok.inj h] at hmem
      exact absurd hmem List.not_mem_nil
  · -- the conditions at the top are still all that counts
    rw [clause?, hoisted_put hkey, if_neg (by simpa using hempty)] at h
    obtain ⟨entry, hentry, hcondition⟩ := column_of_readWhere h hmem
    have htop : isConditionKey entry.1 = true := by
      unfold hoisted at hentry
      split at hentry
      · exact absurd hentry List.not_mem_nil
      · exact (List.mem_filter.mp hentry).2
    rw [← hcondition, hcolumn c hc, hkey] at htop
    exact absurd htop Bool.false_ne_true

/-- In a shorthand a condition takes its place among the others at the top. -/
theorem ofDescriptor_filter_of_shorthand (hordered : d.Ordered)
    (hquery : ofDescriptor config d = .ok query) (hstyle : d.isStructured = false)
    (hkey : isConditionKey key = true) (hclause : readWhere (.obj d.hoisted) = .ok conditions)
    (hreplacement : readCriteria key value = .ok replacement) :
    ofDescriptor config (d.filter key value)
      = .ok { query with conditions := replaceOn key conditions replacement } := by
  have hsorted : Fields.Sorted d.hoisted := by
    rw [hoisted, if_neg (by simp [hstyle])]
    exact hordered.fields.filter isConditionKey
  refine ofDescriptor_filter hquery (.inr hkey) ?_ hsorted hclause hreplacement
  rw [filter_of_shorthand hstyle, clause?_put_of_condition hstyle hordered.fields hkey]

/-- Where the conditions are in place, one more is added to them exactly if nothing else can be
meant. -/
theorem ofDescriptor_filter_iff (hordered : d.Ordered) (hquery : ofDescriptor config d = .ok query)
    (hplace : d.InPlace) (hreplacement : readCriteria key value = .ok replacement) :
    ofDescriptor config (d.filter key value)
        = .ok { query with conditions := replaceOn key query.conditions replacement }
      ↔ d.isStructured = true ∨ isConditionKey key = true := by
  have hread := ofDescriptor_eq_ok.mp hquery
  constructor
  · intro h
    by_contra hneither
    obtain ⟨hstyle, hkey⟩ := not_or.mp hneither
    have hshorthand := Bool.eq_false_iff.mpr hstyle
    rw [filter_of_shorthand hshorthand] at h
    exact readConditions_put_ne (hplace.resolve_left hstyle) (Bool.eq_false_iff.mpr hkey) hread
      hreplacement (ofDescriptor_eq_ok.mp h).conditions
  · intro hkey
    by_cases hstyle : d.isStructured = true
    · obtain ⟨clause, hsorted, hclause, hput⟩ :=
        exists_clause_of_structured hordered hread hstyle key value
      exact ofDescriptor_filter hquery hkey hput hsorted hclause hreplacement
    · have hclause := readWhere_hoisted hread (hplace.resolve_left hstyle)
      exact ofDescriptor_filter_of_shorthand hordered hquery (Bool.eq_false_iff.mpr hstyle)
        (hkey.resolve_left hstyle) hclause hreplacement

/-- The keys of a descriptor need not be checked if it was built from values in order, as those are
that were read from texts. -/
theorem ofDescriptor_filter_iff_of_built (hbuilt : d.Built)
    (hquery : ofDescriptor config d = .ok query) (hplace : d.InPlace)
    (hreplacement : readCriteria key value = .ok replacement) :
    ofDescriptor config (d.filter key value)
        = .ok { query with conditions := replaceOn key query.conditions replacement }
      ↔ d.isStructured = true ∨ isConditionKey key = true :=
  ofDescriptor_filter_iff hbuilt.ordered hquery hplace hreplacement

/-- **A condition is added exactly where its key can only mean a condition.** Let a descriptor stand
for a query, and let its conditions be where its style keeps them. With one more condition it stands
for the query with this in place of the conditions on its key, and all else as it was, exactly if
it is structured or the key is neither reserved nor that of a join. In a shorthand whose conditions
are under a `where` that was put there later, a condition takes the place of all of them. And under
a key with another meaning, `where` apart, no condition is added to any shorthand. -/
theorem filter_adds_iff (hordered : d.Ordered) (hquery : ofDescriptor config d = .ok query)
    (hreplacement : readCriteria key value = .ok replacement) :
    (d.InPlace → (ofDescriptor config (d.filter key value)
        = .ok { query with conditions := replaceOn key query.conditions replacement }
      ↔ d.isStructured = true ∨ isConditionKey key = true))
    ∧ (¬ d.InPlace → isConditionKey key = true →
      ofDescriptor config (d.filter key value) = .ok { query with conditions := replacement })
    ∧ (d.isStructured = false → isConditionKey key = false → key ≠ "where" →
      ∀ changed, ofDescriptor config (d.filter key value) = .ok changed →
        changed.conditions = query.conditions) := by
  refine ⟨fun hplace => ofDescriptor_filter_iff hordered hquery hplace hreplacement,
    fun hplace hkey => ?_, ?_⟩
  · obtain ⟨hstyle, hplace⟩ := not_or.mp hplace
    have hempty : d.hoisted = [] := not_not.mp (not_or.mp hplace).1
    have hclause : readWhere (.obj d.hoisted) = .ok [] := by
      rw [hempty]
      rfl
    rw [ofDescriptor_filter_of_shorthand hordered hquery (Bool.eq_false_iff.mpr hstyle) hkey hclause
      hreplacement, replaceOn_nil]
  · intro hstyle hkey hwhere changed hchanged
    rw [filter_of_shorthand hstyle] at hchanged
    have hread := ofDescriptor_eq_ok.mp hquery
    have hconditions := (ofDescriptor_eq_ok.mp hchanged).conditions
    rw [clause?_put hkey hwhere, hread.conditions] at hconditions
    exact (Except.ok.inj hconditions).symm

/-- A shorthand for the records with a given name. -/
def namedAlex : Descriptor := .ofFields [("name", .str "alex")]

/-- An age is added to the conditions; a type makes a removal of the query. -/
theorem filter_adds_iff_namedAlex : ∃ query,
    namedAlex.Ordered ∧ ofDescriptor .default namedAlex = .ok query
      ∧ query.conditions = [.equal "name" (.str "alex")]
      ∧ readCriteria "age" (.int 30) = .ok [.equal "age" (.int 30)]
      ∧ readCriteria "type" (.str "delete") = .ok [.equal "type" (.str "delete")]
      ∧ ofDescriptor .default (namedAlex.filter "age" (.int 30)) = .ok { query with
        conditions := [.equal "age" (.int 30), .equal "name" (.str "alex")] }
      ∧ ofDescriptor .default (namedAlex.filter "type" (.str "delete")) ≠ .ok { query with
        conditions := replaceOn "type" query.conditions [.equal "type" (.str "delete")] }
      ∧ ofDescriptor .default (namedAlex.filter "type" (.str "delete"))
        = .ok { Query.empty .delete with conditions := query.conditions } := by
  -- the shorthand is what a text stands for, so its keys are in order
  have htext : "\x7b\"name\":\"alex\"\x7d".toList = ['\x7b', '"', 'n', 'a', 'm', 'e', '"', ':', '"',
    'a', 'l', 'e', 'x', '"', '\x7d'] := by decide
  have hjson : Json.read? "\x7b\"name\":\"alex\"\x7d" = some namedAlex.toJson := by
    rw [Json.read?, htext]
    rfl
  have hbuilt : namedAlex.Built := .ofJson (Json.ordered_of_read? hjson) rfl
  have hordered : namedAlex.Ordered := hbuilt.ordered
  have hquery : ofDescriptor .default namedAlex = .ok { Query.empty .select with
      conditions := [.equal "name" (.str "alex")]
      limit? := some 50
      offset? := some 0 } := rfl
  have hage : readCriteria "age" (.int 30) = .ok [.equal "age" (.int 30)] := rfl
  have htype : readCriteria "type" (.str "delete") = .ok [.equal "type" (.str "delete")] := rfl
  have hplace : namedAlex.InPlace := .inr (.inr rfl)
  refine ⟨_, hordered, hquery, rfl, hage, htype, ?_, fun h => ?_, rfl⟩
  · exact ((filter_adds_iff hordered hquery hage).1 hplace).mpr (.inr (by decide))
  · have hmeaning := ((filter_adds_iff hordered hquery htype).1 hplace).mp h
    exact absurd hmeaning (by decide)

end Query

end RecordMapping
