import RecordMapping.Proofs.Query.Criteria

/-!
# What a descriptor is read for

Before a descriptor is read its conditions are moved under `where`, and `sort` takes its other name.
Neither concerns the other keys, so a query can be told from the keys as they stand in the
descriptor (`ofDescriptor_eq`, `ofDescriptor_eq_ok`). In particular it is the same for all
descriptors that read `Alike`. Whatever is wrong with a descriptor is a fault of the query
(`queryFaults_ofDescriptor`).
-/

namespace RecordMapping

namespace Descriptor

/-- What a descriptor has as its order: `sort` counts where there is no `order`. -/
def order? (d : Descriptor) : Option Json := (d.fields.get? "order").or (d.fields.get? "sort")

/-- The keys of a descriptor that name joins. -/
def joinKeys (d : Descriptor) : Fields Json := d.fields.filter fun entry => isJoinKey entry.1

variable {d : Descriptor}

/-! ## Putting a value under a key -/

theorem get?_put (key other : String) (value : Json) :
    (d.put key value).fields.get? other = if key = other then some value else d.fields.get? other :=
  Fields.get?_insert _ _ _ _

theorem get?_put_self (key : String) (value : Json) :
    (d.put key value).fields.get? key = some value := by
  rw [get?_put, if_pos rfl]

theorem get?_put_of_ne {key other : String} (h : key ≠ other) (value : Json) :
    (d.put key value).fields.get? other = d.fields.get? other := by
  rw [get?_put, if_neg h]

/-- A key that names no condition is none at the top of a shorthand. -/
theorem hoisted_put {key : String} (hcondition : Query.isConditionKey key = false)
    (value : Json) : (d.put key value).hoisted = d.hoisted := by
  unfold hoisted
  rw [show (d.put key value).isStructured = d.isStructured from rfl]
  split
  · rfl
  · exact Fields.filter_insert hcondition value d.fields

/-- A key that names no condition leaves the conditions as they are. -/
theorem clause?_put {key : String} (hcondition : Query.isConditionKey key = false)
    (hwhere : key ≠ "where") (value : Json) : (d.put key value).clause? = d.clause? := by
  rw [clause?, hoisted_put hcondition, get?_put_of_ne hwhere, clause?]

/-- A key that names no join leaves the joins as they are. -/
theorem joinKeys_put {key : String} (h : isJoinKey key = false) (value : Json) :
    (d.put key value).joinKeys = d.joinKeys :=
  Fields.filter_insert h value d.fields

end Descriptor

namespace Query

variable {config : Config} {d e : Descriptor}

/-! ## Keys that stay -/

theorem get?_withOrder {key : String} (hsort : key ≠ "sort") (horder : key ≠ "order")
    (fields : Fields Json) : (withOrder fields).get? key = fields.get? key := by
  have herase : (fields.erase "sort").get? key = fields.get? key := by
    rw [Fields.get?_erase, if_neg hsort.symm]
  unfold withOrder
  cases fields.get? "sort" with
  | none => rfl
  | some sort =>
    dsimp only
    split
    · exact herase
    · rw [Fields.get?_insert, if_neg horder.symm, herase]

theorem get?_order_withOrder (fields : Fields Json) :
    (withOrder fields).get? "order" = (fields.get? "order").or (fields.get? "sort") := by
  have herase : (fields.erase "sort").get? "order" = fields.get? "order" := by
    rw [Fields.get?_erase, if_neg (by decide)]
  unfold withOrder
  cases fields.get? "sort" with
  | none => rw [Option.or_none]
  | some sort =>
    dsimp only
    rw [Fields.contains_eq_isSome, herase]
    cases horder : fields.get? "order" with
    | none => exact (Fields.get?_insert _ _ _ _).trans (if_pos rfl)
    | some order => exact herase.trans horder

/-- Only conditions are moved out of a shorthand, and only `where` is put into it. -/
theorem get?_structuredFields {key : String} (hcondition : isConditionKey key = false)
    (hwhere : key ≠ "where") : (structuredFields d).get? key = d.fields.get? key := by
  have hkept : Fields.get? (d.fields.filter fun entry => !isConditionKey entry.1) key
      = d.fields.get? key := by
    rw [Fields.get?_filter (fun key => !isConditionKey key), hcondition]
    rfl
  unfold structuredFields
  split
  · rfl
  · dsimp only
    split
    · rfl
    · exact (Fields.get?_insert _ _ _ _).trans ((if_neg hwhere.symm).trans hkept)

/-- A key that names a join names no condition. -/
theorem isConditionKey_of_isJoinKey {key : String} (h : Descriptor.isJoinKey key = true) :
    isConditionKey key = false := by
  simp [isConditionKey, Descriptor.isStructuredKey, h]

theorem joins_withOrder (fields : Fields Json) :
    ((withOrder fields).filter fun entry => Descriptor.isJoinKey entry.1)
      = fields.filter fun entry => Descriptor.isJoinKey entry.1 := by
  have hsort : Descriptor.isJoinKey "sort" = false := by decide
  have horder : Descriptor.isJoinKey "order" = false := by decide
  unfold withOrder
  cases fields.get? "sort" with
  | none => rfl
  | some sort =>
    dsimp only
    split
    · exact Fields.filter_erase hsort fields
    · exact (Fields.filter_insert horder sort _).trans (Fields.filter_erase hsort fields)

theorem joins_structuredFields :
    ((structuredFields d).filter fun entry => Descriptor.isJoinKey entry.1) = d.joinKeys := by
  have hwhere : Descriptor.isJoinKey "where" = false := by decide
  unfold structuredFields
  split
  · rfl
  · dsimp only
    split
    · rfl
    · refine (Fields.filter_insert hwhere _ _).trans ?_
      rw [List.filter_filter, Descriptor.joinKeys]
      refine List.filter_congr fun entry _ => ?_
      cases hjoin : Descriptor.isJoinKey entry.1 with
      | false => rfl
      | true => simp [isConditionKey_of_isJoinKey hjoin]

/-! ## The parts of a query -/

/-- A reserved key that nothing is moved to or from is read as it stands. -/
theorem get?_read {key : String} (hreserved : Descriptor.isReserved key = true)
    (hkey : key ∉ ["where", "sort", "order"]) :
    (withOrder (structuredFields d)).get? key = d.fields.get? key := by
  simp only [List.mem_cons, List.not_mem_nil, or_false, not_or] at hkey
  rw [get?_withOrder hkey.2.1 hkey.2.2]
  exact get?_structuredFields (by simp [isConditionKey, hreserved]) hkey.1

theorem get?_order_read : (withOrder (structuredFields d)).get? "order" = d.order? := by
  rw [get?_order_withOrder, get?_structuredFields (by decide) (by decide),
    get?_structuredFields (by decide) (by decide), Descriptor.order?]

theorem joins_read :
    ((withOrder (structuredFields d)).filter fun entry => Descriptor.isJoinKey entry.1)
      = d.joinKeys := by
  rw [joins_withOrder, joins_structuredFields]

/-- The joins under some keys, all of which name joins. -/
def readJoinKeys (keys : Fields Json) : Result (List JoinSpec) := do
  let joins ← keys.mapM fun entry => readJoins entry.1 entry.2
  .ok joins.flatten

/-- The number of records that is asked for on a page: the page size goes before the limit. -/
def readRequested (fields : Fields Json) : Result (Option Int64) := do
  match ← readWholeNumber "pageSize" (fields.get? "pageSize") with
  | some size => .ok (some size)
  | none => readWholeNumber "limit" (fields.get? "limit")

/-- The offset that is asked for: the page goes before the offset. -/
def readOffset (limit : Int64) (fields : Fields Json) : Result Int64 := do
  match ← readWholeNumber "page" (fields.get? "page") with
  | some page => pageOffset page limit
  | none => do
    let offset? ← readWholeNumber "offset" (fields.get? "offset")
    .ok (max (offset?.getD 0) 0)

theorem readPage_eq (fields : Fields Json) : readPage config fields = (do
    let requested ← readRequested fields
    let offset ← readOffset (pageLimit config requested) fields
    .ok (pageLimit config requested, offset)) := by
  have hoffset (limit : Int64) : (do
      match ← readWholeNumber "page" (fields.get? "page") with
      | some page => do
        let offset ← pageOffset page limit
        Except.ok (limit, offset)
      | none => do
        let offset? ← readWholeNumber "offset" (fields.get? "offset")
        Except.ok (limit, max (offset?.getD 0) 0))
      = (do
        let offset ← readOffset limit fields
        Except.ok (limit, offset)) := by
    unfold readOffset
    cases readWholeNumber "page" (fields.get? "page") with
    | error e => rfl
    | ok page? =>
      cases page? with
      | some page => rfl
      | none => cases readWholeNumber "offset" (fields.get? "offset") <;> rfl
  unfold readPage readRequested
  cases readWholeNumber "pageSize" (fields.get? "pageSize") with
  | error e => rfl
  | ok size? =>
    cases size? with
    | some size => exact hoffset _
    | none =>
      cases readWholeNumber "limit" (fields.get? "limit") with
      | error e => rfl
      | ok limit? => exact hoffset _

/-- A page is told from four keys. -/
theorem readPageOf_congr {f g : Fields Json} (kind : QueryKind)
    (h : ∀ key ∈ ["pageSize", "limit", "page", "offset"], f.get? key = g.get? key) :
    readPageOf config kind f = readPageOf config kind g := by
  simp only [List.forall_mem_cons] at h
  obtain ⟨hsize, hlimit, hpage, hoffset, -⟩ := h
  unfold readPageOf readPage
  rw [hsize, hlimit, hpage, hoffset]

/-- A query is told from the keys of its descriptor. -/
theorem ofDescriptor_eq : ofDescriptor config d = (do
    let kind ← readKind (d.fields.get? "type")
    let columns ← readNames "columns" (d.fields.get? "columns")
    let groupBy ← readNames "groupBy" (d.fields.get? "groupBy")
    let includes ← readNames "include" (d.fields.get? "include")
    let order ← readOrder d.order?
    let conditions ← readConditions d.clause?
    let joins ← readJoinKeys d.joinKeys
    let values ← readValues (d.fields.get? "values")
    let page? ← readPageOf config kind d.fields
    .ok {
      kind
      table? := (d.fields.get? "table").bind Json.asString?
      columns
      conditions
      joins
      values
      order
      groupBy
      offset? := page?.map (·.2)
      limit? := page?.map (·.1)
      includes }) := by
  have hkeep (key : String)
      (hkey : key ∈ ["type", "table", "columns", "groupBy", "include", "values"]) :
      (withOrder (structuredFields d)).get? key = d.fields.get? key := by
    refine get?_read ?_ ?_ <;> revert key <;> decide
  have hjoins : readAllJoins (withOrder (structuredFields d)) = readJoinKeys d.joinKeys :=
    congrArg readJoinKeys joins_read
  have hpage (kind : QueryKind) : readPageOf config kind (withOrder (structuredFields d))
      = readPageOf config kind d.fields :=
    readPageOf_congr kind fun key hkey => by
      refine get?_read ?_ ?_ <;> revert key <;> decide
  unfold ofDescriptor
  dsimp only
  rw [hkeep "type" (by decide), hkeep "table" (by decide), hkeep "columns" (by decide),
    hkeep "groupBy" (by decide), hkeep "include" (by decide), hkeep "values" (by decide),
    get?_order_read, get?_where_withOrder, get?_where_structuredFields, hjoins]
  simp only [hpage]

/-- What the parts of a query are read from. -/
structure IsReadFrom (config : Config) (d : Descriptor) (query : Query) : Prop where
  kind : readKind (d.fields.get? "type") = .ok query.kind
  table : query.table? = (d.fields.get? "table").bind Json.asString?
  columns : readNames "columns" (d.fields.get? "columns") = .ok query.columns
  groupBy : readNames "groupBy" (d.fields.get? "groupBy") = .ok query.groupBy
  includes : readNames "include" (d.fields.get? "include") = .ok query.includes
  order : readOrder d.order? = .ok query.order
  conditions : readConditions d.clause? = .ok query.conditions
  joins : readJoinKeys d.joinKeys = .ok query.joins
  values : readValues (d.fields.get? "values") = .ok query.values
  page : ∃ page?, readPageOf config query.kind d.fields = .ok page?
    ∧ query.limit? = page?.map (·.1) ∧ query.offset? = page?.map (·.2)

/-- A descriptor stands for a query whose parts can all be read. -/
theorem ofDescriptor_eq_ok {query : Query} :
    ofDescriptor config d = .ok query ↔ IsReadFrom config d query := by
  rw [ofDescriptor_eq]
  constructor
  · intro h
    obtain ⟨kind, hkind, h⟩ := bind_eq_ok.mp h
    obtain ⟨columns, hcolumns, h⟩ := bind_eq_ok.mp h
    obtain ⟨groupBy, hgroupBy, h⟩ := bind_eq_ok.mp h
    obtain ⟨includes, hincludes, h⟩ := bind_eq_ok.mp h
    obtain ⟨order, horder, h⟩ := bind_eq_ok.mp h
    obtain ⟨conditions, hconditions, h⟩ := bind_eq_ok.mp h
    obtain ⟨joins, hjoins, h⟩ := bind_eq_ok.mp h
    obtain ⟨values, hvalues, h⟩ := bind_eq_ok.mp h
    obtain ⟨page?, hpage, h⟩ := bind_eq_ok.mp h
    obtain rfl := Except.ok.inj h
    exact ⟨hkind, rfl, hcolumns, hgroupBy, hincludes, horder, hconditions, hjoins, hvalues,
      page?, hpage, rfl, rfl⟩
  · intro h
    obtain ⟨page?, hpage, hlimit, hoffset⟩ := h.page
    rw [h.kind, h.columns, h.groupBy, h.includes, h.order, h.conditions, h.joins, h.values]
    simp only [bind, Except.bind, hpage, ← h.table, ← hlimit, ← hoffset]

/-- Another descriptor with the same other keys stands for the query with its own relations to load,
order and conditions. -/
theorem IsReadFrom.changed {query : Query} (h : IsReadFrom config d query)
    (hkept : ∀ key ∈ ["type", "table", "columns", "groupBy", "values", "pageSize", "limit", "page",
      "offset"], e.fields.get? key = d.fields.get? key)
    (hjoins : e.joinKeys = d.joinKeys) {includes : List String} {order : List (String × Direction)}
    {conditions : List Condition}
    (hincludes : readNames "include" (e.fields.get? "include") = .ok includes)
    (horder : readOrder e.order? = .ok order)
    (hconditions : readConditions e.clause? = .ok conditions) :
    IsReadFrom config e { query with includes, order, conditions } where
  kind := hkept "type" (by decide) ▸ h.kind
  table := hkept "table" (by decide) ▸ h.table
  columns := hkept "columns" (by decide) ▸ h.columns
  groupBy := hkept "groupBy" (by decide) ▸ h.groupBy
  includes := hincludes
  order := horder
  conditions := hconditions
  joins := hjoins ▸ h.joins
  values := hkept "values" (by decide) ▸ h.values
  page := by
    rw [readPageOf_congr query.kind fun key hkey => hkept key (by revert key; decide)]
    exact h.page

/-- Descriptors from which the same parts are read. -/
structure Alike (d e : Descriptor) : Prop where
  kept : ∀ key ∈ ["type", "table", "values", "pageSize", "limit", "page", "offset"],
    d.fields.get? key = e.fields.get? key
  names : ∀ key ∈ ["columns", "groupBy", "include"],
    readNames key (d.fields.get? key) = readNames key (e.fields.get? key)
  order : readOrder d.order? = readOrder e.order?
  conditions : readConditions d.clause? = readConditions e.clause?
  joins : d.joinKeys = e.joinKeys

/-- Descriptors that read alike stand for the same query, or have the same fault. -/
theorem Alike.ofDescriptor_eq (h : Alike d e) : ofDescriptor config d = ofDescriptor config e := by
  have hpage (kind : QueryKind) :
      readPageOf config kind d.fields = readPageOf config kind e.fields :=
    readPageOf_congr kind fun key hkey => h.kept key (by revert key; decide)
  rw [Query.ofDescriptor_eq, Query.ofDescriptor_eq, h.kept "type" (by decide),
    h.kept "table" (by decide), h.kept "values" (by decide), h.names "columns" (by decide),
    h.names "groupBy" (by decide), h.names "include" (by decide), h.order, h.conditions, h.joins]
  simp only [hpage]

/-! ## Faults -/

/-- A reading that goes wrong only by faults of the query. -/
def QueryFaults {α : Type} (x : Result α) : Prop := ∀ e, x = .error e → ∃ fault, e = .query fault

section

variable {α β : Type}

theorem queryFaults_ok (a : α) : QueryFaults (.ok a) := nofun

theorem queryFaults_error (fault : QueryFault) : QueryFaults (.error (.query fault) : Result α) :=
  fun _ h => ⟨fault, (Except.error.inj h).symm⟩

theorem QueryFaults.bind {x : Result α} {f : α → Result β} (hx : QueryFaults x)
    (hf : ∀ a, QueryFaults (f a)) : QueryFaults (x >>= f) := by
  intro e h
  cases x with
  | error e' => exact hx e (congrArg Except.error (Except.error.inj h))
  | ok a => exact hf a e h

theorem QueryFaults.map {x : Result α} (f : α → β) (hx : QueryFaults x) :
    QueryFaults (f <$> x) := by
  intro e h
  cases x with
  | error e' => exact hx e (congrArg Except.error (Except.error.inj h))
  | ok a => exact absurd h nofun

theorem queryFaults_mapM {f : α → Result β} (as : List α) (hf : ∀ a, QueryFaults (f a)) :
    QueryFaults (as.mapM f) := by
  induction as with
  | nil => exact queryFaults_ok []
  | cons a as ih =>
    rw [List.mapM_cons]
    exact (hf a).bind fun b => ih.bind fun bs => queryFaults_ok (b :: bs)

end

theorem queryFaults_readKind (value? : Option Json) : QueryFaults (readKind value?) := by
  unfold readKind
  repeat' split
  all_goals first | exact queryFaults_ok _ | exact queryFaults_error _

theorem queryFaults_readNames (field : String) (value? : Option Json) :
    QueryFaults (readNames field value?) := by
  unfold readNames
  split
  · exact queryFaults_ok _
  · exact queryFaults_ok _
  · exact queryFaults_ok _
  · refine (queryFaults_mapM _ fun item => ?_).bind fun names => queryFaults_ok _
    split
    · exact queryFaults_ok _
    · exact queryFaults_error _
  · exact queryFaults_error _

theorem queryFaults_readDirection (column : String) (value : Json) :
    QueryFaults (readDirection column value) := by
  unfold readDirection
  dsimp only
  repeat' split
  all_goals first | exact queryFaults_ok _ | exact queryFaults_error _

theorem queryFaults_readOrder (value? : Option Json) : QueryFaults (readOrder value?) := by
  unfold readOrder
  split
  · refine queryFaults_mapM _ fun entry => ?_
    exact (queryFaults_readDirection _ _).bind fun direction => queryFaults_ok _
  · exact (queryFaults_readNames _ _).bind fun names => queryFaults_ok _

theorem queryFaults_condition (criterion : Criterion) : QueryFaults criterion.condition := by
  unfold Criterion.condition readOperator
  repeat' split
  all_goals first | exact queryFaults_ok _ | exact queryFaults_error _

theorem queryFaults_readConditions (clause? : Option Json) :
    QueryFaults (readConditions clause?) := by
  unfold readConditions readWhere
  split
  · exact queryFaults_ok _
  · split
    · refine (queryFaults_mapM _ fun (key, value) => ?_).bind fun conditions => queryFaults_ok _
      show QueryFaults (readCriteria key value)
      rw [readCriteria_eq_mapM]
      exact queryFaults_mapM _ queryFaults_condition
    · exact queryFaults_error _

theorem queryFaults_readJoins (key : String) (value : Json) :
    QueryFaults (readJoins key value) := by
  unfold readJoins
  split
  · split
    · refine queryFaults_mapM _ fun (table, conditions) => ?_
      cases conditions with
      | obj conditions => exact queryFaults_ok _
      | _ => exact queryFaults_error _
    · exact queryFaults_error _
  · exact queryFaults_error _

theorem queryFaults_readJoinKeys (keys : Fields Json) : QueryFaults (readJoinKeys keys) :=
  (queryFaults_mapM keys fun _ => queryFaults_readJoins _ _).bind fun _ => queryFaults_ok _

theorem queryFaults_readValues (value? : Option Json) : QueryFaults (readValues value?) := by
  unfold readValues
  split
  · exact queryFaults_ok _
  · exact queryFaults_ok _
  · exact queryFaults_error _

theorem queryFaults_readWholeNumber (field : String) (value? : Option Json) :
    QueryFaults (readWholeNumber field value?) := by
  unfold readWholeNumber readWholeNumber.inRange
  repeat' split
  all_goals first | exact queryFaults_ok _ | exact queryFaults_error _

theorem queryFaults_pageOffset (page limit : Int64) : QueryFaults (pageOffset page limit) := by
  unfold pageOffset
  split
  · exact queryFaults_ok _
  · exact queryFaults_error _

theorem queryFaults_readPageOf (kind : QueryKind) (fields : Fields Json) :
    QueryFaults (readPageOf config kind fields) := by
  unfold readPageOf
  split
  · refine QueryFaults.map some ?_
    rw [readPage_eq]
    refine QueryFaults.bind ?_ fun requested => QueryFaults.bind ?_ fun offset => queryFaults_ok _
    · refine (queryFaults_readWholeNumber _ _).bind fun size? => ?_
      split
      · exact queryFaults_ok _
      · exact queryFaults_readWholeNumber _ _
    · refine (queryFaults_readWholeNumber _ _).bind fun page? => ?_
      split
      · exact queryFaults_pageOffset _ _
      · exact (queryFaults_readWholeNumber _ _).bind fun offset? => queryFaults_ok _
  · exact queryFaults_ok _

/-- **Whatever is wrong with a descriptor is a fault of the query.** -/
theorem queryFaults_ofDescriptor : QueryFaults (ofDescriptor config d) := by
  rw [ofDescriptor_eq]
  refine (queryFaults_readKind _).bind fun kind => ?_
  refine (queryFaults_readNames _ _).bind fun columns => ?_
  refine (queryFaults_readNames _ _).bind fun groupBy => ?_
  refine (queryFaults_readNames _ _).bind fun includes => ?_
  refine (queryFaults_readOrder _).bind fun order => ?_
  refine (queryFaults_readConditions _).bind fun conditions => ?_
  refine (queryFaults_readJoinKeys _).bind fun joins => ?_
  refine (queryFaults_readValues _).bind fun values => ?_
  exact (queryFaults_readPageOf _ _).bind fun page? => queryFaults_ok _

end Query

end RecordMapping
