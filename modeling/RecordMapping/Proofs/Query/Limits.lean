import RecordMapping.Proofs.Query.Counting
import RecordMapping.Proofs.Query.Paging
import RecordMapping.Proofs.Query.Readings

/-!
# Limits and offsets

A descriptor asks for a page with whole numbers, which it may write as numbers or as texts. What it
gets is within the limits of the configuration, and it is what the statement says.

* `Asks`: which whole number is asked for, if any; `readWholeNumber_of_asks`: it is read exactly if
  it fits a word;
* `paged_of_ofDescriptor`: the limit and the offset of a query, in terms of what is asked for;
* `ofDescriptor_put_page`: another page of a descriptor is the same query with another offset;
* `cutsPage_of_prepareQuery`: where the limit and the offset stand in a statement;
* `prepare_pages`: pages are bounded, follow one another, and are those of the statement.
-/

namespace RecordMapping

open Number Sql Sql.Piece Text

/-! ## What is asked for -/

/-- The whole number that a JSON value stands for: an integer, or what stands before the point of a
float. A text stands for what the number stands for that it denotes, blanks at its ends aside. -/
inductive Json.Whole : Json → Int → Prop
  | int (n : Int) : Whole (.int n) n
  | float {x : Float} {d : Number.Dyadic} (hx : Number.Dyadic.ofFloat? x = some d) :
    Whole (.float x) d.truncate
  | integerText {text : String} {n : Int64} (hn : readInt64? (trim text) = some n) :
    Whole (.str text) n.toInt
  | floatText {text : String} {x : Float} {d : Number.Dyadic}
    (hinteger : readInt64? (trim text) = none) (htext : readFinite? (trim text) = some x)
    (hx : Number.Dyadic.ofFloat? x = some d) : Whole (.str text) d.truncate

/-- What is asked for by a value, which may be missing: nothing, or a whole number. -/
inductive Asks : Option Json → Option Int → Prop
  | missing : Asks none none
  | null : Asks (some .null) none
  | number {value : Json} {n : Int} (h : value.Whole n) : Asks (some value) (some n)

/-- The number of records that a descriptor asks for on a page: its page size, or else its limit. -/
inductive Descriptor.Requests (d : Descriptor) : Option Int → Prop
  | size {n : Int} (h : Asks (d.fields.get? "pageSize") (some n)) : Requests d (some n)
  | limit {n? : Option Int} (hsize : Asks (d.fields.get? "pageSize") none)
    (h : Asks (d.fields.get? "limit") n?) : Requests d n?

/-- The limit for a requested number of records: within the maximum if it is positive, and the
default otherwise. -/
def Config.limitFor (config : Config) : Option Int → Int
  | some n => if 0 < n then min n config.maxLimit.toInt else config.defaultLimit.toInt
  | none => config.defaultLimit.toInt

theorem Json.Whole.unique {value : Json} {m n : Int} (hm : value.Whole m) (hn : value.Whole n) :
    m = n := by
  cases hm with
  | int => cases hn; rfl
  | float hx =>
    cases hn with
    | float hx' => rw [Option.some.inj (hx.symm.trans hx')]
  | integerText h =>
    cases hn with
    | integerText h' => rw [Option.some.inj (h.symm.trans h')]
    | floatText h' => exact absurd (h.symm.trans h') nofun
  | floatText hinteger htext hx =>
    cases hn with
    | integerText h => exact absurd (h.symm.trans hinteger) nofun
    | floatText _ htext' hx' =>
      obtain rfl := Option.some.inj (htext.symm.trans htext')
      rw [Option.some.inj (hx.symm.trans hx')]

theorem Asks.unique {value? : Option Json} {m? n? : Option Int} (hm : Asks value? m?)
    (hn : Asks value? n?) : m? = n? := by
  cases hm with
  | missing => cases hn; rfl
  | null =>
    cases hn with
    | null => rfl
    | number h => nomatch h
  | number h =>
    cases hn with
    | null => nomatch h
    | number h' => rw [h.unique h']

theorem Descriptor.Requests.unique {d : Descriptor} {m? n? : Option Int} (hm : d.Requests m?)
    (hn : d.Requests n?) : m? = n? := by
  cases hm with
  | size h =>
    cases hn with
    | size h' => exact h.unique h'
    | limit hsize _ => exact absurd (h.unique hsize) nofun
  | limit hsize h =>
    cases hn with
    | size h' => exact absurd (hsize.unique h') nofun
    | limit _ h' => exact h.unique h'

namespace Query

variable {config : Config} {d : Descriptor}

/-! ## Reading whole numbers -/

/-- A whole number is read if it fits a word, and refused otherwise. -/
theorem readWholeNumber_of_asks (field : String) {value? : Option Json} {n? : Option Int}
    (h : Asks value? n?) :
    readWholeNumber field value? = match n? with
      | none => .ok none
      | some n => readWholeNumber.inRange field (int64? n) := by
  cases h with
  | missing => rfl
  | null => rfl
  | number h =>
    cases h with
    | int n => rfl
    | float hx =>
      show readWholeNumber.inRange field (truncate? _) = _
      rw [truncate?, hx]
      rfl
    | integerText hn =>
      unfold readWholeNumber
      dsimp only
      rw [Value.numeric?, hn, int64?_toInt]
      rfl
    | floatText hinteger htext hx =>
      unfold readWholeNumber
      dsimp only
      rw [Value.numeric?, hinteger, htext]
      show readWholeNumber.inRange field (truncate? _) = _
      rw [truncate?, hx]
      rfl

theorem inRange_eq_ok {field : String} {found? word? : Option Int64} :
    readWholeNumber.inRange field found? = .ok word? ↔ ∃ w, found? = some w ∧ word? = some w := by
  cases found? with
  | none => exact ⟨nofun, nofun⟩
  | some w =>
    constructor
    · intro h
      exact ⟨w, rfl, (Except.ok.inj h).symm⟩
    · rintro ⟨_, hw, rfl⟩
      rw [hw]
      rfl

/-- What was read was asked for. -/
theorem asks_of_readWholeNumber {field : String} {value? : Option Json} {word? : Option Int64}
    (h : readWholeNumber field value? = .ok word?) : Asks value? (word?.map Int64.toInt) := by
  cases value? with
  | none =>
    obtain rfl := Except.ok.inj h
    exact .missing
  | some value =>
    cases value with
    | null =>
      obtain rfl := Except.ok.inj h
      exact .null
    | int n =>
      obtain ⟨w, hw, rfl⟩ := inRange_eq_ok.mp h
      exact .number (toInt_of_int64? hw ▸ .int n)
    | float x =>
      obtain ⟨w, hw, rfl⟩ := inRange_eq_ok.mp h
      obtain ⟨d, hd, hw⟩ := Option.bind_eq_some_iff.mp hw
      exact .number (toInt_of_int64? hw ▸ .float hd)
    | str text =>
      unfold readWholeNumber at h
      dsimp only at h
      rw [Value.numeric?] at h
      cases hinteger : readInt64? (trim text) with
      | some w =>
        rw [hinteger] at h
        obtain rfl := Except.ok.inj h
        exact .number (.integerText hinteger)
      | none =>
        cases htext : readFinite? (trim text) with
        | none =>
          rw [hinteger, htext] at h
          exact absurd h nofun
        | some x =>
          rw [hinteger, htext] at h
          obtain ⟨w, hw, rfl⟩ := inRange_eq_ok.mp h
          obtain ⟨d, hd, hw⟩ := Option.bind_eq_some_iff.mp hw
          exact .number (toInt_of_int64? hw ▸ .floatText hinteger htext hd)
    | _ => exact absurd h nofun

/-- What was read as the number of records on a page was asked for. -/
theorem requests_of_readRequested {requested : Option Int64}
    (h : readRequested d.fields = .ok requested) : d.Requests (requested.map Int64.toInt) := by
  obtain ⟨size?, hsize, h⟩ := bind_eq_ok.mp h
  cases size? with
  | some size =>
    obtain rfl := Except.ok.inj h
    exact .size (asks_of_readWholeNumber hsize)
  | none => exact .limit (asks_of_readWholeNumber hsize) (asks_of_readWholeNumber h)

/-! ## Limits -/

/-- A configuration passes the check if its limits are positive and the default is within the
maximum. -/
theorem validate_eq_ok : config.validate = .ok () ↔
    0 < config.maxLimit.toInt ∧ 0 < config.defaultLimit.toInt
      ∧ config.defaultLimit.toInt ≤ config.maxLimit.toInt := by
  unfold Config.validate
  simp only [Int64.le_iff_toInt_le, Int64.lt_iff_toInt_lt, Int64.toInt_zero]
  split
  · simp; omega
  · split
    · simp; omega
    · split
      · simp; omega
      · simp; omega

theorem toInt_min (a b : Int64) : (min a b).toInt = min a.toInt b.toInt := by
  show (if a ≤ b then a else b).toInt = _
  rw [Int.min_def]
  simp only [Int64.le_iff_toInt_le]
  split <;> rfl

theorem toInt_max (a b : Int64) : (max a b).toInt = max a.toInt b.toInt := by
  show (if a ≤ b then b else a).toInt = _
  rw [Int.max_def]
  simp only [Int64.le_iff_toInt_le]
  split <;> rfl

theorem toInt_pageLimit (hvalid : config.validate = .ok ()) (requested : Option Int64) :
    (pageLimit config requested).toInt = config.limitFor (requested.map Int64.toInt) := by
  have hdefault : (min config.defaultLimit config.maxLimit).toInt = config.defaultLimit.toInt := by
    rw [toInt_min, Int.min_eq_left (validate_eq_ok.mp hvalid).2.2]
  cases requested with
  | none => exact hdefault
  | some n =>
    show (if 0 < n then min n config.maxLimit else _).toInt = if 0 < n.toInt then _ else _
    simp only [Int64.lt_iff_toInt_lt, Int64.toInt_zero]
    split
    · exact toInt_min n config.maxLimit
    · exact hdefault

/-- Whatever is requested, the limit is positive and within the maximum. -/
theorem limitFor_bounds (hvalid : config.validate = .ok ()) (n? : Option Int) :
    1 ≤ config.limitFor n? ∧ config.limitFor n? ≤ config.maxLimit.toInt := by
  obtain ⟨hmax, hdefault, hle⟩ := validate_eq_ok.mp hvalid
  unfold Config.limitFor
  split
  · split <;> omega
  · omega

/-! ## Offsets -/

theorem pageOffset_eq_ok {page limit offset : Int64} : pageOffset page limit = .ok offset
    ↔ offset.toInt = max page.toInt 0 * limit.toInt := by
  unfold pageOffset
  cases hproduct : int64? (max page.toInt 0 * limit.toInt) with
  | some word =>
    rw [← toInt_of_int64? hproduct]
    exact ⟨fun h => by rw [Except.ok.inj h], fun h => by rw [Int64.toInt_inj.mp h]⟩
  | none =>
    refine ⟨nofun, fun h => ?_⟩
    rw [← h, int64?_toInt] at hproduct
    exact absurd hproduct nofun

theorem pageOffset_eq_error {page limit : Int64}
    (h : Int64.maxValue.toInt < max page.toInt 0 * limit.toInt) :
    pageOffset page limit = .error (.query (.pageOutOfRange page limit)) := by
  cases hoffset : pageOffset page limit with
  | ok offset =>
    rw [← pageOffset_eq_ok.mp hoffset] at h
    exact absurd offset.toInt_le (by omega)
  | error e =>
    unfold pageOffset at hoffset
    split at hoffset
    · exact absurd hoffset nofun
    · exact hoffset.symm

/-- The limit and the offset of a page, in terms of what a descriptor asks for. A page that is asked
for goes before an offset. -/
structure Paged (config : Config) (d : Descriptor) (limit offset : Int64) : Prop where
  one_le : 1 ≤ limit.toInt
  le_max : limit ≤ config.maxLimit
  nonneg : 0 ≤ offset.toInt
  requested : ∃ n?, d.Requests n? ∧ limit.toInt = config.limitFor n?
  byPage : ∀ page, Asks (d.fields.get? "page") (some page) →
    offset.toInt = max page 0 * limit.toInt
  byOffset : Asks (d.fields.get? "page") none →
    ∃ n?, Asks (d.fields.get? "offset") n? ∧ offset.toInt = max (n?.getD 0) 0

theorem paged_of_readPage (hvalid : config.validate = .ok ()) {limit offset : Int64}
    (h : readPage config d.fields = .ok (limit, offset)) : Paged config d limit offset := by
  rw [readPage_eq] at h
  obtain ⟨requested, hrequested, h⟩ := bind_eq_ok.mp h
  obtain ⟨offset', hoffset, h⟩ := bind_eq_ok.mp h
  obtain ⟨rfl, rfl⟩ := Prod.mk.inj (Except.ok.inj h)
  have hlimit := toInt_pageLimit hvalid requested
  obtain ⟨hone, hmax⟩ := limitFor_bounds hvalid (requested.map Int64.toInt)
  rw [← hlimit] at hone hmax
  obtain ⟨page?, hpage, hoffset⟩ := bind_eq_ok.mp hoffset
  have hasks := asks_of_readWholeNumber hpage
  have hrequests := requests_of_readRequested hrequested
  cases page? with
  | some page =>
    have hproduct := pageOffset_eq_ok.mp hoffset
    refine ⟨hone, Int64.le_iff_toInt_le.mpr hmax, ?_, ⟨_, hrequests, hlimit⟩, ?_, ?_⟩
    · rw [hproduct]
      exact Int.mul_nonneg (by omega) (by omega)
    · intro other hother
      rw [hproduct, ← Option.some.inj (hasks.unique hother)]
    · intro hnone
      exact absurd (hasks.unique hnone) nofun
  | none =>
    obtain ⟨word?, hword, hoffset⟩ := bind_eq_ok.mp hoffset
    have hvalue : offset'.toInt = max ((word?.map Int64.toInt).getD 0) 0 := by
      rw [← Except.ok.inj hoffset, toInt_max, Int64.toInt_zero]
      cases word? <;> rfl
    refine ⟨hone, Int64.le_iff_toInt_le.mpr hmax, ?_, ⟨_, hrequests, hlimit⟩, ?_, ?_⟩
    · omega
    · intro page hpage
      exact absurd (hasks.unique hpage) nofun
    · intro _
      exact ⟨_, asks_of_readWholeNumber hword, hvalue⟩

/-- A select has a limit and an offset. -/
theorem paged_of_ofDescriptor (hvalid : config.validate = .ok ())
    (hselect : readKind (d.fields.get? "type") = .ok .select) {query : Query}
    (h : ofDescriptor config d = .ok query) :
    ∃ limit offset, query.limit? = some limit ∧ query.offset? = some offset
      ∧ Paged config d limit offset := by
  have hread := ofDescriptor_eq_ok.mp h
  obtain ⟨page?, hpageOf, hlimit, hoffset⟩ := hread.page
  rw [Except.ok.inj (hread.kind.symm.trans hselect), readPageOf, if_pos rfl] at hpageOf
  obtain ⟨page, hpage, rfl⟩ := map_eq_ok.mp hpageOf
  exact ⟨page.1, page.2, hlimit, hoffset, paged_of_readPage hvalid hpage⟩

/-- An offset that is no word is refused. -/
theorem exists_fault_of_overflow (hvalid : config.validate = .ok ())
    (hselect : readKind (d.fields.get? "type") = .ok .select) {page : Int} {n? : Option Int}
    (hpage : Asks (d.fields.get? "page") (some page)) (hrequests : d.Requests n?)
    (hover : Int64.maxValue.toInt < max page 0 * config.limitFor n?) :
    ∃ fault, ofDescriptor config d = .error (.query fault) := by
  cases h : ofDescriptor config d with
  | error e =>
    obtain ⟨fault, rfl⟩ := queryFaults_ofDescriptor e h
    exact ⟨fault, rfl⟩
  | ok query =>
    obtain ⟨limit, offset, -, -, hpaged⟩ := paged_of_ofDescriptor hvalid hselect h
    obtain ⟨n?', hrequests', hlimit⟩ := hpaged.requested
    rw [hrequests.unique hrequests', ← hlimit, ← hpaged.byPage page hpage] at hover
    exact absurd offset.toInt_le (by omega)

/-! ## Pages of one descriptor -/

theorem get?_put_page {key : String} (hkey : "page" ≠ key) (value : Json) :
    (d.put "page" value).fields.get? key = d.fields.get? key := by
  rw [Descriptor.get?_put, if_neg hkey]

theorem asks_put_page {value : Json} {page : Int} (h : value.Whole page) :
    Asks ((d.put "page" value).fields.get? "page") (some page) := by
  rw [Descriptor.get?_put, if_pos rfl]
  exact .number h

/-- The page has no part in what is requested. -/
theorem requests_put_page {value : Json} {n? : Option Int} :
    (d.put "page" value).Requests n? ↔ d.Requests n? := by
  have hsize : (d.put "page" value).fields.get? "pageSize" = d.fields.get? "pageSize" :=
    get?_put_page (by decide) value
  have hlimit : (d.put "page" value).fields.get? "limit" = d.fields.get? "limit" :=
    get?_put_page (by decide) value
  constructor
  · intro h
    cases h with
    | size h => exact .size (hsize ▸ h)
    | limit h h' => exact .limit (hsize ▸ h) (hlimit ▸ h')
  · intro h
    cases h with
    | size h => exact .size (hsize.symm ▸ h)
    | limit h h' => exact .limit (hsize.symm ▸ h) (hlimit.symm ▸ h')

theorem readRequested_put_page (value : Json) :
    readRequested (d.put "page" value).fields = readRequested d.fields := by
  unfold readRequested
  rw [get?_put_page (by decide), get?_put_page (by decide)]

theorem readOffset_put_page {value : Json} {page : Int64} (hvalue : value.Whole page.toInt)
    (limit : Int64) : readOffset limit (d.put "page" value).fields = pageOffset page limit := by
  unfold readOffset
  rw [readWholeNumber_of_asks "page" (asks_put_page hvalue)]
  dsimp only
  rw [int64?_toInt]
  rfl

/-- The next page begins where the page ends. -/
theorem next_page (hvalid : config.validate = .ok ())
    (hselect : readKind (d.fields.get? "type") = .ok .select) {value next : Json} {page : Int}
    {query queryNext : Query} (hvalue : value.Whole page) (hnext : next.Whole (page + 1))
    (hpage : 0 ≤ page) (hquery : ofDescriptor config (d.put "page" value) = .ok query)
    (hqueryNext : ofDescriptor config (d.put "page" next) = .ok queryNext) :
    ∃ limit offset offsetNext, query.limit? = some limit ∧ queryNext.limit? = some limit
      ∧ query.offset? = some offset ∧ queryNext.offset? = some offsetNext
      ∧ offsetNext.toInt = offset.toInt + limit.toInt := by
  have hkind (value : Json) :
      readKind ((d.put "page" value).fields.get? "type") = .ok .select := by
    rwa [get?_put_page (by decide)]
  obtain ⟨limit, offset, hlimit, hoffset, hpaged⟩ :=
    paged_of_ofDescriptor hvalid (hkind value) hquery
  obtain ⟨limit', offset', hlimit', hoffset', hpaged'⟩ :=
    paged_of_ofDescriptor hvalid (hkind next) hqueryNext
  obtain rfl : limit = limit' := by
    obtain ⟨n?, hn, hrequested⟩ := hpaged.requested
    obtain ⟨n?', hn', hrequested'⟩ := hpaged'.requested
    rw [requests_put_page] at hn hn'
    rw [← Int64.toInt_inj, hrequested, hrequested', hn.unique hn']
  refine ⟨limit, offset, offset', hlimit, hlimit', hoffset, hoffset', ?_⟩
  have hfirst := hpaged.byPage page (asks_put_page hvalue)
  have hsecond := hpaged'.byPage (page + 1) (asks_put_page hnext)
  calc offset'.toInt = (page + 1) * limit.toInt := by rw [hsecond, Int.max_eq_left (by omega)]
    _ = page * limit.toInt + limit.toInt := by rw [Int.add_mul, Int.one_mul]
    _ = offset.toInt + limit.toInt := by rw [hfirst, Int.max_eq_left hpage]

/-- Another page of a descriptor is the same query with another offset, if that is a word. -/
theorem ofDescriptor_put_page (hselect : readKind (d.fields.get? "type") = .ok .select)
    {query : Query} {limit : Int64} (h : ofDescriptor config d = .ok query)
    (hlimit : query.limit? = some limit) {value : Json} {page : Int64}
    (hvalue : value.Whole page.toInt) :
    ofDescriptor config (d.put "page" value)
      = (fun offset => { query with offset? := some offset }) <$> pageOffset page limit := by
  have hread := ofDescriptor_eq_ok.mp h
  have hkept (key : String) (hkey : "page" ≠ key) :
      (d.put "page" value).fields.get? key = d.fields.get? key := get?_put_page hkey value
  have horder : (d.put "page" value).order? = d.order? := by
    rw [Descriptor.order?, hkept "order" (by decide), hkept "sort" (by decide), Descriptor.order?]
  have hclause : (d.put "page" value).clause? = d.clause? :=
    Descriptor.clause?_put (by decide) (by decide) value
  have hjoins : (d.put "page" value).joinKeys = d.joinKeys :=
    Descriptor.joinKeys_put (by decide) value
  have hkind := Except.ok.inj (hread.kind.symm.trans hselect)
  -- the limit is told from what is requested, in which the page has no part
  obtain ⟨page?, hpageOf, hquery, -⟩ := hread.page
  rw [hkind, readPageOf, if_pos rfl, readPage_eq] at hpageOf
  obtain ⟨read, hpage, rfl⟩ := map_eq_ok.mp hpageOf
  obtain ⟨requested, hrequested, hpage⟩ := bind_eq_ok.mp hpage
  obtain ⟨offset, -, hpage⟩ := bind_eq_ok.mp hpage
  obtain rfl : pageLimit config requested = limit := by
    rw [hlimit, ← Except.ok.inj hpage] at hquery
    exact (Option.some.inj hquery).symm
  have hreadPage : readPageOf config .select (d.put "page" value).fields
      = (fun offset => some (pageLimit config requested, offset))
        <$> pageOffset page (pageLimit config requested) := by
    rw [readPageOf, if_pos rfl, readPage_eq, readRequested_put_page, hrequested]
    show some <$> (readOffset _ _ >>= _) = _
    rw [readOffset_put_page hvalue]
    cases pageOffset page (pageLimit config requested) <;> rfl
  rw [ofDescriptor_eq, hkept "type" (by decide), hkept "table" (by decide),
    hkept "columns" (by decide), hkept "groupBy" (by decide), hkept "include" (by decide),
    hkept "values" (by decide), horder, hclause, hjoins, hread.kind, hread.columns, hread.groupBy,
    hread.includes, hread.order, hread.conditions, hread.joins, hread.values, ← hread.table]
  simp only [bind, Except.bind, hkind, hreadPage]
  cases pageOffset page (pageLimit config requested) with
  | error e => rfl
  | ok offset => simp only [Functor.map, Except.map, Option.map_some, ← hlimit, ← hkind]

end Query

namespace Sql

/-! ## Where pages are cut -/

/-- A limit and an offset, as they end a select. -/
def pageText (limit offset : Int64) : String :=
  " LIMIT " ++ toString limit.toInt ++ " OFFSET " ++ toString offset.toInt

/-- A select of stored tables that is written as a given text, at the end of which stand its limit
and its offset. -/
structure Select.Cut (s : Select) (limit offset : Int64) (text : String) : Prop where
  tables : JoinsTables s.joins
  page : s.limit? = some limit ∧ s.offset? = some offset
  text : ∃ front, (s.page none none).pieces = .ok front
    ∧ text = textOf front ++ pageText limit offset

/-- A select that is written as a given text and has no limit of its own: what is cut is the derived
table that it joins first. What else it joins are stored tables. -/
structure Select.CutInside (s : Select) (limit offset : Int64) (text : String) : Prop where
  page : s.limit? = none ∧ s.offset? = none
  derived : ∃ join rest keys before inner after,
    s.joins = join :: rest ∧ JoinsTables rest ∧ join.derived? = some keys
      ∧ keys.Cut limit offset inner
      ∧ text = before ++ " INNER JOIN (" ++ inner ++ ") AS " ++ after

/-- A page is written behind everything else. -/
theorem Select.textOf_page {s : Select} {limit offset : Int64} {ps : List Piece}
    (hpage : s.limit? = some limit ∧ s.offset? = some offset) (h : s.pieces = .ok ps) :
    ∃ front, (s.page none none).pieces = .ok front
      ∧ textOf ps = textOf front ++ pageText limit offset := by
  obtain ⟨joined, conjuncts, hjoined, hconjuncts, rfl⟩ := Select.pieces_eq_ok.mp h
  refine ⟨(s.page none none).written joined conjuncts,
    Select.pieces_eq_ok.mpr ⟨joined, conjuncts, hjoined, hconjuncts, rfl⟩, ?_⟩
  simp only [Select.written, Select.page, tailPieces, hpage.1, hpage.2, pagePieces, pageText,
    textOf_append, textOf_cons, textOf_nil, Piece.text, String.append_assoc, String.append_empty]

theorem Select.cut_stored {schema : Schema} {s : Select} {limit offset : Int64} {ps : List Piece}
    (hjoins : JoinsTables s.joins) (hpage : s.limit? = some limit ∧ s.offset? = some offset)
    (h : (s.stored schema).pieces = .ok ps) :
    (s.stored schema).Cut limit offset (textOf ps) := by
  have hstored : (s.stored schema).limit? = some limit
      ∧ (s.stored schema).offset? = some offset := by
    rwa [Select.stored_eq]
  exact ⟨Select.joinsTables_stored hjoins, hstored, Select.textOf_page hstored h⟩

end Sql

namespace Expansion

/-- A select that loads relations is cut where its keys are. -/
theorem cutInside_loadingSelect {schema : Schema} {model : Model} {base : TableRef}
    {columns : List String} {plain : Select} {loading : Loading} {limit offset : Int64}
    {ps : List Piece} (hjoins : JoinsTables plain.joins) (hloading : JoinsTables loading.joins)
    (hpage : plain.limit? = some limit ∧ plain.offset? = some offset)
    (h : ((loadingSelect model base columns plain loading).stored schema).pieces = .ok ps) :
    ((loadingSelect model base columns plain loading).stored schema).CutInside limit offset
      (textOf ps) := by
  obtain ⟨items, derived, rest, hderived, rfl⟩ := pieces_loadingSelect h
  have hcut : ((keySelect model base plain).stored schema).Cut limit offset (textOf derived) :=
    Select.cut_stored hjoins hpage hderived
  have hkeys (tables : List TableRef) : ((pageJoin model base plain).withStorage schema
      tables).derived? = some ((keySelect model base plain).stored schema) := by
    simp only [Join.withStorage, pageJoin, storedDerived]
  constructor
  · rw [Select.stored_eq]
    exact ⟨rfl, rfl⟩
  · refine ⟨_, _, _, textOf (word "SELECT " :: (itemPieces base items ++ word " FROM "
      :: base.pieces)), _, textOf rest, (Select.stored_joins _).trans (storedJoins_loadingSelect _),
      joinsTables_storedJoins _ hloading, hkeys _, hcut, ?_⟩
    have hopen : " INNER JOIN (" = " INNER JOIN " ++ "(" := by decide +kernel
    rw [hopen]
    simp only [textOf_cons, textOf_append, Piece.text, String.append_assoc]

end Expansion

namespace Repository

open Expansion

/-- The one place in a statement where its page is cut: the end of the select if no relations are
loaded, and otherwise the end of the derived table of keys that the select joins first. -/
structure CutsPage (prepared : Prepared) (limit offset : Int64) : Prop where
  own : prepared.included = [] →
    ∃ s, (Tree.select s).statement = .ok prepared.statement
      ∧ s.Cut limit offset prepared.statement.sql
  keys : prepared.included ≠ [] →
    ∃ s, (Tree.select s).statement = .ok prepared.statement
      ∧ s.CutInside limit offset prepared.statement.sql

variable {repo : Repository} {query : Query} {prepared : Prepared}

theorem page_of_prepareQuery (h : repo.prepareQuery query = .ok prepared) :
    prepared.limit? = query.limit? ∧ prepared.offset? = query.offset? := by
  obtain ⟨expansion, -, h⟩ := bind_eq_ok.mp h
  obtain ⟨count?, -, h⟩ := bind_eq_ok.mp h
  obtain ⟨statement, -, h⟩ := bind_eq_ok.mp h
  rw [← Except.ok.inj h]
  exact ⟨rfl, rfl⟩

/-- A statement is cut at the limit and the offset of its query. -/
theorem cutsPage_of_prepareQuery (hkind : query.kind = .select) {limit offset : Int64}
    (hpage : query.limit? = some limit ∧ query.offset? = some offset)
    (h : repo.prepareQuery query = .ok prepared) : CutsPage prepared limit offset := by
  obtain ⟨expansion, hexpansion, -, hstatement, hincluded, -⟩ := prepareQuery_eq_ok h
  obtain ⟨links, loading, select, -, hloading, hselect, rfl⟩ := ofQuery_select hkind hexpansion
  obtain ⟨ps, hps, hprepared⟩ := Tree.statement_eq_ok.mp hstatement
  have hsql : prepared.statement.sql = textOf ps := congrArg Statement.sql hprepared
  have hjoins := @joinsTables_queryJoins repo.mapping.schema repo.model query links
  obtain ⟨hnone, rfl⟩ | ⟨hsome, rfl⟩ := selectWith_eq_ok hselect
  · refine ⟨fun _ => ⟨_, hstatement, ?_⟩, fun hloaded => absurd (hincluded.trans hnone) hloaded⟩
    rw [hsql]
    exact Select.cut_stored hjoins hpage hps
  · refine ⟨fun hnone => absurd (hincluded.symm.trans hnone) hsome, fun _ => ⟨_, hstatement, ?_⟩⟩
    rw [hsql]
    exact cutInside_loadingSelect hjoins (joinsTables_loadRelations hloading) hpage hps

/-- **Pages are bounded and follow one another.** For a configuration that passes its check and a
descriptor of a select:

* what is accepted has a limit from 1 to the maximum and an offset that is not negative. The limit
  is what is requested, up to the maximum, if that is positive, and the default otherwise; on a page
  that is asked for, the offset is that many times the limit (`Query.Paged`);
* a page whose offset is no word is refused, and where another page is accepted the fault is told;
* the offset of the next page is greater by the limit;
* the limit and the offset that are reported are those in the statement (`CutsPage`). -/
theorem prepare_pages {config : Config} (hvalid : config.validate = .ok ()) {d : Descriptor}
    (hselect : Query.readKind (d.fields.get? "type") = .ok .select) :
    (∀ query, Query.ofDescriptor config d = .ok query →
        ∃ limit offset, query.limit? = some limit ∧ query.offset? = some offset
          ∧ Query.Paged config d limit offset)
      ∧ (∀ page n?, Asks (d.fields.get? "page") (some page) → d.Requests n? →
          Int64.maxValue.toInt < max page 0 * config.limitFor n? →
          ∃ fault, Query.ofDescriptor config d = .error (.query fault))
      ∧ (∀ query limit value, ∀ page : Int64, Query.ofDescriptor config d = .ok query →
          query.limit? = some limit → value.Whole page.toInt →
          Int64.maxValue.toInt < max page.toInt 0 * limit.toInt →
          Query.ofDescriptor config (d.put "page" value)
            = .error (.query (.pageOutOfRange page limit)))
      ∧ (∀ value next page query queryNext, value.Whole page → next.Whole (page + 1) → 0 ≤ page →
          Query.ofDescriptor config (d.put "page" value) = .ok query →
          Query.ofDescriptor config (d.put "page" next) = .ok queryNext →
          ∃ limit offset offsetNext, query.limit? = some limit ∧ queryNext.limit? = some limit
            ∧ query.offset? = some offset ∧ queryNext.offset? = some offsetNext
            ∧ offsetNext.toInt = offset.toInt + limit.toInt)
      ∧ (∀ repo : Repository, repo.mapping.config = config →
          ∀ prepared, repo.prepare d = .ok prepared →
          ∃ limit offset, prepared.limit? = some limit ∧ prepared.offset? = some offset
            ∧ Query.Paged config d limit offset ∧ CutsPage prepared limit offset) := by
  refine ⟨fun query => Query.paged_of_ofDescriptor hvalid hselect, fun page n? =>
    Query.exists_fault_of_overflow hvalid hselect, ?_, ?_, ?_⟩
  · intro query limit value page hquery hlimit hvalue hover
    rw [Query.ofDescriptor_put_page hselect hquery hlimit hvalue, Query.pageOffset_eq_error hover]
    rfl
  · intro value next page query queryNext hvalue hnext hpage hquery hqueryNext
    exact Query.next_page hvalid hselect hvalue hnext hpage hquery hqueryNext
  · rintro repo rfl prepared hprepared
    obtain ⟨query, hquery, hprepare⟩ := bind_eq_ok.mp hprepared
    obtain ⟨limit, offset, hlimit, hoffset, hpaged⟩ :=
      Query.paged_of_ofDescriptor hvalid hselect hquery
    have hkind := Except.ok.inj ((Query.ofDescriptor_eq_ok.mp hquery).kind.symm.trans hselect)
    obtain ⟨hlimit', hoffset'⟩ := page_of_prepareQuery hprepare
    exact ⟨limit, offset, hlimit'.trans hlimit, hoffset'.trans hoffset, hpaged,
      cutsPage_of_prepareQuery hkind ⟨hlimit, hoffset⟩ hprepare⟩

/-- Users, who are loaded with their posts. -/
def members : Repository := ⟨⟨circles, .default, Config.validate_default⟩, Expansion.writers⟩

/-- The third page of twenty users. -/
def thirdPage : Descriptor :=
  .ofFields [("include", .str "posts"), ("page", .int 2), ("pageSize", .str " 20 ")]

theorem prepare_pages_thirdPage :
    Config.default.validate = .ok ()
      ∧ Query.readKind (thirdPage.fields.get? "type") = .ok .select
      ∧ (∃ prepared limit offset, members.prepare thirdPage = .ok prepared
        ∧ prepared.included ≠ [] ∧ prepared.limit? = some limit ∧ prepared.offset? = some offset
        ∧ limit.toInt = 20 ∧ offset.toInt = 40 ∧ CutsPage prepared limit offset)
      ∧ ∃ fault, Query.ofDescriptor .default (thirdPage.put "page" (.int Int64.maxValue.toInt))
        = .error (.query fault) := by
  have hselect : Query.readKind (thirdPage.fields.get? "type") = .ok .select := rfl
  have hselect' : Query.readKind
      ((thirdPage.put "page" (.int Int64.maxValue.toInt)).fields.get? "type") = .ok .select := rfl
  have hsize : (Json.str " 20 ").Whole 20 := .integerText (n := 20) (by decide +kernel)
  have hrequests : thirdPage.Requests (some 20) := .size (.number hsize)
  refine ⟨Config.validate_default, hselect, ?_, ?_⟩
  · have hrun : (members.prepare thirdPage).toOption.any (fun p => !p.included.isEmpty) = true := by
      decide +kernel
    cases hprepared : members.prepare thirdPage with
    | error e =>
      rw [hprepared] at hrun
      exact absurd hrun nofun
    | ok prepared =>
      obtain ⟨limit, offset, hlimit, hoffset, hpaged, hcuts⟩ :=
        (prepare_pages Config.validate_default hselect).2.2.2.2 members rfl prepared hprepared
      obtain ⟨n?, hn, hrequested⟩ := hpaged.requested
      rw [hn.unique hrequests] at hrequested
      have hlimit20 : limit.toInt = 20 := hrequested.trans (by decide +kernel)
      have hoffset40 := hpaged.byPage 2 (.number (.int 2))
      rw [hlimit20] at hoffset40
      refine ⟨prepared, limit, offset, rfl, ?_, hlimit, hoffset, hlimit20, hoffset40, hcuts⟩
      intro hnone
      rw [hprepared] at hrun
      have hloaded : (!prepared.included.isEmpty) = true := hrun
      rw [hnone] at hloaded
      exact absurd hloaded nofun
  · exact (prepare_pages Config.validate_default hselect').2.1 Int64.maxValue.toInt (some 20)
      (.number (.int _)) (.size (.number hsize)) (by decide +kernel)

end Repository

end RecordMapping
