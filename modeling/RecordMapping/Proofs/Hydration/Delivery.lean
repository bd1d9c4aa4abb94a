import RecordMapping.Proofs.Hydration.Naming

/-!
# Where the columns of a row arrive

A select with loaded relations gives each of its columns a name with a prefix, and hydration finds
the place of a column in its name. Here the columns are listed with the places where they belong
(`Selection.cells`), and compared with the places where hydration puts them.

* `items_loadingSelect`: these are the columns that the select returns;
* `delivers_iff`: hydration puts all of them where they belong exactly if the names are
  unambiguous. This does not hold of every schema: a column of the records' own table may have a
  name that begins like those of a relation (`delivers_iff_usersWithPosts`).
-/

namespace RecordMapping.Hydration

open Expansion Sql

/-! ## Columns of a select -/

/-- A column that a select with loaded relations returns: the place where it belongs, the prefix of
its name, and what is read. -/
structure Cell where
  home : Place
  start : String
  ref : ColumnRef

namespace Cell

/-- The name of the column in the result. -/
def name (cell : Cell) : String := cell.start ++ "_" ++ cell.home.ending

/-- The column as an item of the select. -/
def item (cell : Cell) : SelectItem :=
  match cell.home with
  | .marker _ => .column cell.ref (.exact cell.name)
  | _ => .column cell.ref (.prefixed cell.start)

/-- An item of a select returns the column under its name. -/
def ReturnedBy (cell : Cell) (item : SelectItem) : Prop :=
  ∃ output, item = .column cell.ref output ∧ output.apply cell.ref.column = cell.name

end Cell

/-- What the columns of a select with loaded relations depend on: the tables of the select, what is
requested of the records, and the relations. -/
structure Selection where
  schema : Schema
  tables : List TableRef
  model : Model
  base : TableRef
  requested : List String
  included : List Included

/-- The attributes that are selected: the given ones, or all declared ones, and the primary key. -/
def selectedNames (model : Model) (requested : List String) : List String :=
  let names := if requested.isEmpty then model.attributes.map (·.name) else requested
  if names.contains model.primaryKey then names else model.primaryKey :: names

namespace Selection

variable (sel : Selection)

/-- The storage column of a reference. -/
def stored (ref : ColumnRef) : ColumnRef := ref.stored sel.schema sel.tables

/-- The prefix of the records' own columns. -/
def start : String := sel.base.aliasName

/-- The prefixes of the columns of relations. -/
def aliases : List String := sel.included.map (·.aliasName)

/-- The column of an attribute of the records. -/
def ownCell (name : String) : Cell :=
  let ref := sel.stored ⟨sel.start, name⟩
  ⟨.base ref.column, sel.start, ref⟩

/-- The column of an attribute of related records. -/
def relatedCell (relation : Included) (i : Nat) (name : String) : Cell :=
  let ref := sel.stored ⟨relation.aliasName, name⟩
  ⟨.related i ref.column, relation.aliasName, ref⟩

/-- The column that marks which record a related one belongs to. -/
def markerCell (relation : Included) (i : Nat) : Cell :=
  ⟨.marker i, relation.aliasName, sel.stored (markerRef sel.base sel.model relation)⟩

/-- The columns of the records. -/
def ownCells : List Cell := (selectedNames sel.model sel.requested).map sel.ownCell

/-- The columns of a relation. -/
def relationCells (relation : Included) (i : Nat) : List Cell :=
  (selectedNames relation.target []).map (sel.relatedCell relation i) ++ [sel.markerCell relation i]

/-- All columns. -/
def cells : List Cell :=
  sel.ownCells ++ sel.included.zipIdx.flatMap fun entry => sel.relationCells entry.1 entry.2

/-- The names of the columns in the result. -/
def names : List String := sel.cells.map Cell.name

/-- The places where the columns belong. -/
def homes : List Place := sel.cells.map Cell.home

/-- The row in which the columns have given values. Of columns of one name only the last value is
left, as in every row. -/
def row (values : List Value) : Row := Row.ofList (sel.names.zip values)

variable {sel}

theorem mem_cells {cell : Cell} :
    cell ∈ sel.cells ↔ cell ∈ sel.ownCells
      ∨ ∃ i relation, sel.included[i]? = some relation ∧ cell ∈ sel.relationCells relation i := by
  unfold cells
  rw [List.mem_append, List.mem_flatMap]
  simp only [Prod.exists, List.mem_zipIdx_iff_getElem?]
  constructor
  · rintro (h | ⟨relation, i, hi, h⟩)
    · exact .inl h
    · exact .inr ⟨i, relation, hi, h⟩
  · rintro (h | ⟨i, relation, hi, h⟩)
    · exact .inl h
    · exact .inr ⟨relation, i, hi, h⟩

/-- Every column has the prefix of the place where it belongs. -/
theorem startOf_home {cell : Cell} (h : cell ∈ sel.cells) :
    startOf sel.start sel.aliases cell.home.relation? = some cell.start := by
  rcases mem_cells.mp h with h | ⟨i, relation, hi, h⟩
  · obtain ⟨name, -, rfl⟩ := List.mem_map.mp h
    rfl
  · have halias : sel.aliases[i]? = some relation.aliasName := by
      unfold aliases
      rw [List.getElem?_map, hi]
      rfl
    rcases List.mem_append.mp h with h | h
    · obtain ⟨name, -, rfl⟩ := List.mem_map.mp h
      exact halias
    · rw [List.mem_singleton.mp h]
      exact halias

/-! ## The columns are those of the select -/

/-- Attributes behind a prefix are selected as the columns in which they are stored. -/
theorem stored_prefixedItems (model : Model) (aliasName : String) (requested : List String) :
    (prefixedItems model aliasName requested).map (·.stored sel.schema sel.tables)
      = (selectedNames model requested).map fun name =>
        .column (sel.stored ⟨aliasName, name⟩) (.prefixed aliasName) := by
  show ((selectedNames model requested).map _).map _ = _
  rw [List.map_map]
  rfl

theorem stored_relationItems (relation : Included) (i : Nat) :
    (relationItems sel.base sel.model relation).map (·.stored sel.schema sel.tables)
      = (sel.relationCells relation i).map Cell.item := by
  unfold relationItems relationCells
  rw [List.map_append, List.map_append, stored_prefixedItems, List.map_map]
  rfl

theorem returnedBy_item {cell : Cell} (h : cell ∈ sel.cells) : cell.ReturnedBy cell.item := by
  rcases mem_cells.mp h with h | ⟨i, relation, -, h⟩
  · obtain ⟨name, -, rfl⟩ := List.mem_map.mp h
    exact ⟨_, rfl, rfl⟩
  · rcases List.mem_append.mp h with h | h
    · obtain ⟨name, -, rfl⟩ := List.mem_map.mp h
      exact ⟨_, rfl, rfl⟩
    · rw [List.mem_singleton.mp h]
      exact ⟨_, rfl, rfl⟩

theorem forall₂_returnedBy {items : List SelectItem} (h : items = sel.cells.map Cell.item) :
    List.Forall₂ Cell.ReturnedBy sel.cells items := by
  rw [h, List.forall₂_map_right_iff, List.forall₂_same]
  exact fun _ => returnedBy_item

/-- The select that loads relations returns the listed columns. -/
theorem items_loadingSelect {schema : Schema} {model : Model} {base : TableRef}
    {columns : List String} {plain : Select} {loading : Loading}
    (h : Loaded schema model base loading) :
    ((loadingSelect model base columns plain loading).stored schema).items
      = (cells ⟨schema, (loadingSelect model base columns plain loading).tables, model, base,
          columns, loading.included⟩).map Cell.item := by
  let sel : Selection := ⟨schema, (loadingSelect model base columns plain loading).tables, model,
    base, columns, loading.included⟩
  show (prefixedItems model base.aliasName columns ++ loading.items).map
      (·.stored sel.schema sel.tables) = sel.cells.map Cell.item
  have hrelations : loading.items.map (·.stored sel.schema sel.tables)
      = loading.included.zipIdx.flatMap fun entry =>
        (sel.relationCells entry.1 entry.2).map Cell.item := by
    have hfst : loading.included = loading.included.zipIdx.map Prod.fst :=
      (List.zipIdx_map_fst 0 _).symm
    rw [h.items, List.map_flatMap]
    conv_lhs => rw [hfst]
    rw [List.flatMap_map]
    congr 1
    funext entry
    exact stored_relationItems entry.1 entry.2
  unfold cells ownCells
  rw [List.map_append, stored_prefixedItems, hrelations, List.map_append, List.map_map,
    List.map_flatMap]
  rfl

/-! ## Arrival -/

variable (sel) in
/-- Where hydration puts the columns of a row. -/
def arrived (row : Row) : List (Place × Value) :=
  row.cells.map fun cell => (place (sortedStarts sel.start sel.aliases) cell.1, cell.2)

end Selection

/-- What a row holds of a relation, its columns being told apart. -/
def relatedRow (placed : List (Place × Value)) (relation : Included) (i : Nat) : RelatedRow :=
  let found := record relation.target (relatedCells placed i)
  { aliasName := relation.aliasName
    record? := if found.primaryKey?.isSome then some found else none
    marker? := markerOf? placed i }

/-- What a row holds, its columns being told apart. -/
def hydratedRow (model : Model) (included : List Included) (placed : List (Place × Value)) :
    HydratedRow :=
  ⟨record model (baseCells placed), included.zipIdx.map fun entry =>
    relatedRow placed entry.1 entry.2⟩

/-- Hydration looks at the places of columns only; it asks for the primary key of the record. -/
theorem nestedRow_of_primaryKey? {sel : Selection} {row : Row}
    (hkey : (hydratedRow sel.model sel.included (sel.arrived row)).record.primaryKey?.isSome) :
    nestedRow sel.model sel.start sel.included row
      = .ok (hydratedRow sel.model sel.included (sel.arrived row)) := by
  unfold nestedRow
  dsimp only
  refine if_neg ?_
  rw [Option.isNone_iff_eq_none, ← ne_eq, Option.ne_none_iff_isSome]
  exact hkey

namespace Selection

variable {sel : Selection}

/-- Given values for all columns are put where the columns belong, and make up the record, the
related records and the markers, unless the record has no primary key. -/
structure Delivers (sel : Selection) (values : List Value) : Prop where
  placed : sel.arrived (sel.row values) = sel.homes.zip values
  hydrated : (record sel.model (baseCells (sel.homes.zip values))).primaryKey?.isSome →
    nestedRow sel.model sel.start sel.included (sel.row values)
      = .ok (hydratedRow sel.model sel.included (sel.homes.zip values))

/-- The names of the columns are different, and no prefix that begins a name is longer than that of
the column itself. -/
structure Unambiguous (sel : Selection) : Prop where
  distinct : sel.names.Nodup
  longest : ∀ cell ∈ sel.cells, ∀ start ∈ sel.start :: sel.aliases, Begins start cell.name →
    start.utf8ByteSize ≤ cell.start.utf8ByteSize

instance : Decidable sel.Unambiguous :=
  decidable_of_iff (sel.names.Nodup ∧ ∀ cell ∈ sel.cells, ∀ start ∈ sel.start :: sel.aliases,
      Begins start cell.name → start.utf8ByteSize ≤ cell.start.utf8ByteSize)
    ⟨fun h => ⟨h.1, h.2⟩, fun h => ⟨h.distinct, h.longest⟩⟩

/-- Among different names only the marker of a relation has the marker's name. -/
theorem Unambiguous.unmarked (h : sel.Unambiguous) {cell : Cell} (hcell : cell ∈ sel.cells)
    (i : Nat) : cell.home ≠ .related i Included.markerEnding := by
  intro hhome
  have hstart : (sel.included.map (·.aliasName))[i]? = some cell.start := by
    have h := startOf_home hcell
    rwa [hhome] at h
  rw [List.getElem?_map, Option.map_eq_some_iff] at hstart
  obtain ⟨relation, hi, halias⟩ := hstart
  have hmarker : sel.markerCell relation i ∈ sel.cells :=
    mem_cells.mpr (.inr ⟨i, relation, hi, List.mem_append.mpr (.inr (List.mem_singleton.mpr rfl))⟩)
  have hname : cell.name = (sel.markerCell relation i).name := by
    unfold Cell.name
    rw [hhome, ← halias]
    rfl
  rw [List.inj_on_of_nodup_map h.distinct hcell hmarker hname] at hhome
  exact absurd hhome nofun

theorem length_names : sel.names.length = sel.cells.length := List.length_map _

theorem map_fst_zip_names {values : List Value} (hlength : values.length = sel.cells.length) :
    (sel.names.zip values).map (·.1) = sel.names := by
  apply List.map_fst_zip
  exact Nat.le_of_eq (length_names.trans hlength.symm)

/-- Under different names every value is put at the place that its name leads to. -/
theorem arrived_row (hdistinct : sel.names.Nodup) {values : List Value}
    (hlength : values.length = sel.cells.length) :
    sel.arrived (sel.row values)
      = (sel.names.map (place (sortedStarts sel.start sel.aliases))).zip values := by
  have hpairs : ((sel.names.zip values).map (·.1)).Nodup := by
    rwa [map_fst_zip_names hlength]
  unfold arrived row
  rw [Row.cells_ofList hpairs, List.zip_map_left]
  rfl

/-- The names lead back to the places where the columns belong. -/
theorem places_eq_homes_iff (hstarts : (sel.start :: sel.aliases).Nodup) :
    sel.names.map (place (sortedStarts sel.start sel.aliases)) = sel.homes
      ↔ ∀ cell ∈ sel.cells,
        (∀ start ∈ sel.start :: sel.aliases, Begins start cell.name →
          start.utf8ByteSize ≤ cell.start.utf8ByteSize)
        ∧ ∀ i, cell.home ≠ .related i Included.markerEnding := by
  unfold names homes
  rw [List.map_map, List.map_inj_left]
  constructor
  · intro h cell hcell
    exact (place_eq_iff hstarts (startOf_home hcell)).mp (h cell hcell)
  · intro h cell hcell
    exact (place_eq_iff hstarts (startOf_home hcell)).mpr (h cell hcell)

/-- All values arrive if the names are unambiguous. -/
theorem delivers_of_unambiguous (hstarts : (sel.start :: sel.aliases).Nodup)
    (h : sel.Unambiguous) {values : List Value} (hlength : values.length = sel.cells.length) :
    sel.Delivers values := by
  have hplaced : sel.arrived (sel.row values) = sel.homes.zip values := by
    rw [arrived_row h.distinct hlength, (places_eq_homes_iff hstarts).mpr]
    intro cell hcell
    exact ⟨h.longest cell hcell, h.unmarked hcell⟩
  refine ⟨hplaced, ?_⟩
  rw [← hplaced]
  exact nestedRow_of_primaryKey?

/-- If all values arrive, whatever they are, the names are unambiguous. -/
theorem unambiguous_of_delivers (hstarts : (sel.start :: sel.aliases).Nodup)
    (h : ∀ values : List Value, values.length = sel.cells.length → sel.Delivers values) :
    sel.Unambiguous := by
  let nulls : List Value := List.replicate sel.cells.length .null
  have hnulls : nulls.length = sel.cells.length := List.length_replicate
  have hplaced : sel.arrived (sel.row nulls) = sel.homes.zip nulls := (h nulls hnulls).placed
  have hhomes : sel.homes.length = nulls.length := by
    rw [hnulls]
    exact List.length_map _
  -- a name that is there twice would make the row shorter
  have hdistinct : sel.names.Nodup := by
    rw [← map_fst_zip_names hnulls]
    apply Row.nodup_of_length_ofList
    have hlength := congrArg List.length hplaced
    unfold arrived at hlength
    rw [List.length_map, List.length_zip, hhomes, Nat.min_self] at hlength
    rw [List.length_zip, length_names, hnulls, Nat.min_self, ← hnulls]
    exact hlength
  have hplaces : sel.names.map (place (sortedStarts sel.start sel.aliases)) = sel.homes := by
    rw [arrived_row hdistinct hnulls] at hplaced
    have hmap := congrArg (List.map Prod.fst) hplaced
    rwa [List.map_fst_zip, List.map_fst_zip] at hmap
    · exact Nat.le_of_eq hhomes
    · rw [List.length_map]
      exact Nat.le_of_eq (length_names.trans hnulls.symm)
  refine ⟨hdistinct, ?_⟩
  intro cell hcell
  exact ((places_eq_homes_iff hstarts).mp hplaces cell hcell).1

end Selection

end RecordMapping.Hydration

namespace RecordMapping.Repository

open Expansion Hydration Sql

variable {repo : Repository} {d : Descriptor} {prepared : Prepared}

/-- The select that is written for a descriptor. -/
structure Writes (repo : Repository) (d : Descriptor) (prepared : Prepared) (query : Query)
    (select : Select) : Prop where
  read : Query.ofDescriptor repo.mapping.config d = .ok query
  expanded : ∃ expansion,
    ofQuery repo.mapping.schema repo.mapping.config.dateStorage repo.model query = .ok expansion
      ∧ expansion.tree = .select select
  written : (Tree.select (select.stored repo.mapping.schema)).statement = .ok prepared.statement

/-- What the columns of the select depend on. -/
def selection (repo : Repository) (prepared : Prepared) (query : Query) (select : Select) :
    Selection :=
  ⟨repo.mapping.schema, select.tables, repo.model, baseTable repo.model query, query.columns,
    prepared.included⟩

/-- The selection for a descriptor, if it stands for a select. -/
def selection? (repo : Repository) (d : Descriptor) : Option Selection := do
  let query ← (Query.ofDescriptor repo.mapping.config d).toOption
  let prepared ← (repo.prepare d).toOption
  let expansion ← (ofQuery repo.mapping.schema repo.mapping.config.dateStorage repo.model
    query).toOption
  match expansion.tree with
  | .select select => some (repo.selection prepared query select)
  | _ => none

theorem selection?_of_writes {query : Query} {select : Select}
    (hprepared : repo.prepare d = .ok prepared) (h : repo.Writes d prepared query select) :
    repo.selection? d = some (repo.selection prepared query select) := by
  obtain ⟨expansion, hexpansion, htree⟩ := h.expanded
  unfold selection?
  simp only [h.read, hprepared, hexpansion, Except.toOption, Option.bind_eq_bind, Option.bind_some,
    htree]

/-- A selection belongs to a prepared query with the same relations. -/
theorem prepared_of_selection? {sel : Selection} (h : repo.selection? d = some sel) :
    ∃ prepared, repo.prepare d = .ok prepared ∧ prepared.included = sel.included := by
  unfold selection? at h
  obtain ⟨query, -, h⟩ := Option.bind_eq_some_iff.mp h
  obtain ⟨prepared, hprepared, h⟩ := Option.bind_eq_some_iff.mp h
  obtain ⟨expansion, -, h⟩ := Option.bind_eq_some_iff.mp h
  refine ⟨prepared, ?_, ?_⟩
  · cases hrun : repo.prepare d with
    | error e =>
      rw [hrun] at hprepared
      exact absurd hprepared nofun
    | ok other =>
      rw [hrun] at hprepared
      rw [Option.some.inj hprepared]
  · split at h
    · rw [← Option.some.inj h]
      rfl
    · exact absurd h nofun

/-- Only selects load relations. -/
theorem kind_of_included {query : Query} {expansion : Expansion} {storage : DateStorage}
    (h : ofQuery repo.mapping.schema storage repo.model query = .ok expansion)
    (hloaded : expansion.included ≠ []) : query.kind = .select := by
  cases hkind : query.kind with
  | select => rfl
  | insert =>
    obtain ⟨_, -, h⟩ := bind_eq_ok.mp h
    rw [hkind] at h
    rw [← Except.ok.inj h] at hloaded
    exact absurd rfl hloaded
  | update =>
    obtain ⟨_, -, -, rfl⟩ := ofQuery_update hkind h
    exact absurd rfl hloaded
  | delete =>
    obtain ⟨_, -, -, rfl⟩ := ofQuery_delete hkind h
    exact absurd rfl hloaded

/-- A select with loaded relations joins them and returns the columns of its selection, under
different prefixes. -/
theorem writes_of_prepare (hprepared : repo.prepare d = .ok prepared)
    (hloaded : prepared.included ≠ []) :
    ∃ query select, repo.Writes d prepared query select
      ∧ (repo.selection prepared query select).start = prepared.baseAlias
      ∧ ((repo.selection prepared query select).start
          :: (repo.selection prepared query select).aliases).Nodup
      ∧ (select.stored repo.mapping.schema).items
        = (repo.selection prepared query select).cells.map Cell.item
      ∧ ∀ relation ∈ prepared.included,
        loadingJoins (baseTable repo.model query) repo.model relation ⊆ select.joins := by
  obtain ⟨query, hquery, h⟩ := bind_eq_ok.mp hprepared
  obtain ⟨expansion, hexpansion, -, hstatement, hincluded, hbase⟩ := prepareQuery_eq_ok h
  rw [hincluded] at hloaded
  have hkind : query.kind = .select := kind_of_included hexpansion hloaded
  obtain ⟨keys, loading, select, -, hloading, hselect, rfl⟩ := ofQuery_select hkind hexpansion
  have hadded := loaded_of_loadRelations hloading
  have hwrites : repo.Writes d prepared query select :=
    ⟨hquery, ⟨_, hexpansion, rfl⟩, hstatement⟩
  refine ⟨query, select, hwrites, hbase.symm, ?_, ?_⟩
  · show ((baseTable repo.model query).aliasName :: prepared.included.map _).Nodup
    rw [hincluded, List.nodup_cons, List.mem_map]
    refine ⟨?_, hadded.distinct⟩
    rintro ⟨relation, hrelation, halias⟩
    exact hadded.apart relation hrelation halias
  · rcases selectWith_eq_ok hselect with ⟨hnone, -⟩ | ⟨-, rfl⟩
    · exact absurd hnone hloaded
    · unfold selection
      rw [hincluded]
      refine ⟨Selection.items_loadingSelect hadded, ?_⟩
      intro relation hrelation join hjoin
      show join ∈ _ :: loading.joins
      rw [hadded.joins]
      exact List.mem_cons_of_mem _ (List.mem_flatMap_of_mem hrelation hjoin)

/-- **When hydration undoes the naming of columns.** A select with loaded relations returns the
columns of the records and, for each relation, those of the related records and a marker. Hydration
puts the values of all columns where they belong, whatever they are, exactly if the names of the
columns are different and no prefix that begins a name is longer than that of the column itself. -/
theorem delivers_iff (hprepared : repo.prepare d = .ok prepared)
    (hloaded : prepared.included ≠ []) :
    ∃ query select, repo.Writes d prepared query select
      ∧ let sel := repo.selection prepared query select
        sel.start = prepared.baseAlias
        ∧ List.Forall₂ Cell.ReturnedBy sel.cells (select.stored repo.mapping.schema).items
        ∧ ((∀ values : List Value, values.length = sel.cells.length → sel.Delivers values)
          ↔ sel.Unambiguous) := by
  obtain ⟨query, select, hwrites, hstart, hstarts, hitems, -⟩ :=
    writes_of_prepare hprepared hloaded
  refine ⟨query, select, hwrites, hstart, Selection.forall₂_returnedBy hitems, ?_⟩
  constructor
  · exact Selection.unambiguous_of_delivers hstarts
  · intro h values hlength
    exact Selection.delivers_of_unambiguous hstarts h hlength

/-- A repository of users who know how many posts they wrote. -/
def users : Repository where
  mapping := {
    schema := {
      models := [("Post", ⟨"Post", some "posts", "id", [.plain "user_id" .number]⟩),
        ("User", ⟨"User", some "user", "id", [.plain "posts_count" .number]⟩)]
      relations := ⟨[⟨.hasMany, "user_posts", "User", "Post", "user_id", none⟩], []⟩ }
    config := .default
    valid := Config.validate_default }
  model := ⟨"User", some "user", "id", [.plain "posts_count" .number]⟩

/-- All users, loaded with their posts. -/
def usersWithPosts : Descriptor := .ofFields [("include", .str "user_posts")]

/-- The number of posts has a name that begins like those of the columns of posts, and is taken for
a column of theirs. -/
theorem delivers_iff_usersWithPosts : ∃ query select prepared,
    users.prepare usersWithPosts = .ok prepared
      ∧ prepared.included ≠ []
      ∧ users.Writes usersWithPosts prepared query select
      ∧ let sel := users.selection prepared query select
        sel.names = ["user_id", "user_posts_count", "user_posts_id", "user_posts_user_id",
          "user_posts__fk"]
        ∧ sel.homes = [.base "id", .base "posts_count", .related 0 "id", .related 0 "user_id",
          .marker 0]
        ∧ ¬ sel.Unambiguous
        ∧ ¬ ∀ values : List Value, values.length = sel.cells.length → sel.Delivers values := by
  have hselection : (users.selection? usersWithPosts).map (fun sel =>
      (sel.names, sel.homes, decide sel.Unambiguous, sel.included.length))
      = some (["user_id", "user_posts_count", "user_posts_id", "user_posts_user_id",
          "user_posts__fk"],
        [.base "id", .base "posts_count", .related 0 "id", .related 0 "user_id", .marker 0],
        false, 1) := by
    decide +kernel
  obtain ⟨sel, hsel, hcomputed⟩ := Option.map_eq_some_iff.mp hselection
  simp only [Prod.mk.injEq] at hcomputed
  obtain ⟨hnames, hhomes, hambiguous, hlength⟩ := hcomputed
  obtain ⟨prepared, hprepared, hincluded⟩ := prepared_of_selection? hsel
  have hloaded : prepared.included ≠ [] := by
    rw [hincluded]
    exact List.ne_nil_of_length_pos (by omega)
  obtain ⟨query, select, hwrites, -, -, hiff⟩ := delivers_iff hprepared hloaded
  obtain rfl := Option.some.inj (hsel.symm.trans (selection?_of_writes hprepared hwrites))
  have hambiguous := of_decide_eq_false hambiguous
  exact ⟨query, select, prepared, hprepared, hloaded, hwrites, hnames, hhomes, hambiguous,
    fun h => hambiguous (hiff.mp h)⟩

end RecordMapping.Repository
