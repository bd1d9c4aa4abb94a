import RecordMapping.Proofs.Assembly.RowOrder
import RecordMapping.Proofs.Hydration.Joined
import RecordMapping.Proofs.Hydration.Reading

/-!
# Whether loaded relations arrive

The database joins each record with its related ones. Whether they end up with the record depends on
two things that are settled apart from each other: which columns the select returns, and by which
attribute the record holds its related records.

* `Selection.attached_of_tie`: a related record is attached if the tie of the record is the mark;
* `loads_iff`: this is so in all rows exactly if the tie is read from its own column and with the
  identity of the column; where attributes are read from their own columns, this is to say that it
  is selected. A foreign key need not be selected, and then the relation is empty although the join
  found its records (`loads_iff_author`).
-/

namespace RecordMapping.Hydration

open Assembly Expansion Sql

namespace Selection

variable {sel : Selection}

/-! ## Keys -/

variable (sel) in
/-- The primary key of the records. -/
def ownKey : ColumnRef := sel.stored ⟨sel.start, sel.model.primaryKey⟩

variable (sel) in
/-- The primary key of related records. -/
def relatedKey (relation : Included) : ColumnRef :=
  sel.stored ⟨relation.aliasName, relation.target.primaryKey⟩

variable (sel) in
/-- The attribute by which a record holds its related records: for a relation to one its foreign
key, and otherwise its own key. -/
def tieName (relation : Included) : String :=
  if relation.relation.kind = .belongsTo then relation.relation.foreignKey
  else sel.model.primaryKey

variable (sel) in
/-- The column with which the join compares the mark of a relation. -/
def tieRef (relation : Included) : ColumnRef := sel.stored ⟨sel.start, sel.tieName relation⟩

/-- A relation to one is marked with the key of the related record. -/
theorem mark_of_belongsTo {relation : Included} (h : relation.relation.kind = .belongsTo) :
    sel.mark relation = sel.relatedKey relation := by
  unfold mark relatedKey markerRef relationJoins
  rw [h]
  rfl

/-- Relations to many are tied to the key of the record. -/
theorem tieRef_of_not_belongsTo {relation : Included} (h : relation.relation.kind ≠ .belongsTo) :
    sel.tieRef relation = sel.ownKey := by
  unfold tieRef tieName ownKey
  rw [if_neg h]

/-- One of the joins that load a relation compares the mark with the tie. -/
theorem exists_loadingJoin (relation : Included) :
    ∃ join ∈ loadingJoins sel.base sel.model relation,
      (markerRef sel.base sel.model relation, .column ⟨sel.start, sel.tieName relation⟩)
        ∈ join.on := by
  obtain ⟨aliasName, r, target⟩ := relation
  obtain ⟨kind, _, _, _, _, junction?⟩ := r
  unfold loadingJoins markerRef tieName start relationJoins keyRef
  cases kind <;> cases junction? <;> exact ⟨_, List.mem_cons_self, List.mem_cons_self⟩

theorem mark?_part (j : Joined) (relation : Included) :
    mark? (sel.part j relation) = (j (sel.mark relation)).identity? := by
  show ((some (j (sel.mark relation))).filter fun value => !value.isNull).bind Value.identity? = _
  cases j (sel.mark relation) <;> rfl

theorem tie?_own (j : Joined) (relation : Included) :
    tie? relation.relation (sel.own j)
      = ((sel.own j).get? (sel.tieName relation)).bind Value.identity? := by
  unfold tie? tieName
  split
  · rfl
  · exact identity?_eq_bind _

/-! ## Attaching -/

/-- The rows of a join: there is a record in each, and records of one identity are the same, as are
related ones. -/
structure Sound (sel : Selection) (rows : List Joined) : Prop where
  keyed : ∀ j ∈ rows, (j sel.ownKey).isNull = false
  own : ∀ j ∈ rows, ∀ j' ∈ rows, (sel.own j).identity? = (sel.own j').identity? →
    (sel.own j).attributes = (sel.own j').attributes
  related : ∀ j ∈ rows, ∀ j' ∈ rows, ∀ relation ∈ sel.included,
    (sel.related relation j).identity?.isSome →
    (sel.related relation j).identity? = (sel.related relation j').identity? →
    sel.related relation j = sel.related relation j'

/-- The join found a related record: it has a key, and its mark is the value that it is compared
with. -/
structure Present (sel : Selection) (relation : Included) (j : Joined) : Prop where
  keyed : (j (sel.relatedKey relation)).isNull = false
  marked : j (sel.mark relation) = j (sel.tieRef relation)

/-- Among the records, the one in a row holds the related one in this row. -/
def Attached (sel : Selection) (relation : Included) (records : List Record) (j : Joined) : Prop :=
  ∃ record ∈ records, record.attributes = (sel.own j).attributes
    ∧ ∃ found, record.related? relation.aliasName = some found ∧ sel.related relation j ∈ found

/-- The records are read from all rows of a join, and each holds under the alias of the relation all
related records that the join found for it. -/
def Loads (sel : Selection) (relation : Included) : Prop :=
  ∀ rows : List Joined, sel.Sound rows →
    ∃ hydrated, nestedRows sel.model sel.start sel.included (rows.map sel.result) = .ok hydrated
      ∧ ∀ j ∈ rows, sel.Present relation j →
        sel.Attached relation (assemble sel.included hydrated) j

/-- The primary keys of the records and of related records are read from their own columns. -/
structure ReadsKeys (sel : Selection) (relation : Included) : Prop where
  own : Reads sel.model sel.ownRefs sel.model.primaryKey sel.ownKey
  related : Reads relation.target (sel.relatedRefs relation) relation.target.primaryKey
    (sel.relatedKey relation)

/-- The attribute by which a record holds its related records is selected, is read from its own
column, and identifies the same as the column does. -/
structure Ties (sel : Selection) (relation : Included) : Prop where
  read : Reads sel.model sel.ownRefs (sel.tieName relation) (sel.tieRef relation)
  kept : KeepsIdentity sel.model (sel.tieRef relation).column

/-- A mark that the join found is not null. -/
theorem Present.isNull_mark {relation : Included} {j : Joined} (h : sel.Present relation j)
    (hkey : (j sel.ownKey).isNull = false) : (j (sel.mark relation)).isNull = false := by
  by_cases hkind : relation.relation.kind = .belongsTo
  · rw [mark_of_belongsTo hkind]
    exact h.keyed
  · rw [h.marked, tieRef_of_not_belongsTo hkind]
    exact hkey

/-- By its tie a record holds what is marked with the same value. -/
theorem Ties.tie?_eq {relation : Included} (h : sel.Ties relation) {j : Joined}
    (hpresent : sel.Present relation j) (hkey : (j sel.ownKey).isNull = false) :
    tie? relation.relation (sel.own j) = (j (sel.mark relation)).identity? := by
  have hmark : (j (sel.mark relation)).isNull = false := hpresent.isNull_mark hkey
  rw [hpresent.marked] at hmark ⊢
  have hget : (sel.own j).get? (sel.tieName relation)
      = some (readValue sel.model (sel.tieRef relation).column (j (sel.tieRef relation))) :=
    get?_of_reads h.read j
  rw [tie?_own, hget, Option.bind_some, h.kept _ hmark]

variable {relation : Included}

/-- What is shared with a record comes from rows of the join. -/
theorem exists_of_mem_shares (haliases : sel.aliases.Nodup) (hrelation : relation ∈ sel.included)
    {rows : List Joined} {s : Sight} (hs : s ∈ firstSights (rows.map sel.hydrated)) {r : Record}
    (hr : r ∈ s.shares relation) :
    ∃ own, ∃ j ∈ rows, r = sel.related relation j
      ∧ Belongs relation s.record own (sel.part j relation) := by
  obtain ⟨own, row, part, hrow, hpart, hbelongs, hrecord, -⟩ := Sight.mem_shares.mp hr
  obtain ⟨j, hj, rfl⟩ := List.mem_map.mp (Sight.mem_of_mem_rows hs hrow)
  obtain ⟨other, hother, rfl⟩ := List.mem_map.mp hpart
  obtain rfl : other = relation := List.inj_on_of_nodup_map haliases hother hrelation hbelongs.1
  refine ⟨own, j, hj, ?_, hbelongs⟩
  have hrecord : (if (sel.related other j).primaryKey?.isSome then some (sel.related other j)
      else none) = some r := hrecord
  split at hrecord
  · exact (Option.some.inj hrecord).symm
  · exact absurd hrecord nofun

/-- A row is attached to the record that is seen in it, if the record's tie is the mark. -/
theorem attached_of_tie (haliases : sel.aliases.Nodup) (hrelation : relation ∈ sel.included)
    (hkeys : sel.ReadsKeys relation) {rows : List Joined} (hrows : sel.Sound rows) {j : Joined}
    (hj : j ∈ rows) (hpresent : sel.Present relation j)
    (htie : tie? relation.relation (sel.own j) = (j (sel.mark relation)).identity?) :
    sel.Attached relation (assemble sel.included (rows.map sel.hydrated)) j := by
  obtain ⟨key, hkey⟩ := Option.isSome_iff_exists.mp
    (isSome_identity?_of_reads hkeys.own (hrows.keyed j hj))
  have hrow : sel.hydrated j ∈ rows.map sel.hydrated := List.mem_map_of_mem hj
  obtain ⟨s, hs, hskey⟩ := exists_firstSight hrow hkey
  obtain ⟨j₀, hj₀, hfirst⟩ := List.mem_map.mp (Sight.first_mem hs)
  have hsight : s.record = sel.own j₀ := congrArg (·.record) hfirst.symm
  have hattributes : s.record.attributes = (sel.own j).attributes := by
    rw [hsight] at hskey ⊢
    exact hrows.own j₀ hj₀ j hj (hskey.trans hkey.symm)
  -- what the row holds belongs to the record of this sight
  have hrelated : (sel.related relation j).identity?.isSome :=
    isSome_identity?_of_reads hkeys.related hpresent.keyed
  have hbelongs : Belongs relation s.record true (sel.part j relation) := by
    refine ⟨rfl, fun _ => rfl, ?_, ?_⟩
    · rw [mark?_part, isSome_identity?, hpresent.isNull_mark (hrows.keyed j hj)]
      rfl
    · rw [mark?_part, ← htie]
      exact tie?_eq (hkey.trans hskey.symm) hattributes.symm relation.relation
  have hshare : sel.related relation j ∈ s.shares relation := by
    refine Sight.mem_shares.mpr ⟨true, sel.hydrated j, sel.part j relation,
      Sight.own_of_identity? hs hrow hskey hkey, List.mem_map_of_mem hrelation, hbelongs, ?_,
      hrelated⟩
    exact if_pos (isSome_primaryKey? hrelated)
  -- the first one with its identity is the same record
  obtain ⟨id, hid⟩ := Option.isSome_iff_exists.mp hrelated
  obtain ⟨first, hfirst, hfirstId⟩ := exists_mem_firstsBy hshare hid
  obtain ⟨_, j', hj', rfl, -⟩ :=
    exists_of_mem_shares haliases hrelation hs ((firstsBy_sublist _).mem hfirst)
  have hsame : sel.related relation j = sel.related relation j' :=
    hrows.related j hj j' hj' relation hrelation hrelated (hid.trans hfirstId.symm)
  refine ⟨ofSight sel.included s, ?_, ?_, _, related?_ofSight haliases s hrelation, ?_⟩
  · rw [assemble_eq haliases]
    exact List.mem_map_of_mem hs
  · rw [(ofSight_own s).2.1, hattributes]
  · rw [hsame]
    exact hfirst

/-- If a single row is attached, the record's tie is the mark. -/
theorem tie?_of_attached (haliases : sel.aliases.Nodup) (hrelation : relation ∈ sel.included)
    {j : Joined} (h : sel.Attached relation (assemble sel.included [sel.hydrated j]) j) :
    tie? relation.relation (sel.own j) = (j (sel.mark relation)).identity? := by
  obtain ⟨record, hrecord, -, found, hfound, hmem⟩ := h
  rw [assemble_eq haliases] at hrecord
  obtain ⟨s, hs, rfl⟩ := List.mem_map.mp hrecord
  have hsight : s.record = sel.own j :=
    congrArg (·.record) (List.mem_singleton.mp (Sight.first_mem hs))
  rw [related?_ofSight haliases s hrelation, Option.some.injEq] at hfound
  rw [← hfound] at hmem
  have hs' : s ∈ firstSights ([j].map sel.hydrated) := hs
  obtain ⟨_, j', hj', -, hbelongs⟩ :=
    exists_of_mem_shares haliases hrelation hs' ((firstsBy_sublist _).mem hmem)
  rw [List.mem_singleton.mp hj', hsight] at hbelongs
  rw [← hbelongs.2.2.2, mark?_part]

/-- Hydration finds what the rows of a join hold. -/
theorem nestedRows_result (hstarts : (sel.start :: sel.aliases).Nodup) (hnames : sel.Unambiguous)
    (hkeys : sel.ReadsKeys relation) {rows : List Joined} (hrows : sel.Sound rows) :
    nestedRows sel.model sel.start sel.included (rows.map sel.result)
      = .ok (rows.map sel.hydrated) := by
  refine mapM_eq_ok.mpr ?_
  rw [List.forall₂_map_left_iff, List.forall₂_map_right_iff, List.forall₂_same]
  intro j hj
  apply nestedRow_result hstarts hnames
  exact isSome_primaryKey? (isSome_identity?_of_reads hkeys.own (hrows.keyed j hj))

theorem sound_singleton {j : Joined} (hkey : (j sel.ownKey).isNull = false) : sel.Sound [j] := by
  constructor
  · simpa using hkey
  · intro a ha b hb _
    rw [List.mem_singleton.mp ha, List.mem_singleton.mp hb]
  · intro a ha b hb _ _ _ _
    rw [List.mem_singleton.mp ha, List.mem_singleton.mp hb]

theorem stored_table (ref : ColumnRef) : (sel.stored ref).table = ref.table :=
  ColumnRef.table_stored sel.tables ref

section

variable (hstarts : (sel.start :: sel.aliases).Nodup) (hnames : sel.Unambiguous)
  (hrelation : relation ∈ sel.included) (hkeys : sel.ReadsKeys relation)

include hstarts hnames hrelation hkeys

/-- If a relation is loaded, the record's tie is the mark in every row. -/
theorem tie?_of_loads (h : sel.Loads relation) {j : Joined} (hkey : (j sel.ownKey).isNull = false)
    (hpresent : sel.Present relation j) :
    ((sel.own j).get? (sel.tieName relation)).bind Value.identity?
      = (j (sel.tieRef relation)).identity? := by
  have hsound : sel.Sound [j] := sound_singleton hkey
  obtain ⟨hydrated, hrows, hattached⟩ := h [j] hsound
  rw [nestedRows_result hstarts hnames hkeys hsound] at hrows
  rw [← Except.ok.inj hrows] at hattached
  rw [← tie?_own, ← hpresent.marked]
  exact tie?_of_attached (List.nodup_cons.mp hstarts).2 hrelation
    (hattached j (List.mem_singleton.mpr rfl) hpresent)

/-- If a relation to one is loaded, its foreign key is read from its own column. -/
theorem reads_of_loads (hkind : relation.relation.kind = .belongsTo) (h : sel.Loads relation) :
    Reads sel.model sel.ownRefs (sel.tieName relation) (sel.tieRef relation) := by
  -- a row in which the foreign key differs from all other columns of the record
  let j : Joined := fun ref =>
    if ref.table = sel.start ∧ ref ≠ sel.tieRef relation then .int 6 else .int 5
  have hrelated {ref : ColumnRef} (htable : ref.table = relation.aliasName) : j ref = .int 5 := by
    refine if_neg fun hother => (List.nodup_cons.mp hstarts).1 ?_
    rw [← hother.1, htable]
    exact List.mem_map_of_mem hrelation
  have htie : j (sel.tieRef relation) = .int 5 := if_neg fun hother => hother.2 rfl
  have hkey : (j sel.ownKey).isNull = false := by
    show (if _ then _ else _ : Value).isNull = false
    split <;> rfl
  have hpresent : sel.Present relation j := by
    constructor
    · rw [hrelated (stored_table _)]
      rfl
    · rw [mark_of_belongsTo hkind, hrelated (stored_table _), htie]
  have htied := tie?_of_loads hstarts hnames hrelation hkeys h hkey hpresent
  have hget := @get?_record_refs sel.model sel.ownRefs j (sel.tieName relation)
  unfold own at htied
  rw [hget, htie] at htied
  unfold Reads
  cases hfound : sel.ownRefs.reverse.find? fun ref =>
      readName sel.model ref.column == sel.tieName relation with
  | none =>
    rw [hfound] at htied
    exact absurd htied nofun
  | some ref =>
    by_contra hne
    have hmem : ref ∈ sel.ownRefs := List.mem_reverse.mp (List.mem_of_find?_eq_some hfound)
    obtain ⟨name, -, rfl⟩ := List.mem_map.mp hmem
    have hsix : j (sel.stored ⟨sel.start, name⟩) = .int 6 :=
      if_pos ⟨stored_table _, fun heq => hne (congrArg some heq)⟩
    rw [hfound, Option.map_some, Option.bind_some, hsix] at htied
    exact identity?_readValue_six _ htied

/-- If a relation is loaded, its tie is read with the identity of the column. -/
theorem ties_of_loads (h : sel.Loads relation) : sel.Ties relation := by
  have hread : Reads sel.model sel.ownRefs (sel.tieName relation) (sel.tieRef relation) := by
    by_cases hkind : relation.relation.kind = .belongsTo
    · exact reads_of_loads hstarts hnames hrelation hkeys hkind h
    · rw [tieRef_of_not_belongsTo hkind]
      unfold tieName
      rw [if_neg hkind]
      exact hkeys.own
  refine ⟨hread, ?_⟩
  intro v hv
  -- the row in which every column has this value
  have htied := tie?_of_loads hstarts hnames hrelation hkeys h (j := fun _ => v) hv ⟨hv, rfl⟩
  have hget : (sel.own fun _ => v).get? (sel.tieName relation)
      = some (readValue sel.model (sel.tieRef relation).column v) := get?_of_reads hread _
  rwa [hget, Option.bind_some] at htied

/-- A relation is loaded if its tie is read with the identity of the column. -/
theorem loads_of_ties (h : sel.Ties relation) : sel.Loads relation := by
  intro rows hrows
  refine ⟨_, nestedRows_result hstarts hnames hkeys hrows, ?_⟩
  intro j hj hpresent
  exact attached_of_tie (List.nodup_cons.mp hstarts).2 hrelation hkeys hrows hj hpresent
    (h.tie?_eq hpresent (hrows.keyed j hj))

end

/-! ## Selected attributes -/

/-- Every selected attribute, of the records and of related records, is read from its own column. -/
structure ReadsBack (sel : Selection) (relation : Included) : Prop where
  own : ∀ name ∈ selectedNames sel.model sel.requested,
    readName sel.model (sel.stored ⟨sel.start, name⟩).column = name
  related : ∀ name ∈ selectedNames relation.target [],
    readName relation.target (sel.stored ⟨relation.aliasName, name⟩).column = name

instance : Decidable (sel.ReadsBack relation) :=
  decidable_of_iff ((∀ name ∈ selectedNames sel.model sel.requested,
      readName sel.model (sel.stored ⟨sel.start, name⟩).column = name)
    ∧ ∀ name ∈ selectedNames relation.target [],
      readName relation.target (sel.stored ⟨relation.aliasName, name⟩).column = name)
    ⟨fun h => ⟨h.1, h.2⟩, fun h => ⟨h.own, h.related⟩⟩

theorem primaryKey_mem_selectedNames (model : Model) (requested : List String) :
    model.primaryKey ∈ selectedNames model requested := by
  have hmem (names : List String) : model.primaryKey ∈
      if names.contains model.primaryKey then names else model.primaryKey :: names := by
    split
    · rename_i h
      exact List.contains_iff_mem.mp h
    · exact List.mem_cons_self
  exact hmem _

/-- An attribute is read from its column if it is selected, and only then. -/
theorem reads_iff_mem {model : Model} {names : List String} {column : String → ColumnRef}
    (hback : ∀ name ∈ names, readName model (column name).column = name) {name : String} :
    Reads model (names.map column) name (column name) ↔ name ∈ names := by
  have hname {found : String} (hfound : found ∈ names)
      (h : (readName model (column found).column == name) = true) : found = name := by
    rw [← hback found hfound]
    exact eq_of_beq h
  unfold Reads
  rw [← List.map_reverse]
  constructor
  · intro h
    obtain ⟨found, hmem, heq⟩ := List.mem_map.mp (List.mem_of_find?_eq_some h)
    have hfound : found ∈ names := List.mem_reverse.mp hmem
    have hread := List.find?_some h
    rw [← heq] at hread
    rwa [← hname hfound hread]
  · intro h
    apply find?_eq_some_of_unique
    · exact List.mem_map_of_mem (List.mem_reverse.mpr h)
    · rw [hback name h, BEq.rfl]
    · intro ref href hread
      obtain ⟨found, hmem, rfl⟩ := List.mem_map.mp href
      rw [hname (List.mem_reverse.mp hmem) hread]

theorem ReadsBack.readsKeys (h : sel.ReadsBack relation) : sel.ReadsKeys relation where
  own := (reads_iff_mem h.own).mpr (primaryKey_mem_selectedNames _ _)
  related := (reads_iff_mem h.related).mpr (primaryKey_mem_selectedNames _ _)

theorem ReadsBack.ties_iff (h : sel.ReadsBack relation) :
    sel.Ties relation ↔ sel.tieName relation ∈ selectedNames sel.model sel.requested
      ∧ KeepsIdentity sel.model (sel.tieRef relation).column := by
  constructor
  · intro hties
    exact ⟨(reads_iff_mem h.own).mp hties.read, hties.kept⟩
  · intro hmem
    exact ⟨(reads_iff_mem h.own).mpr hmem.1, hmem.2⟩

end Selection

end RecordMapping.Hydration

namespace RecordMapping.Repository

open Expansion Hydration Sql

variable {repo : Repository} {d : Descriptor} {prepared : Prepared}

/-- **When a loaded relation arrives.** A join of the select compares the mark of a relation with
the column of the attribute by which a record holds its related records. Suppose that the names of
the columns are unambiguous, and that the primary keys of the records and of the related ones are
read from their own columns. Then the relation is loaded with the records of every join, each
related record with its own, exactly if this attribute is read from its own column, with the
identity that the column has. If each selected attribute is read from its own column, this is to say
that the attribute is selected, and is read with the identity of its column. For relations to many
it is the primary key, which is always selected. For a relation to one it is the foreign key, which
may be left out. -/
theorem loads_iff (hprepared : repo.prepare d = .ok prepared) {relation : Included}
    (hrelation : relation ∈ prepared.included) :
    ∃ query select, repo.Writes d prepared query select
      ∧ let sel := repo.selection prepared query select
        sel.start = prepared.baseAlias
        ∧ List.Forall₂ Cell.ReturnedBy sel.cells (select.stored repo.mapping.schema).items
        ∧ (∃ join ∈ (select.stored repo.mapping.schema).joins,
          (sel.mark relation, .column (sel.tieRef relation)) ∈ join.on)
        ∧ (sel.Unambiguous → sel.ReadsKeys relation →
          (sel.Loads relation ↔ sel.Ties relation))
        ∧ (sel.Unambiguous → sel.ReadsBack relation →
          (sel.Loads relation ↔ sel.tieName relation ∈ selectedNames sel.model sel.requested
            ∧ KeepsIdentity sel.model (sel.tieRef relation).column)) := by
  have hloaded : prepared.included ≠ [] := List.ne_nil_of_mem hrelation
  obtain ⟨query, select, hwrites, hstart, hstarts, hitems, hjoins⟩ :=
    writes_of_prepare hprepared hloaded
  have hties (hnames : (repo.selection prepared query select).Unambiguous)
      (hkeys : (repo.selection prepared query select).ReadsKeys relation) :
      (repo.selection prepared query select).Loads relation
        ↔ (repo.selection prepared query select).Ties relation :=
    ⟨Selection.ties_of_loads hstarts hnames hrelation hkeys,
      Selection.loads_of_ties hstarts hnames hrelation hkeys⟩
  refine ⟨query, select, hwrites, hstart, Selection.forall₂_returnedBy hitems, ?_, hties, ?_⟩
  · obtain ⟨join, hjoin, hon⟩ :=
      (repo.selection prepared query select).exists_loadingJoin relation
    refine ⟨join.withStorage repo.mapping.schema select.tables, ?_, ?_⟩
    · rw [Select.stored_joins, storedJoins_eq_map]
      exact List.mem_map_of_mem (hjoins relation hrelation hjoin)
    · exact List.mem_map_of_mem hon
  · intro hnames hback
    rw [← hback.ties_iff]
    exact hties hnames hback.readsKeys

/-- All posts, loaded with their authors. The users' keys are no attributes of posts. -/
def postsWithAuthor : Descriptor := .ofFields [("include", .str "author")]

/-- Posts with the keys of their users, loaded with their authors. -/
def keyedPostsWithAuthor : Descriptor :=
  .ofFields [("columns", .str "user_id"), ("include", .str "author")]

/-- The authors of posts are loaded if the keys of users are selected, and not otherwise. -/
theorem loads_iff_author :
    (∃ query select prepared relation, posts.prepare postsWithAuthor = .ok prepared
      ∧ relation ∈ prepared.included
      ∧ posts.Writes postsWithAuthor prepared query select
      ∧ let sel := posts.selection prepared query select
        sel.Unambiguous ∧ sel.ReadsBack relation ∧ ¬ sel.Loads relation)
    ∧ ∃ query select prepared relation, posts.prepare keyedPostsWithAuthor = .ok prepared
      ∧ relation ∈ prepared.included
      ∧ posts.Writes keyedPostsWithAuthor prepared query select
      ∧ let sel := posts.selection prepared query select
        sel.Unambiguous ∧ sel.ReadsBack relation ∧ sel.Loads relation := by
  have hkept : KeepsIdentity posts.model "user_id" := by
    have hfrom : posts.model.attributeForColumn? "user_id" = none := rfl
    have hname : posts.model.attribute? (readName posts.model "user_id") = none := rfl
    intro v _
    rw [readValue_of_plain]
    · rw [hfrom]
      nofun
    · rw [hname]
      nofun
  have hloads (d : Descriptor) (names : List String)
      (hselection : (posts.selection? d).map (fun sel => (decide sel.Unambiguous,
          selectedNames sel.model sel.requested, sel.included.map fun relation =>
            (decide (sel.ReadsBack relation), sel.tieName relation, sel.tieRef relation)))
        = some (true, names, [(true, "user_id", ⟨"posts", "user_id"⟩)])) :
      ∃ query select prepared relation, posts.prepare d = .ok prepared
        ∧ relation ∈ prepared.included
        ∧ posts.Writes d prepared query select
        ∧ let sel := posts.selection prepared query select
          sel.Unambiguous ∧ sel.ReadsBack relation
          ∧ (sel.Loads relation ↔ "user_id" ∈ names) := by
    obtain ⟨sel, hsel, hcomputed⟩ := Option.map_eq_some_iff.mp hselection
    simp only [Prod.mk.injEq, List.map_eq_singleton_iff] at hcomputed
    obtain ⟨hnames, hselected, relation, hrelations, hback, hname, href⟩ := hcomputed
    obtain ⟨prepared, hprepared, hincluded⟩ := prepared_of_selection? hsel
    have hrelation : relation ∈ prepared.included := by
      rw [hincluded, hrelations]
      exact List.mem_singleton.mpr rfl
    obtain ⟨query, select, hwrites, -, -, -, -, hiff⟩ := loads_iff hprepared hrelation
    obtain rfl := Option.some.inj (hsel.symm.trans (selection?_of_writes hprepared hwrites))
    have hnames := of_decide_eq_true hnames
    have hback := of_decide_eq_true hback
    refine ⟨query, select, prepared, relation, hprepared, hrelation, hwrites, hnames, hback, ?_⟩
    rw [hiff hnames hback, hname, hselected, href]
    exact and_iff_left hkept
  constructor
  · obtain ⟨query, select, prepared, relation, hprepared, hrelation, hwrites, hnames, hback,
      hiff⟩ := hloads postsWithAuthor ["id", "posted"] (by decide +kernel)
    exact ⟨query, select, prepared, relation, hprepared, hrelation, hwrites, hnames, hback,
      fun h => absurd (hiff.mp h) (by decide)⟩
  · obtain ⟨query, select, prepared, relation, hprepared, hrelation, hwrites, hnames, hback,
      hiff⟩ := hloads keyedPostsWithAuthor ["id", "user_id"] (by decide +kernel)
    exact ⟨query, select, prepared, relation, hprepared, hrelation, hwrites, hnames, hback,
      hiff.mpr (by decide)⟩

end RecordMapping.Repository
