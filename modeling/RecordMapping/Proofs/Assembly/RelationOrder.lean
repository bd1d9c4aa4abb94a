import RecordMapping.Proofs.Assembly.RowOrder
import RecordMapping.Proofs.Hydration.Delivery

/-!
# The order of relations

Loaded relations are numbered while rows are taken apart and put together again. Here they are
numbered in another order, and nothing else changes.

* `Hydration.exists_rest`: a column belongs to the same relation whichever number this has;
* `Hydration.nestedRow_reorder`: so a row holds the same parts, only in the other order;
* `Assembly.assemble_reorder`: the order of the parts has no part in what is put together.
-/

namespace RecordMapping

namespace Hydration

variable {base : String} {aliases aliases' : List String}

/-! ## Places under two numberings -/

/-- Two numbers, one in each list of aliases, of the same prefix. -/
def SameStart (base : String) (aliases aliases' : List String) (a b : Option Nat) : Prop :=
  ∃ start, startOf base aliases a = some start ∧ startOf base aliases' b = some start

theorem sameStart_none : SameStart base aliases aliases' none none := ⟨base, rfl, rfl⟩

/-- What has the same number in one list has the same number in the other one. -/
theorem SameStart.iff (hdistinct : (base :: aliases).Nodup) (hdistinct' : (base :: aliases').Nodup)
    {a b c d : Option Nat} (h : SameStart base aliases aliases' a b)
    (h' : SameStart base aliases aliases' c d) : a = c ↔ b = d := by
  rcases h with ⟨start, ha, hb⟩
  rcases h' with ⟨start', hc, hd⟩
  constructor
  · rintro rfl
    obtain rfl := Option.some.inj (ha.symm.trans hc)
    exact startOf_inj hdistinct' hb hd
  · rintro rfl
    obtain rfl := Option.some.inj (hb.symm.trans hd)
    exact startOf_inj hdistinct ha hc

/-- The records have the same number everywhere, which is none. -/
theorem SameStart.cases (hdistinct : (base :: aliases).Nodup)
    (hdistinct' : (base :: aliases').Nodup) {a b : Option Nat}
    (h : SameStart base aliases aliases' a b) :
    a = none ∧ b = none ∨ ∃ k l, a = some k ∧ b = some l := by
  have hnone := h.iff hdistinct hdistinct' sameStart_none
  cases a with
  | none => exact .inl ⟨rfl, hnone.mp rfl⟩
  | some k =>
    cases b with
    | none => exact absurd (hnone.mpr rfl) (Option.some_ne_none k)
    | some l => exact .inr ⟨k, l, rfl, rfl⟩

/-- A column without a known prefix is the record's. -/
theorem place_of_not_begins {column : String}
    (h : ∀ start ∈ base :: aliases, ¬ Begins start column) :
    place (sortedStarts base aliases) column = placeOf column none := by
  have hnone : ((sortedStarts base aliases).findSome? fun start =>
      (stripStart? start.1 column).map fun rest => (rest, start.2)) = none := by
    rw [List.findSome?_eq_none_iff]
    intro entry hentry
    have hstart := h entry.1 (mem_of_startOf (mem_sortedStarts.mp hentry))
    cases hrest : stripStart? entry.1 column with
    | none => rfl
    | some rest => exact absurd ⟨rest, stripStart?_eq_some.mp hrest⟩ hstart
  unfold place
  dsimp only
  rw [hnone]
  rfl

/-- A column belongs to the same prefix in whatever order the aliases are: of the prefixes that
begin its name one is the longest. -/
theorem exists_rest (hperm : aliases.Perm aliases') (column : String) :
    ∃ rest a b, SameStart base aliases aliases' a b
      ∧ place (sortedStarts base aliases) column = placeOf rest a
      ∧ place (sortedStarts base aliases') column = placeOf rest b := by
  have hmem (start : String) : start ∈ base :: aliases' ↔ start ∈ base :: aliases :=
    (hperm.cons base).mem_iff.symm
  by_cases hbegins : ∃ start ∈ base :: aliases, Begins start column
  · rcases exists_place hbegins with ⟨start, a, rest, ha, hcolumn, hplace, hlongest⟩
    have hbegins' : ∃ start ∈ base :: aliases', Begins start column := by simpa only [hmem]
    rcases exists_place hbegins' with ⟨start', b, rest', hb, hcolumn', hplace', hlongest'⟩
    have hle := hlongest start' ((hmem start').mp (mem_of_startOf hb)) ⟨rest', hcolumn'⟩
    have hge := hlongest' start ((hmem start).mpr (mem_of_startOf ha)) ⟨rest, hcolumn⟩
    rcases start_unique (hcolumn.symm.trans hcolumn') (Nat.le_antisymm hge hle) with ⟨rfl, rfl⟩
    exact ⟨rest, a, b, ⟨start, ha, hb⟩, hplace, hplace'⟩
  · have hnone : ∀ start ∈ base :: aliases, ¬ Begins start column :=
      fun start hstart h => hbegins ⟨start, hstart, h⟩
    exact ⟨column, none, none, sameStart_none, place_of_not_begins hnone,
      place_of_not_begins fun start hstart => hnone start ((hmem start).mp hstart)⟩

/-! ## Parts of a row under two numberings -/

/-- The cells of a row with the places to which they belong. -/
def placedCells (base : String) (aliases : List String) (row : Row) : List (Place × Value) :=
  row.cells.map fun cell => (place (sortedStarts base aliases) cell.1, cell.2)

/-- What is read off the cells of a row does not depend on the numbers, if it does not for the
places of one prefix. -/
theorem filterMap_placedCells {γ : Type} {f g : Place × Value → Option γ}
    (hperm : aliases.Perm aliases') (row : Row)
    (h : ∀ rest a b value, SameStart base aliases aliases' a b →
      f (placeOf rest a, value) = g (placeOf rest b, value)) :
    (placedCells base aliases row).filterMap f = (placedCells base aliases' row).filterMap g := by
  unfold placedCells
  rw [List.filterMap_map, List.filterMap_map]
  refine List.filterMap_congr fun cell _ => ?_
  rcases @exists_rest base _ _ hperm cell.1 with ⟨rest, a, b, hsame, hplace, hplace'⟩
  rw [Function.comp_apply, Function.comp_apply, hplace, hplace']
  exact h rest a b cell.2 hsame

section

variable (hperm : aliases.Perm aliases') (hdistinct : (base :: aliases).Nodup) (row : Row)

include hperm hdistinct

/-- The record's own columns are the same. -/
theorem baseCells_perm :
    baseCells (placedCells base aliases row) = baseCells (placedCells base aliases' row) := by
  have hdistinct' : (base :: aliases').Nodup := (hperm.cons base).nodup_iff.mp hdistinct
  refine filterMap_placedCells hperm row fun rest a b value hsame => ?_
  rcases hsame.cases hdistinct hdistinct' with ⟨rfl, rfl⟩ | ⟨k, l, rfl, rfl⟩
  · rfl
  · by_cases hending : rest == Included.markerEnding <;> simp [placeOf, hending]

variable {i j : Nat} (hnumbers : SameStart base aliases aliases' (some i) (some j))

include hnumbers

/-- So are the columns of a relation, under the one number and under the other. -/
theorem relatedCells_perm :
    relatedCells (placedCells base aliases row) i
      = relatedCells (placedCells base aliases' row) j := by
  have hdistinct' : (base :: aliases').Nodup := (hperm.cons base).nodup_iff.mp hdistinct
  refine filterMap_placedCells hperm row fun rest a b value hsame => ?_
  rcases hsame.cases hdistinct hdistinct' with ⟨rfl, rfl⟩ | ⟨k, l, rfl, rfl⟩
  · rfl
  · have hnumber : i = k ↔ j = l := by simpa using hnumbers.iff hdistinct hdistinct' hsame
    by_cases hending : rest == Included.markerEnding <;> simp [placeOf, hending, hnumber]

/-- So is its marker. -/
theorem markerOf?_perm :
    markerOf? (placedCells base aliases row) i = markerOf? (placedCells base aliases' row) j := by
  have hdistinct' : (base :: aliases').Nodup := (hperm.cons base).nodup_iff.mp hdistinct
  unfold markerOf?
  dsimp only
  congr 2
  refine filterMap_placedCells hperm row fun rest a b value hsame => ?_
  rcases hsame.cases hdistinct hdistinct' with ⟨rfl, rfl⟩ | ⟨k, l, rfl, rfl⟩
  · simp [placeOf]
  · have hnumber : k = i ↔ l = j := by simpa using hsame.iff hdistinct hdistinct' hnumbers
    by_cases hending : rest == Included.markerEnding <;> simp [placeOf, hending, hnumber]

/-- And so is all that the row holds of it. -/
theorem relatedRow_perm (relation : Included) :
    relatedRow (placedCells base aliases row) relation i
      = relatedRow (placedCells base aliases' row) relation j := by
  unfold relatedRow
  rw [relatedCells_perm hperm hdistinct row hnumbers, markerOf?_perm hperm hdistinct row hnumbers]

end

end Hydration

/-- The row with its parts in the order of the given relations. -/
def HydratedRow.reorder (included : List Included) (row : HydratedRow) : HydratedRow where
  record := row.record
  related := included.filterMap fun relation =>
    row.related.find? (·.aliasName == relation.aliasName)

theorem HydratedRow.record_reorder (included : List Included) (row : HydratedRow) :
    (row.reorder included).record = row.record :=
  rfl

namespace Hydration

variable {model : Model} {base : String} {included included' : List Included}

theorem nestedRow_eq (row : Row) :
    nestedRow model base included row
      = if (hydratedRow model included (placedCells base (included.map (·.aliasName))
          row)).record.primaryKey?.isNone
        then .error (.hydration (.missingKeyColumn model.name
          (base ++ "_" ++ model.primaryKeyColumn)))
        else .ok (hydratedRow model included (placedCells base (included.map (·.aliasName)) row)) :=
  rfl

/-- The part of a relation is the only one under its alias. -/
theorem find?_relatedRow (haliases : (included.map (·.aliasName)).Nodup)
    (placed : List (Place × Value)) {i : Nat} {relation : Included}
    (hrelation : included[i]? = some relation) :
    (hydratedRow model included placed).related.find? (·.aliasName == relation.aliasName)
      = some (relatedRow placed relation i) := by
  refine find?_eq_some_of_unique ?_ BEq.rfl fun part hpart hname => ?_
  · exact List.mem_map.mpr ⟨(relation, i), List.mem_zipIdx_iff_getElem?.mpr hrelation, rfl⟩
  · rcases List.mem_map.mp hpart with ⟨⟨other, j⟩, hother, rfl⟩
    rw [List.mem_zipIdx_iff_getElem?] at hother
    have hnumber : i = j := by
      refine (List.getElem?_inj ?_ haliases).mp ?_
      · rw [List.length_map]
        exact (List.getElem?_eq_some_iff.mp hrelation).1
      · rw [List.getElem?_map, List.getElem?_map, hrelation, hother, Option.map_some,
          Option.map_some, ← eq_of_beq hname]
        rfl
    subst hnumber
    rw [Option.some.inj (hother.symm.trans hrelation)]

/-- A row holds the same in another order of the relations. -/
theorem hydratedRow_reorder (hperm : included.Perm included')
    (hdistinct : (base :: included.map (·.aliasName)).Nodup) (row : Row) :
    (hydratedRow model included
        (placedCells base (included.map (·.aliasName)) row)).reorder included'
      = hydratedRow model included' (placedCells base (included'.map (·.aliasName)) row) := by
  have haliases : (included.map (·.aliasName)).Perm (included'.map (·.aliasName)) := hperm.map _
  unfold HydratedRow.reorder
  have hparts : included'.filterMap (fun relation =>
      (hydratedRow model included (placedCells base (included.map (·.aliasName)) row)).related.find?
        (·.aliasName == relation.aliasName))
      = included'.zipIdx.map fun entry =>
        relatedRow (placedCells base (included'.map (·.aliasName)) row) entry.1 entry.2 := by
    refine Eq.trans ?_ (congrFun List.filterMap_eq_map included'.zipIdx)
    nth_rewrite 1 [← List.zipIdx_map_fst 0 included']
    rw [List.filterMap_map]
    refine List.filterMap_congr fun entry hentry => ?_
    have hnew : included'[entry.2]? = some entry.1 := List.mem_zipIdx_iff_getElem?.mp hentry
    rcases List.mem_iff_getElem?.mp (hperm.mem_iff.mpr (List.mem_of_getElem? hnew)) with ⟨i, hi⟩
    have hnumbers : SameStart base (included.map (·.aliasName)) (included'.map (·.aliasName))
        (some i) (some entry.2) := by
      refine ⟨entry.1.aliasName, ?_, ?_⟩
      · rw [startOf, List.getElem?_map, hi, Option.map_some]
      · rw [startOf, List.getElem?_map, hnew, Option.map_some]
    rw [Function.comp_apply, Function.comp_apply,
      find?_relatedRow (List.nodup_cons.mp hdistinct).2 _ hi,
      relatedRow_perm haliases hdistinct row hnumbers]
  rw [hparts]
  unfold hydratedRow
  rw [baseCells_perm haliases hdistinct row]

/-- So rows are taken apart in one order as they are in another one. -/
theorem nestedRows_reorder (hperm : included.Perm included')
    (hdistinct : (base :: included.map (·.aliasName)).Nodup) (rows : List Row) :
    nestedRows model base included' rows
      = List.map (·.reorder included') <$> nestedRows model base included rows := by
  refine mapM_eq_map (fun row => ?_) rows
  rw [nestedRow_eq, nestedRow_eq, ← hydratedRow_reorder hperm hdistinct, HydratedRow.record_reorder]
  split <;> rfl

end Hydration

namespace Assembly

variable {included included' : List Included} {rows : List HydratedRow}

/-! ## Rows with their parts in another order -/

/-- A row has one part for each relation, in their order. -/
def HasParts (included : List Included) (row : HydratedRow) : Prop :=
  row.related.map (·.aliasName) = included.map (·.aliasName)

/-- In the order that they have, parts stay as they are. -/
theorem reorder_self (haliases : (included.map (·.aliasName)).Nodup) {row : HydratedRow}
    (hparts : HasParts included row) : row.reorder included = row := by
  have hfind : ∀ part ∈ row.related,
      row.related.find? (·.aliasName == part.aliasName) = some part := by
    intro part hpart
    refine find?_eq_some_of_unique hpart BEq.rfl fun other hother hname => ?_
    exact List.inj_on_of_nodup_map (hparts ▸ haliases) hother hpart (eq_of_beq hname)
  have hrelated : included.filterMap (fun relation =>
      row.related.find? (·.aliasName == relation.aliasName)) = row.related := calc
    _ = (included.map (·.aliasName)).filterMap fun name =>
        row.related.find? (·.aliasName == name) := (List.filterMap_map ..).symm
    _ = row.related.filterMap fun part =>
        row.related.find? (·.aliasName == part.aliasName) := by
      rw [← hparts, List.filterMap_map]
      rfl
    _ = row.related.filterMap some := List.filterMap_congr hfind
    _ = row.related := List.filterMap_some
  unfold HydratedRow.reorder
  rw [hrelated]

/-- In another order they are the same parts. -/
theorem perm_reorder (hperm : included.Perm included')
    (haliases : (included.map (·.aliasName)).Nodup) {row : HydratedRow}
    (hparts : HasParts included row) : (row.reorder included').related.Perm row.related := by
  have hsame := congrArg HydratedRow.related (reorder_self haliases hparts)
  exact (hperm.symm.filterMap _).trans (.of_eq hsame)

/-- Of parts under different aliases at most one belongs to a record by a given relation. -/
theorem length_filterMap_share?_le {parts : List RelatedRow}
    (hparts : (parts.map (·.aliasName)).Nodup) (relation : Included) (record : Record)
    (own : Bool) : (parts.filterMap (share? relation record own)).length ≤ 1 := by
  have hpairs : (parts.filterMap (share? relation record own)).Pairwise fun _ _ => False := by
    refine (List.pairwise_map.mp hparts).filterMap _ fun part other hne r hr r' hr' => hne ?_
    exact (share?_eq_some.mp hr).1.1.trans (share?_eq_some.mp hr').1.1.symm
  cases hshares : parts.filterMap (share? relation record own) with
  | nil => exact Nat.zero_le 1
  | cons r rest =>
    rw [hshares, List.pairwise_cons] at hpairs
    cases rest with
    | nil => exact Nat.le_refl 1
    | cons r' rest => exact (hpairs.1 r' List.mem_cons_self).elim

/-- So the order of the parts has no part in what belongs to a record. -/
theorem filterMap_share?_reorder (hperm : included.Perm included')
    (haliases : (included.map (·.aliasName)).Nodup) {row : HydratedRow}
    (hparts : HasParts included row) (relation : Included) (record : Record) (own : Bool) :
    (row.reorder included').related.filterMap (share? relation record own)
      = row.related.filterMap (share? relation record own) := by
  have hshares := (perm_reorder hperm haliases hparts).filterMap (share? relation record own)
  have hlength := length_filterMap_share?_le (hparts ▸ haliases) relation record own
  cases hfound : row.related.filterMap (share? relation record own) with
  | nil => exact List.perm_nil.mp (hfound ▸ hshares)
  | cons r rest =>
    rw [hfound, List.length_cons] at hlength
    obtain rfl : rest = [] := List.length_eq_zero_iff.mp (by omega)
    exact List.perm_singleton.mp (hfound ▸ hshares)

/-! ## Sights of such rows -/

/-- A sight of which every row is changed. -/
def Sight.map (f : HydratedRow → HydratedRow) (s : Sight) : Sight := ⟨f s.first, s.after.map f⟩

theorem sights_map (f : HydratedRow → HydratedRow) (rows : List HydratedRow) :
    sights (rows.map f) = (sights rows).map (Sight.map f) := by
  induction rows with
  | nil => rfl
  | cons row rows ih =>
    rw [List.map_cons, sights, ih]
    rfl

/-- Records are seen first where they were. -/
theorem firstSights_reorder (included : List Included) (rows : List HydratedRow) :
    firstSights (rows.map (·.reorder included))
      = (firstSights rows).map (Sight.map (·.reorder included)) := by
  unfold firstSights
  rw [sights_map]
  exact firstsBy_map _ _

theorem rows_reorder (included : List Included) (s : Sight) :
    (s.map (·.reorder included)).rows
      = s.rows.map fun pair => (pair.1, pair.2.reorder included) := by
  unfold Sight.rows Sight.map
  rw [List.map_map, List.map_cons, List.map_map]
  rfl

/-- A record has the same shares. -/
theorem shares_reorder (hperm : included.Perm included')
    (haliases : (included.map (·.aliasName)).Nodup)
    (hparts : ∀ row ∈ rows, HasParts included row) {s : Sight} (hs : s ∈ firstSights rows)
    (relation : Included) : (s.map (·.reorder included')).shares relation = s.shares relation := by
  unfold Sight.shares
  rw [rows_reorder, List.flatMap_map]
  refine List.flatMap_congr fun pair hpair => ?_
  exact filterMap_share?_reorder hperm haliases
    (hparts _ (Sight.mem_of_mem_rows hs hpair)) relation s.record pair.1

/-! ## Records put together -/

/-- Under different aliases it makes no difference what is attached first. -/
theorem attach_comm (record : Record) {name other : String} (h : name ≠ other)
    (group group' : List Record) :
    (record.attach name group).attach other group'
      = (record.attach other group').attach name group :=
  congrArg (fun relations => { record with relations })
    (Fields.insert_comm h.symm group' group record.relations)

/-- A finished record is the same. -/
theorem ofSight_reorder (hperm : included.Perm included')
    (haliases : (included.map (·.aliasName)).Nodup)
    (hparts : ∀ row ∈ rows, HasParts included row) {s : Sight} (hs : s ∈ firstSights rows) :
    ofSight included' (s.map (·.reorder included')) = ofSight included s := by
  have hrecord : (s.map (·.reorder included')).record = s.record := rfl
  rw [ofSight_eq_foldl, ofSight_eq_foldl, List.foldl_map, List.foldl_map, hrecord]
  simp only [shares_reorder hperm haliases hparts hs]
  refine hperm.symm.foldl_eq' (fun relation hrelation other hother record => ?_) s.record
  by_cases hname : relation.aliasName = other.aliasName
  · rw [List.inj_on_of_nodup_map haliases (hperm.mem_iff.mpr hrelation) (hperm.mem_iff.mpr hother)
      hname]
  · exact attach_comm record hname _ _

/-- What is put together does not depend on the order of the relations. -/
theorem assemble_reorder (hperm : included.Perm included')
    (haliases : (included.map (·.aliasName)).Nodup)
    (hparts : ∀ row ∈ rows, HasParts included row) :
    assemble included' (rows.map (·.reorder included')) = assemble included rows := by
  have haliases' : (included'.map (·.aliasName)).Nodup := (hperm.map _).nodup_iff.mp haliases
  rw [assemble_eq haliases', assemble_eq haliases, firstSights_reorder, List.map_map]
  exact List.map_congr_left fun s hs => ofSight_reorder hperm haliases hparts hs

/-- Hydration gives a row one part for each relation. -/
theorem hasParts_of_nestedRow {model : Model} {base : String} {row : Row} {hydrated : HydratedRow}
    (h : Hydration.nestedRow model base included row = .ok hydrated) :
    HasParts included hydrated := by
  rw [Hydration.nestedRow_eq] at h
  split at h
  · exact absurd h nofun
  · have hnames : included.map (·.aliasName)
        = included.zipIdx.map fun entry => entry.1.aliasName := by
      conv_lhs => rw [← List.zipIdx_map_fst 0 included, List.map_map]
      rfl
    rw [← Except.ok.inj h, HasParts, hnames]
    exact List.map_map

theorem hasParts_of_nestedRows {model : Model} {base : String} {rows : List Row}
    {hydrated : List HydratedRow}
    (h : Hydration.nestedRows model base included rows = .ok hydrated) :
    ∀ row ∈ hydrated, HasParts included row := by
  have hrows := mapM_eq_ok.mp h
  clear h
  induction hrows with
  | nil => exact List.forall_mem_nil _
  | cons hrow _ ih => exact List.forall_mem_cons.mpr ⟨hasParts_of_nestedRow hrow, ih⟩

/-- **The order in which relations are loaded makes no difference.** Take loaded relations in two
orders, whose aliases are different from each other and from that of the records. Whatever the rows
of the result are, they are taken apart and put together in one order exactly if they are in the
other one, and then to the same records in the same order, each with the same related records in
the same order. If a row cannot be taken apart, both orders fail alike. -/
theorem assemble_nestedRows_perm (hperm : included.Perm included') {base : String}
    (hdistinct : (base :: included.map (·.aliasName)).Nodup) (model : Model) (rows : List Row) :
    assemble included' <$> Hydration.nestedRows model base included' rows
      = assemble included <$> Hydration.nestedRows model base included rows := by
  rw [Hydration.nestedRows_reorder hperm hdistinct]
  cases hrows : Hydration.nestedRows model base included rows with
  | error e => rfl
  | ok hydrated =>
    exact congrArg Except.ok (assemble_reorder hperm (List.nodup_cons.mp hdistinct).2
      (hasParts_of_nestedRows hrows))

/-- The tags of users, under an alias that begins as that of their posts does. -/
def ownedTags : Included :=
  ⟨"posts_tags", ⟨.hasMany, "posts_tags", "User", "Tag", "user_id", none⟩, .empty "Tag"⟩

/-- A row of a user, with a post and a tag. -/
def taggedRow (user post tag : Value) : Row :=
  .ofList [("users_id", user), ("posts_id", post), ("posts__fk", user), ("posts_tags_id", tag),
    ("posts_tags__fk", user)]

/-- A user with two posts and two tags, another one with neither. -/
def taggedRows : List Row :=
  [taggedRow (.int 1) (.int 10) (.int 5), taggedRow (.int 2) .null .null,
    taggedRow (.int 1) (.int 11) (.int 5), taggedRow (.int 1) (.int 10) (.int 6)]

/-- The identities of records, and of those related to them. -/
def identities? (result : Result (List Record)) :
    Option (List (Option String × List (Option String) × List (Option String))) :=
  result.toOption.map fun records => records.map fun record =>
    (record.identity?, ((record.related? "posts").getD []).map Record.identity?,
      ((record.related? "posts_tags").getD []).map Record.identity?)

/-- In both orders the same posts and tags are found. -/
theorem assemble_nestedRows_perm_taggedRows :
    [writtenPosts, ownedTags].Perm [ownedTags, writtenPosts]
      ∧ ("users" :: [writtenPosts, ownedTags].map (·.aliasName)).Nodup
      ∧ identities? (assemble [writtenPosts, ownedTags] <$>
          Hydration.nestedRows (.empty "User") "users" [writtenPosts, ownedTags] taggedRows)
        = some [(some "1", [some "10", some "11"], [some "5", some "6"]), (some "2", [], [])]
      ∧ identities? (assemble [ownedTags, writtenPosts] <$>
          Hydration.nestedRows (.empty "User") "users" [ownedTags, writtenPosts] taggedRows)
        = some [(some "1", [some "10", some "11"], [some "5", some "6"]), (some "2", [], [])] := by
  have hperm : [writtenPosts, ownedTags].Perm [ownedTags, writtenPosts] := .swap _ _ _
  have hdistinct : ("users" :: [writtenPosts, ownedTags].map (·.aliasName)).Nodup := by decide
  have hfound : identities? (assemble [writtenPosts, ownedTags] <$>
      Hydration.nestedRows (.empty "User") "users" [writtenPosts, ownedTags] taggedRows)
      = some [(some "1", [some "10", some "11"], [some "5", some "6"]), (some "2", [], [])] := by
    -- sorting does not reduce in the kernel
    have hstarts : Hydration.sortedStarts "users" ([writtenPosts, ownedTags].map (·.aliasName))
        = [("posts_tags", some 1), ("users", none), ("posts", some 0)] := by
      have hposts : "posts".utf8ByteSize ≤ "users".utf8ByteSize := by decide +kernel
      have htags : ¬ "posts_tags".utf8ByteSize ≤ "users".utf8ByteSize := by decide +kernel
      simp [Hydration.sortedStarts, writtenPosts, ownedTags, List.mergeSort,
        List.MergeSort.Internal.splitInTwo, List.zipIdx, hposts, htags]
    unfold Hydration.nestedRows
    simp only [taggedRows, List.mapM_cons, List.mapM_nil, Hydration.nestedRow_eq,
      Hydration.placedCells, hstarts]
    decide +kernel
  refine ⟨hperm, hdistinct, hfound, ?_⟩
  rw [assemble_nestedRows_perm hperm hdistinct, hfound]

end Assembly

end RecordMapping
