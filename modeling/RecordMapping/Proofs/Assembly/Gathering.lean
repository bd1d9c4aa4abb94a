import Mathlib.Data.List.Forall2
import Mathlib.Data.List.Induction
import Mathlib.Data.List.Nodup
import RecordMapping.Assembly
import RecordMapping.Proofs.Firsts

/-!
# What assembling gathers

Assembling goes through the rows once and fills a list of records as it goes. Here its result is
described without the list: a record is made at each first sight of it (`firstSights`), and under
the alias of a relation it holds, of all parts of rows that belong to it from there on, the first
one for each related record (`Sight.shares`, `firstsBy`).

* `addRelated_eq_mapIdx`: a part of a row changes the records that it belongs to, each by itself;
* `foldl_addRow`: hence the list of records after any number of rows;
* `assemble_gathers`: nothing is lost, doubled or put under the wrong record.
-/

namespace RecordMapping.Assembly

/-! ## Sights of records -/

/-- A row in which a record is seen, with the rows after it. -/
structure Sight where
  first : HydratedRow
  after : List HydratedRow

namespace Sight

/-- The record that is seen. -/
def record (s : Sight) : Record := s.first.record

/-- Whether a later row is one of the same record. A record without identity is never seen again. -/
def sees (s : Sight) (row : HydratedRow) : Bool :=
  s.record.identity?.isSome && row.record.identity? == s.record.identity?

/-- The rows from a sight on, each with whether it is one of the record's own. -/
def rows (s : Sight) : List (Bool × HydratedRow) :=
  (true, s.first) :: s.after.map fun row => (s.sees row, row)

/-- A sight with one more row after it. -/
def extend (row : HydratedRow) (s : Sight) : Sight := ⟨s.first, s.after ++ [row]⟩

theorem rows_extend (row : HydratedRow) (s : Sight) :
    (s.extend row).rows = s.rows ++ [(s.sees row, row)] := by
  show _ :: (s.after ++ [row]).map _ = _
  rw [List.map_append]
  rfl

end Sight

/-- Every row is a sight of its record. -/
def sights : List HydratedRow → List Sight
  | [] => []
  | row :: after => ⟨row, after⟩ :: sights after

theorem sights_append_singleton (rows : List HydratedRow) (row : HydratedRow) :
    sights (rows ++ [row]) = (sights rows).map (Sight.extend row) ++ [⟨row, []⟩] := by
  induction rows with
  | nil => rfl
  | cons first rows ih =>
    rw [List.cons_append, sights, ih]
    rfl

/-- The first sight of every record. One without identity is new every time. -/
def firstSights (rows : List HydratedRow) : List Sight :=
  firstsBy (·.record.identity?) (sights rows)

/-- The rows before a sight are those of the sights before it. -/
theorem sights_eq_append {rows before : List HydratedRow} {s : Sight} :
    (∃ seen later, sights rows = seen ++ s :: later ∧ seen.map (·.first) = before)
      ↔ rows = before ++ s.first :: s.after := by
  induction rows generalizing before with
  | nil => simp [sights]
  | cons row rows ih =>
    constructor
    · rintro ⟨seen, later, hsights, rfl⟩
      cases seen with
      | nil =>
        obtain ⟨rfl, -⟩ := List.cons.inj hsights
        rfl
      | cons other seen =>
        obtain ⟨rfl, hrest⟩ := List.cons.inj hsights
        rw [List.map_cons, List.cons_append, ← ih.mp ⟨seen, later, hrest, rfl⟩]
    · intro hrows
      cases before with
      | nil =>
        obtain ⟨rfl, rfl⟩ := List.cons.inj hrows
        exact ⟨[], sights s.after, rfl, rfl⟩
      | cons other before =>
        obtain ⟨rfl, hrest⟩ := List.cons.inj hrows
        obtain ⟨seen, later, hsights, hbefore⟩ := ih.mpr hrest
        refine ⟨⟨row, rows⟩ :: seen, later, ?_, ?_⟩
        · rw [sights, hsights, List.cons_append]
        · rw [List.map_cons, hbefore]

/-- A sight is a first one if its record has no identity, or no row before has this identity. -/
theorem mem_firstSights {rows : List HydratedRow} {s : Sight} :
    s ∈ firstSights rows ↔ ∃ before, rows = before ++ s.first :: s.after
      ∧ ∀ row ∈ before, s.record.identity? = none
        ∨ s.record.identity? ≠ row.record.identity? := by
  unfold firstSights
  rw [mem_firstsBy]
  constructor
  · rintro ⟨seen, later, hsights, hseen⟩
    refine ⟨_, sights_eq_append.mp ⟨seen, later, hsights, rfl⟩, ?_⟩
    intro row hrow
    obtain ⟨other, hother, rfl⟩ := List.mem_map.mp hrow
    exact hseen other hother
  · rintro ⟨before, hrows, hbefore⟩
    obtain ⟨seen, later, hsights, rfl⟩ := sights_eq_append.mpr hrows
    exact ⟨seen, later, hsights, fun other hother => hbefore _ (List.mem_map_of_mem hother)⟩

/-- A record is first seen in the last row if no sight before is one of it. -/
theorem firstSights_append_singleton (rows : List HydratedRow) (row : HydratedRow) :
    firstSights (rows ++ [row])
      = (firstSights rows).map (Sight.extend row)
        ++ if ∀ s ∈ firstSights rows, s.sees row = false then [⟨row, []⟩] else [] := by
  have hmap : firstsBy (·.record.identity?) ((sights rows).map (Sight.extend row))
      = (firstSights rows).map (Sight.extend row) := firstsBy_map _ _
  have happart (s : Sight) : Apart (·.record.identity?) (s.extend row) ⟨row, []⟩
      ↔ s.sees row = false := by
    unfold Apart Sight.sees
    show row.record.identity? = none ∨ row.record.identity? ≠ s.record.identity? ↔ _
    cases s.record.identity? <;> cases row.record.identity? <;> simp
  unfold firstSights at hmap ⊢
  rw [sights_append_singleton, firstsBy_append_singleton, hmap]
  simp only [List.forall_mem_map, happart]
  split <;> simp

/-! ## Parts of rows -/

/-- The key by which a record holds its related records: for a relation to one its foreign key, and
otherwise its own identity. -/
def tie? (relation : Relation) (record : Record) : Option String :=
  if relation.kind = .belongsTo then
    (record.get? relation.foreignKey).bind Value.identity?
  else record.identity?

/-- The key depends only on the values and the identity of the record. -/
theorem tie?_eq {a b : Record} (hidentity : a.identity? = b.identity?)
    (hattributes : a.attributes = b.attributes) (relation : Relation) :
    tie? relation a = tie? relation b := by
  unfold tie? Record.get?
  rw [hattributes, hidentity]

/-- The key that a part of a row is marked with. -/
def mark? (part : RelatedRow) : Option String := part.marker?.bind Value.identity?

/-- A part of a row belongs to a record, under the alias of a relation, if it is marked with the key
by which the record holds its related records. For a relation to one the row has to be one of the
record's own. -/
def Belongs (relation : Included) (record : Record) (own : Bool) (part : RelatedRow) : Prop :=
  part.aliasName = relation.aliasName
    ∧ (relation.relation.kind = .belongsTo → own = true)
    ∧ (mark? part).isSome ∧ mark? part = tie? relation.relation record

instance (relation : Included) (record : Record) (own : Bool) (part : RelatedRow) :
    Decidable (Belongs relation record own part) :=
  inferInstanceAs (Decidable (_ ∧ (_ → _) ∧ _ ∧ _))

/-- The related record that a part of a row has for a record, if it belongs to it. One without
identity does not count. -/
def share? (relation : Included) (record : Record) (own : Bool) (part : RelatedRow) :
    Option Record :=
  if Belongs relation record own part then part.record?.filter (·.identity?.isSome) else none

theorem share?_eq_some {relation : Included} {record r : Record} {own : Bool} {part : RelatedRow} :
    share? relation record own part = some r
      ↔ Belongs relation record own part ∧ part.record? = some r ∧ r.identity?.isSome := by
  unfold share?
  split
  · rename_i h
    rw [Option.filter_eq_some_iff]
    exact ⟨fun hr => ⟨h, hr⟩, fun hr => hr.2⟩
  · rename_i h
    exact ⟨nofun, fun hr => absurd hr.1 h⟩

/-- All related records that rows have for a record from a sight on, in the order of the rows. -/
def Sight.shares (s : Sight) (relation : Included) : List Record :=
  s.rows.flatMap fun (own, row) => row.related.filterMap (share? relation s.record own)

theorem Sight.mem_shares {s : Sight} {relation : Included} {r : Record} :
    r ∈ s.shares relation ↔ ∃ own row part, (own, row) ∈ s.rows ∧ part ∈ row.related
      ∧ Belongs relation s.record own part ∧ part.record? = some r ∧ r.identity?.isSome := by
  simp only [Sight.shares, List.mem_flatMap, List.mem_filterMap, share?_eq_some, Prod.exists]
  constructor
  · rintro ⟨own, row, hrow, part, hpart, hshare⟩
    exact ⟨own, row, part, hrow, hpart, hshare⟩
  · rintro ⟨own, row, part, hrow, hpart, hshare⟩
    exact ⟨own, row, hrow, part, hpart, hshare⟩

/-! ## One part of a row -/

/-- A record with a part of a row, which goes into each group whose relation it belongs to. -/
def Parent.take (included : List Included) (own : Bool) (parent : Parent) (part : RelatedRow) :
    Parent :=
  ⟨parent.record, List.zipWith (fun relation group =>
    (share? relation parent.record own part).elim group (addToGroup · group))
    included parent.groups⟩

/-- Records with one group for each relation, of which no two have the same identity. -/
structure WellKept (included : List Included) (parents : List Parent) : Prop where
  groups : ∀ parent ∈ parents, parent.groups.length = included.length
  distinct : parents.Pairwise (Apart (·.record.identity?))

variable {included : List Included} {parents : List Parent}

theorem take_groups_length {own : Bool} {parent : Parent} {part : RelatedRow}
    (h : parent.groups.length = included.length) :
    (parent.take included own part).groups.length = included.length := by
  show (List.zipWith _ _ _).length = _
  rw [List.length_zipWith, h, Nat.min_self]

/-- What a part of a row has nothing for stays as it is. -/
theorem take_eq_self {own : Bool} {parent : Parent} {part : RelatedRow}
    (hgroups : parent.groups.length = included.length)
    (hnone : ∀ relation ∈ included, share? relation parent.record own part = none) :
    parent.take included own part = parent := by
  have hzip : List.zipWith (fun relation group =>
      (share? relation parent.record own part).elim group (addToGroup · group))
      included parent.groups = parent.groups := by
    apply List.ext_getElem
    · rw [List.length_zipWith, hgroups, Nat.min_self]
    · intro j hj hj'
      rw [List.getElem_zipWith, hnone _ (List.getElem_mem _)]
      rfl
  unfold Parent.take
  rw [hzip]

/-- A part that has a record goes into the groups of the relations that it belongs to. -/
theorem elim_share? {relation : Included} {record r : Record} {own : Bool} {part : RelatedRow}
    (hr : part.record? = some r) (group : List Record) :
    (share? relation record own part).elim group (addToGroup · group)
      = if Belongs relation record own part then addToGroup r group else group := by
  unfold share?
  split
  · rw [hr]
    unfold addToGroup
    -- a related record without identity is left out by both
    cases hkey : r.identity? <;> simp [Option.filter, hkey]
  · rfl

/-- A part that belongs to a record by one relation goes into the group of this relation. -/
theorem take_eq_modify {own : Bool} {parent : Parent} {part : RelatedRow} {r : Record} {slot : Nat}
    (hgroups : parent.groups.length = included.length) (hr : part.record? = some r)
    (hslot : ∀ j relation, included[j]? = some relation →
      (Belongs relation parent.record own part ↔ slot = j)) :
    parent.take included own part
      = { parent with groups := parent.groups.modify slot (addToGroup r) } := by
  have hzip : List.zipWith (fun relation group =>
      (share? relation parent.record own part).elim group (addToGroup · group))
      included parent.groups = parent.groups.modify slot (addToGroup r) := by
    apply List.ext_getElem
    · rw [List.length_zipWith, List.length_modify, hgroups, Nat.min_self]
    · intro j hj hj'
      rw [List.getElem_zipWith, List.getElem_modify, elim_share? hr]
      simp only [hslot j _ (List.getElem?_eq_getElem _)]
  unfold Parent.take
  rw [hzip]

/-- Where at most one element passes a test, its position is the one that is found. -/
theorem findIdx?_eq_some_of_pairwise {α : Type} {p : α → Bool} {as : List α}
    (h : as.Pairwise fun a b => p b = true → p a = false) {i : Nat} :
    as.findIdx? p = some i ↔ ∃ a, as[i]? = some a ∧ p a = true := by
  rw [List.findIdx?_eq_some_iff_getElem]
  constructor
  · rintro ⟨hi, hp, -⟩
    exact ⟨as[i], List.getElem?_eq_getElem hi, hp⟩
  · rintro ⟨a, ha, hp⟩
    obtain ⟨hi, rfl⟩ := List.getElem?_eq_some_iff.mp ha
    refine ⟨hi, hp, ?_⟩
    intro j hj
    rw [List.pairwise_iff_getElem.mp h j i (by omega) hi hj hp]
    exact Bool.false_ne_true

theorem findIdx?_aliasName (haliases : (included.map (·.aliasName)).Nodup) {name : String}
    {j : Nat} : included.findIdx? (·.aliasName == name) = some j
      ↔ ∃ relation, included[j]? = some relation ∧ relation.aliasName = name := by
  have hpairs := (List.pairwise_map.mp haliases).imp
    (S := fun a b => (b.aliasName == name) = true → (a.aliasName == name) = false) fun hne hb =>
      beq_eq_false_iff_ne.mpr fun ha => hne (ha.trans (beq_iff_eq.mp hb).symm)
  simpa using findIdx?_eq_some_of_pairwise hpairs

/-- A position found by identity is the only one of a record with this identity. -/
theorem position?_eq_some (hparents : WellKept included parents) {key : String} {i : Nat} :
    position? parents key = some i ↔ ∃ parent, parents[i]? = some parent
      ∧ parent.record.identity? = some key := by
  have hpairs := hparents.distinct.imp
    (S := fun a b => (b.record.identity? == some key) = true
      → (a.record.identity? == some key) = false) fun happart hb => by
        rw [beq_iff_eq] at hb
        rw [beq_eq_false_iff_ne]
        intro ha
        exact not_apart_iff.mpr ⟨key, ha, hb⟩ happart
  unfold position?
  simpa using findIdx?_eq_some_of_pairwise hpairs

/-- A marked part belongs to the record that holds its related records by this key. -/
theorem owner?_eq_some (hparents : WellKept included parents) {here : Nat} {relation : Relation}
    {key : String} {i : Nat} :
    owner? parents here relation key = some i ↔ ∃ parent, parents[i]? = some parent
      ∧ (relation.kind = .belongsTo → i = here) ∧ tie? relation parent.record = some key := by
  unfold owner? tie?
  by_cases hkind : relation.kind = .belongsTo
  · rw [if_pos hkind]
    simp only [if_pos hkind]
    constructor
    · intro h
      split at h
      · rename_i hkey
        obtain rfl := Option.some.inj h
        obtain ⟨parent, hparent, hkey⟩ := Option.bind_eq_some_iff.mp (beq_iff_eq.mp hkey)
        exact ⟨parent, hparent, fun _ => rfl, hkey⟩
      · exact absurd h nofun
    · rintro ⟨parent, hparent, hhere, hkey⟩
      rw [← hhere hkind, hparent]
      exact if_pos (beq_iff_eq.mpr hkey)
  · rw [if_neg hkind]
    simp only [if_neg hkind]
    rw [position?_eq_some hparents]
    constructor
    · rintro ⟨parent, hparent, hkey⟩
      exact ⟨parent, hparent, fun h => absurd h hkind, hkey⟩
    · rintro ⟨parent, hparent, -, hkey⟩
      exact ⟨parent, hparent, hkey⟩

/-- Where a part of a row goes: the position of a record, that of a relation, and the related
record. -/
def target? (included : List Included) (here : Nat) (parents : List Parent) (part : RelatedRow) :
    Option (Nat × Nat × Record) := do
  let slot ← included.findIdx? (·.aliasName == part.aliasName)
  let record ← part.record?
  let marker ← part.marker?.bind Value.identity?
  let relation ← included[slot]?
  let owner ← owner? parents here relation.relation marker
  some (owner, slot, record)

/-- A part goes to the record that it belongs to. -/
theorem target?_eq_some (haliases : (included.map (·.aliasName)).Nodup)
    (hparents : WellKept included parents) {here i j : Nat} {part : RelatedRow} {r : Record} :
    target? included here parents part = some (i, j, r)
      ↔ part.record? = some r ∧ ∃ relation parent, included[j]? = some relation
        ∧ parents[i]? = some parent ∧ Belongs relation parent.record (i == here) part := by
  unfold target?
  simp only [Option.bind_eq_bind, Option.bind_eq_some_iff, findIdx?_aliasName haliases,
    owner?_eq_some hparents, Option.some.injEq, Prod.mk.injEq]
  constructor
  · rintro ⟨_, ⟨relation, hrelation, hname⟩, _, hr, key, hkey, relation', hrelation', _,
      ⟨parent, hparent, hhere, htie⟩, rfl, rfl, rfl⟩
    obtain rfl := Option.some.inj (hrelation.symm.trans hrelation')
    have hmark : mark? part = some key := Option.bind_eq_some_iff.mpr hkey
    refine ⟨hr, relation, parent, hrelation, hparent, hname.symm, ?_, ?_, ?_⟩
    · intro hkind
      exact beq_iff_eq.mpr (hhere hkind)
    · rw [hmark]
      rfl
    · rw [hmark, htie]
  · rintro ⟨hr, relation, parent, hrelation, hparent, hname, hown, hsome, hmark⟩
    obtain ⟨key, hkey⟩ := Option.isSome_iff_exists.mp hsome
    refine ⟨j, ⟨relation, hrelation, hname.symm⟩, r, hr, key, Option.bind_eq_some_iff.mp hkey,
      relation, hrelation, i, ⟨parent, hparent, ?_, ?_⟩, rfl, rfl, rfl⟩
    · intro hkind
      exact beq_iff_eq.mp (hown hkind)
    · rw [← hmark, hkey]

theorem addRelated_of_none {here : Nat} {part : RelatedRow}
    (h : target? included here parents part = none) :
    addRelated included here parents part = parents := by
  unfold target? at h
  unfold addRelated
  dsimp only
  rw [h]

theorem addRelated_of_some {here owner slot : Nat} {part : RelatedRow} {r : Record}
    (h : target? included here parents part = some (owner, slot, r)) :
    addRelated included here parents part = parents.modify owner fun parent =>
      { parent with groups := parent.groups.modify slot (addToGroup r) } := by
  unfold target? at h
  unfold addRelated
  dsimp only
  rw [h]

section

variable (haliases : (included.map (·.aliasName)).Nodup) (hparents : WellKept included parents)
  {here i : Nat} {parent : Parent} (hparent : parents[i]? = some parent) {part : RelatedRow}

include haliases hparents hparent

/-- What belongs to the record at a position goes there. -/
theorem belongs_iff_target? {j : Nat} {relation : Included} {r : Record}
    (hj : included[j]? = some relation) (hr : part.record? = some r) :
    Belongs relation parent.record (i == here) part
      ↔ target? included here parents part = some (i, j, r) := by
  rw [target?_eq_some haliases hparents]
  constructor
  · intro h
    exact ⟨hr, relation, parent, hj, hparent, h⟩
  · rintro ⟨-, relation', parent', hj', hparent', h⟩
    rw [hj] at hj'
    rw [hparent] at hparent'
    rwa [Option.some.inj hj', Option.some.inj hparent']

/-- A record to which the part does not go stays as it is. -/
theorem take_of_not_target (h : ∀ j r, target? included here parents part ≠ some (i, j, r)) :
    parent.take included (i == here) part = parent := by
  apply take_eq_self (hparents.groups parent (List.mem_of_getElem? hparent))
  intro relation hrelation
  obtain ⟨j, hj⟩ := List.mem_iff_getElem?.mp hrelation
  apply Option.eq_none_iff_forall_ne_some.mpr
  intro r hshare
  obtain ⟨hbelongs, hr, -⟩ := share?_eq_some.mp hshare
  exact h j r ((belongs_iff_target? haliases hparents hparent hj hr).mp hbelongs)

/-- The record to which the part goes takes it into one group. -/
theorem take_of_target {slot : Nat} {r : Record}
    (h : target? included here parents part = some (i, slot, r)) :
    parent.take included (i == here) part
      = { parent with groups := parent.groups.modify slot (addToGroup r) } := by
  have hr : part.record? = some r := ((target?_eq_some haliases hparents).mp h).1
  apply take_eq_modify (hparents.groups parent (List.mem_of_getElem? hparent)) hr
  intro j relation hj
  rw [belongs_iff_target? haliases hparents hparent hj hr, h]
  simp

end

/-- A part of a row changes each record by itself. -/
theorem addRelated_eq_mapIdx (haliases : (included.map (·.aliasName)).Nodup)
    (hparents : WellKept included parents) (here : Nat) (part : RelatedRow) :
    addRelated included here parents part
      = parents.mapIdx fun i parent => parent.take included (i == here) part := by
  apply List.ext_getElem?
  intro i
  rw [List.getElem?_mapIdx]
  cases htarget : target? included here parents part with
  | none =>
    rw [addRelated_of_none htarget]
    cases hparent : parents[i]? with
    | none => rfl
    | some parent =>
      rw [Option.map_some, take_of_not_target haliases hparents hparent]
      intro j r h
      exact absurd (htarget.symm.trans h) nofun
  | some target =>
    obtain ⟨owner, slot, r⟩ := target
    rw [addRelated_of_some htarget, List.getElem?_modify]
    cases hparent : parents[i]? with
    | none => rfl
    | some parent =>
      by_cases howner : owner = i
      · subst howner
        simp [take_of_target haliases hparents hparent htarget]
      · have htake : parent.take included (i == here) part = parent := by
          apply take_of_not_target haliases hparents hparent
          intro j r' h
          exact howner (congrArg (·.1) (Option.some.inj (htarget.symm.trans h)))
        simp [htake, howner]

/-! ## The parts of a row -/

theorem wellKept_mapIdx_take (hparents : WellKept included parents) (here : Nat)
    (part : RelatedRow) : WellKept included
      (parents.mapIdx fun i parent => parent.take included (i == here) part) := by
  constructor
  · intro parent hparent
    obtain ⟨i, hi, rfl⟩ := List.mem_mapIdx.mp hparent
    exact take_groups_length (hparents.groups _ (List.getElem_mem hi))
  · rw [List.pairwise_iff_getElem]
    intro i j hi hj hij
    rw [List.getElem_mapIdx, List.getElem_mapIdx]
    exact List.pairwise_iff_getElem.mp hparents.distinct i j _ _ hij

/-- The parts of a row change each record by itself. -/
theorem foldl_addRelated (haliases : (included.map (·.aliasName)).Nodup)
    (hparents : WellKept included parents) (here : Nat) (parts : List RelatedRow) :
    parts.foldl (addRelated included here) parents
      = parents.mapIdx fun i parent => parts.foldl (Parent.take included (i == here)) parent := by
  induction parts generalizing parents with
  | nil =>
    apply List.ext_getElem?
    intro i
    simp
  | cons part parts ih =>
    rw [List.foldl_cons, addRelated_eq_mapIdx haliases hparents,
      ih (wellKept_mapIdx_take hparents here part), List.mapIdx_mapIdx]
    rfl

/-- A record that holds, under each alias, the first of given related records. -/
def Parent.holding (included : List Included) (record : Record)
    (shares : Included → List Record) : Parent :=
  ⟨record, included.map fun relation => firstsBy Record.identity? (shares relation)⟩

/-- A related record joins the first ones unless one with its identity is among them. -/
theorem addToGroup_firstsBy {r : Record} (hr : r.identity?.isSome) (records : List Record) :
    addToGroup r (firstsBy Record.identity? records)
      = firstsBy Record.identity? (records ++ [r]) := by
  obtain ⟨key, hkey⟩ := Option.isSome_iff_exists.mp hr
  have hany : (firstsBy Record.identity? records).any (·.identity? == some key) = true
      ↔ ¬ ∀ a ∈ firstsBy Record.identity? records, Apart Record.identity? a r := by
    simp only [List.any_eq_true, beq_iff_eq, not_forall, not_apart_iff, hkey]
    constructor
    · rintro ⟨a, ha, hak⟩
      exact ⟨a, ha, key, hak, rfl⟩
    · rintro ⟨a, ha, k, hak, hk⟩
      exact ⟨a, ha, hak.trans hk.symm⟩
  rw [firstsBy_append_singleton]
  unfold addToGroup
  rw [hkey]
  dsimp only
  by_cases hnew : ∀ a ∈ firstsBy Record.identity? records, Apart Record.identity? a r
  · rw [if_neg fun h => hany.mp h hnew, if_pos hnew]
  · rw [if_pos (hany.mpr hnew), if_neg hnew]

theorem take_holding (record : Record) (shares : Included → List Record) (own : Bool)
    (part : RelatedRow) :
    (Parent.holding included record shares).take included own part
      = .holding included record fun relation =>
        shares relation ++ (share? relation record own part).toList := by
  unfold Parent.take Parent.holding
  simp only [List.zipWith_map_right, List.zipWith_self, Parent.mk.injEq, true_and]
  apply List.map_congr_left
  intro relation _
  cases hshare : share? relation record own part with
  | none => rw [Option.toList_none, List.append_nil, Option.elim_none]
  | some r => exact addToGroup_firstsBy (share?_eq_some.mp hshare).2.2 _

theorem foldl_take_holding (record : Record) (shares : Included → List Record) (own : Bool)
    (parts : List RelatedRow) :
    parts.foldl (Parent.take included own) (Parent.holding included record shares)
      = .holding included record fun relation =>
        shares relation ++ parts.filterMap (share? relation record own) := by
  induction parts generalizing shares with
  | nil => simp
  | cons part parts ih =>
    rw [List.foldl_cons, take_holding, ih]
    congr 1
    funext relation
    rw [List.append_assoc, List.filterMap_cons]
    cases share? relation record own part <;> rfl

/-! ## Rows -/

/-- What a record of a sight holds after the rows of the sight. -/
def Parent.ofSight (included : List Included) (s : Sight) : Parent :=
  .holding included s.record s.shares

theorem wellKept_firstSights (rows : List HydratedRow) :
    WellKept included ((firstSights rows).map (Parent.ofSight included)) := by
  constructor
  · intro parent hparent
    obtain ⟨s, -, rfl⟩ := List.mem_map.mp hparent
    exact List.length_map _
  · exact List.pairwise_map.mpr (pairwise_firstsBy _)

/-- One more row adds its parts to what a record holds. -/
theorem foldl_take_ofSight (s : Sight) (row : HydratedRow) :
    row.related.foldl (Parent.take included (s.sees row)) (Parent.ofSight included s)
      = .ofSight included (s.extend row) := by
  unfold Parent.ofSight
  rw [foldl_take_holding]
  congr 1
  funext relation
  unfold Sight.shares
  rw [Sight.rows_extend, List.flatMap_append, List.flatMap_singleton]
  rfl

theorem foldl_take_new (row : HydratedRow) :
    row.related.foldl (Parent.take included true) ⟨row.record, included.map fun _ => []⟩
      = .ofSight included ⟨row, []⟩ := by
  have hnew : (⟨row.record, included.map fun _ => []⟩ : Parent)
      = .holding included row.record fun _ => [] := rfl
  rw [hnew, foldl_take_holding]
  unfold Parent.ofSight
  congr 1
  funext relation
  exact (List.flatMap_singleton _ _).symm

/-- One more row adds its parts to what the records hold, if `here` is the place of its own. -/
theorem mapIdx_foldl_take {ss : List Sight} {row : HydratedRow} {here : Nat}
    (hhere : ∀ i s, ss[i]? = some s → (i == here) = s.sees row) :
    (ss.map (Parent.ofSight included)).mapIdx
        (fun i parent => row.related.foldl (Parent.take included (i == here)) parent)
      = (ss.map (Sight.extend row)).map (Parent.ofSight included) := by
  apply List.ext_getElem?
  intro i
  rw [List.getElem?_mapIdx, List.getElem?_map, List.getElem?_map, List.getElem?_map]
  cases hs : ss[i]? with
  | none => rfl
  | some s =>
    simp only [Option.map_some, hhere i s hs, foldl_take_ofSight]

/-- The place of a record among those of earlier sights, if one of them is a sight of it. -/
theorem position?_ofSight {ss : List Sight}
    (hkept : WellKept included (ss.map (Parent.ofSight included))) {row : HydratedRow} {i : Nat} :
    row.record.identity?.bind (position? (ss.map (Parent.ofSight included))) = some i
      ↔ ∃ s, ss[i]? = some s ∧ s.sees row = true := by
  have hsees (s : Sight) : s.sees row = true
      ↔ ∃ key, row.record.identity? = some key ∧ s.record.identity? = some key := by
    unfold Sight.sees
    rw [Bool.and_eq_true, beq_iff_eq, Option.isSome_iff_exists]
    constructor
    · rintro ⟨⟨key, hkey⟩, hrow⟩
      exact ⟨key, hrow.trans hkey, hkey⟩
    · rintro ⟨key, hrow, hkey⟩
      exact ⟨⟨key, hkey⟩, hrow.trans hkey.symm⟩
  simp only [Option.bind_eq_some_iff, position?_eq_some hkept, List.getElem?_map,
    Option.map_eq_some_iff, hsees]
  constructor
  · rintro ⟨key, hrow, _, ⟨s, hs, rfl⟩, hkey⟩
    exact ⟨s, hs, key, hrow, hkey⟩
  · rintro ⟨s, hs, key, hrow, hkey⟩
    exact ⟨key, hrow, _, ⟨s, hs, rfl⟩, hkey⟩

/-- A record that was not seen before is kept beside the others. -/
theorem wellKept_append_new (hparents : WellKept included parents) {record : Record}
    (hnew : record.identity?.bind (position? parents) = none) :
    WellKept included (parents ++ [⟨record, included.map fun _ => []⟩]) := by
  constructor
  · simp only [List.mem_append, List.mem_singleton]
    rintro parent (hparent | rfl)
    · exact hparents.groups parent hparent
    · exact List.length_map _
  · rw [List.pairwise_append]
    refine ⟨hparents.distinct, List.pairwise_singleton _ _, ?_⟩
    intro parent hparent other hother
    rw [List.mem_singleton.mp hother]
    by_contra hsame
    obtain ⟨key, hkey, hrecord⟩ := not_apart_iff.mp hsame
    obtain ⟨i, hi⟩ := List.mem_iff_getElem?.mp hparent
    have hsome := (position?_eq_some hparents).mpr ⟨parent, hi, hkey⟩
    have hrecord : record.identity? = some key := hrecord
    rw [hrecord, Option.bind_some, hsome] at hnew
    exact absurd hnew nofun

section

variable (haliases : (included.map (·.aliasName)).Nodup) {ss : List Sight}
  (hkept : WellKept included (ss.map (Parent.ofSight included))) {row : HydratedRow}

include haliases hkept

/-- A row of a record that was seen before extends the sights. -/
theorem addRow_of_seen {here : Nat}
    (hplace : row.record.identity?.bind (position? (ss.map (Parent.ofSight included)))
      = some here) :
    addRow included (ss.map (Parent.ofSight included)) row
      = (ss.map (Sight.extend row)).map (Parent.ofSight included) := by
  unfold addRow locate
  rw [hplace]
  dsimp only
  rw [foldl_addRelated haliases hkept]
  apply mapIdx_foldl_take
  intro i s hs
  have hiff : (∃ s, ss[i]? = some s ∧ s.sees row = true) ↔ here = i := by
    rw [← position?_ofSight hkept, hplace, Option.some.injEq]
  rw [Bool.eq_iff_iff, beq_iff_eq]
  constructor
  · rintro rfl
    obtain ⟨s', hs', hsees⟩ := hiff.mpr rfl
    rwa [Option.some.inj (hs.symm.trans hs')]
  · intro h
    exact (hiff.mp ⟨s, hs, h⟩).symm

/-- A row of a new record extends the sights too, and is one more. -/
theorem addRow_of_new
    (hplace : row.record.identity?.bind (position? (ss.map (Parent.ofSight included))) = none)
    (hseen : ∀ s ∈ ss, s.sees row = false) :
    addRow included (ss.map (Parent.ofSight included)) row
      = (ss.map (Sight.extend row) ++ [(⟨row, []⟩ : Sight)]).map (Parent.ofSight included) := by
  unfold addRow locate
  rw [hplace]
  dsimp only
  rw [foldl_addRelated haliases (wellKept_append_new hkept hplace), List.mapIdx_append,
    List.mapIdx_singleton]
  have hrest : (ss.map (Parent.ofSight included)).mapIdx
      (fun i parent => row.related.foldl (Parent.take included
        (i == (ss.map (Parent.ofSight included)).length)) parent)
      = (ss.map (Sight.extend row)).map (Parent.ofSight included) := by
    apply mapIdx_foldl_take
    intro i s hs
    have hlt : i < ss.length := (List.getElem?_eq_some_iff.mp hs).1
    rw [hseen s (List.mem_of_getElem? hs), List.length_map]
    exact beq_eq_false_iff_ne.mpr (by omega)
  rw [hrest, Nat.zero_add, BEq.rfl, foldl_take_new, List.map_append]
  rfl

end

/-- A row extends the sights before it, and is a first sight if none of them is one of its
record. -/
theorem addRow_firstSights (haliases : (included.map (·.aliasName)).Nodup)
    (rows : List HydratedRow) (row : HydratedRow) :
    addRow included ((firstSights rows).map (Parent.ofSight included)) row
      = (firstSights (rows ++ [row])).map (Parent.ofSight included) := by
  have hkept : WellKept included ((firstSights rows).map (Parent.ofSight included)) :=
    wellKept_firstSights rows
  rw [firstSights_append_singleton]
  cases hplace : row.record.identity?.bind
      (position? ((firstSights rows).map (Parent.ofSight included))) with
  | some here =>
    obtain ⟨s, hs, hsees⟩ := (position?_ofSight hkept).mp hplace
    have hseen : ¬ ∀ s ∈ firstSights rows, s.sees row = false := by
      intro hnone
      rw [hnone s (List.mem_of_getElem? hs)] at hsees
      exact Bool.false_ne_true hsees
    rw [if_neg hseen, List.append_nil, addRow_of_seen haliases hkept hplace]
  | none =>
    have hseen : ∀ s ∈ firstSights rows, s.sees row = false := by
      intro s hs
      obtain ⟨i, hi⟩ := List.mem_iff_getElem?.mp hs
      apply Bool.eq_false_iff.mpr
      intro hsees
      exact absurd (hplace.symm.trans ((position?_ofSight hkept).mpr ⟨s, hi, hsees⟩)) nofun
    rw [if_pos hseen, addRow_of_new haliases hkept hplace hseen]

/-- The records after all rows: each as of its first sight, with the related records from there
on. -/
theorem foldl_addRow (haliases : (included.map (·.aliasName)).Nodup) (rows : List HydratedRow) :
    rows.foldl (addRow included) [] = (firstSights rows).map (Parent.ofSight included) := by
  induction rows using List.reverseRecOn with
  | nil => rfl
  | append_singleton rows row ih =>
    rw [List.foldl_append, ih, List.foldl_cons, List.foldl_nil, addRow_firstSights haliases]

/-! ## Finished records -/

/-- Putting lists under aliases leaves a record's own values alone. -/
theorem foldl_attach_own (groups : List (Included × List Record)) (record : Record) :
    let done := groups.foldl
      (fun record (relation, group) => record.attach relation.aliasName group) record
    done.model = record.model ∧ done.attributes = record.attributes
      ∧ done.changed = record.changed := by
  induction groups generalizing record with
  | nil => exact ⟨rfl, rfl, rfl⟩
  | cons group groups ih => exact ih (record.attach group.1.aliasName group.2)

/-- The last list under an alias is what is found there. -/
theorem related?_foldl_attach (groups : List (Included × List Record)) (record : Record)
    (name : String) :
    (groups.foldl (fun record (relation, group) => record.attach relation.aliasName group)
      record).related? name
      = ((groups.reverse.find? (·.1.aliasName == name)).map (·.2)).or (record.related? name) := by
  induction groups generalizing record with
  | nil => rfl
  | cons group groups ih =>
    have hattach : (record.attach group.1.aliasName group.2).related? name
        = if group.1.aliasName = name then some group.2 else record.related? name :=
      Fields.get?_insert record.relations group.1.aliasName name group.2
    rw [List.foldl_cons, ih, hattach, List.reverse_cons, List.find?_append]
    cases groups.reverse.find? (·.1.aliasName == name) with
    | some found => rfl
    | none => by_cases hname : group.1.aliasName = name <;> simp [hname]

/-- The finished record of a sight. -/
def ofSight (included : List Included) (s : Sight) : Record :=
  finish included (.ofSight included s)

theorem assemble_eq (haliases : (included.map (·.aliasName)).Nodup) (rows : List HydratedRow) :
    assemble included rows = (firstSights rows).map (ofSight included) := by
  unfold assemble
  rw [foldl_addRow haliases, List.map_map]
  rfl

/-- A finished record has the values with which it was first seen. -/
theorem ofSight_own (s : Sight) :
    (ofSight included s).model = s.record.model
      ∧ (ofSight included s).attributes = s.record.attributes
      ∧ (ofSight included s).changed = s.record.changed :=
  foldl_attach_own _ s.record

theorem ofSight_identity? (s : Sight) : (ofSight included s).identity? = s.record.identity? := by
  obtain ⟨hmodel, hattributes, -⟩ := @ofSight_own included s
  unfold Record.identity? Record.primaryKey? Record.get?
  rw [hmodel, hattributes]

/-- A finished record has its shares attached one relation after the other. -/
theorem ofSight_eq_foldl (included : List Included) (s : Sight) :
    ofSight included s = (included.map fun relation =>
        (relation, firstsBy Record.identity? (s.shares relation))).foldl
      (fun record (relation, group) => record.attach relation.aliasName group) s.record := by
  show (included.zip (included.map _)).foldl _ _ = _
  rw [List.zip, List.zipWith_map_right, List.zipWith_self]
  rfl

/-- A finished record has every alias, and under it the first of all shares. -/
theorem related?_ofSight (haliases : (included.map (·.aliasName)).Nodup) (s : Sight)
    {relation : Included} (hrelation : relation ∈ included) :
    (ofSight included s).related? relation.aliasName
      = some (firstsBy Record.identity? (s.shares relation)) := by
  let pairs := included.map fun relation =>
    (relation, firstsBy Record.identity? (s.shares relation))
  rw [ofSight_eq_foldl, related?_foldl_attach]
  have hfind : pairs.reverse.find? (·.1.aliasName == relation.aliasName)
      = some (relation, firstsBy Record.identity? (s.shares relation)) := by
    apply find?_eq_some_of_unique
    · exact List.mem_reverse.mpr (List.mem_map_of_mem (f := fun relation =>
        (relation, firstsBy Record.identity? (s.shares relation))) hrelation)
    · exact BEq.rfl
    · intro pair hpair hname
      obtain ⟨other, hother, rfl⟩ := List.mem_map.mp (List.mem_reverse.mp hpair)
      have hname : other.aliasName = relation.aliasName := by simpa using hname
      rw [List.inj_on_of_nodup_map haliases hother hrelation hname]
  rw [hfind]
  rfl

/-! ## What is gathered -/

/-- What a record ought to hold under the alias of a relation, given the rows from the first sight
of it on. -/
structure Gathers (relation : Included) (s : Sight) (found : List Record) : Prop where
  /-- No related record is there twice. -/
  distinct : found.Pairwise fun a b => a.identity? ≠ b.identity?
  /-- Each one comes from a part of a row that belongs to the record. -/
  sound : ∀ r ∈ found, ∃ own row part, (own, row) ∈ s.rows ∧ part ∈ row.related
    ∧ Belongs relation s.record own part ∧ part.record? = some r
  /-- None with an identity is missing. -/
  complete : ∀ own row part r key, (own, row) ∈ s.rows → part ∈ row.related →
    Belongs relation s.record own part → part.record? = some r → r.identity? = some key →
    ∃ first ∈ found, first.identity? = some key
  /-- They are the first ones of all parts that belong to the record, in the order of the rows. -/
  ordered : found = firstsBy Record.identity? (s.shares relation)

theorem gathers_firstsBy (relation : Included) (s : Sight) :
    Gathers relation s (firstsBy Record.identity? (s.shares relation)) := by
  have hmem {r : Record} (hr : r ∈ firstsBy Record.identity? (s.shares relation)) :
      r ∈ s.shares relation := (firstsBy_sublist _).mem hr
  constructor
  · refine (pairwise_firstsBy (s.shares relation)).imp_of_mem ?_
    intro a b _ hb happart heq
    obtain ⟨_, _, _, _, _, _, _, hsome⟩ := Sight.mem_shares.mp (hmem hb)
    obtain ⟨key, hkey⟩ := Option.isSome_iff_exists.mp hsome
    exact not_apart_iff.mpr ⟨key, heq.trans hkey, hkey⟩ happart
  · intro r hr
    obtain ⟨own, row, part, hrow, hpart, hbelongs, hrecord, -⟩ := Sight.mem_shares.mp (hmem hr)
    exact ⟨own, row, part, hrow, hpart, hbelongs, hrecord⟩
  · intro own row part r key hrow hpart hbelongs hrecord hkey
    have hshare : r ∈ s.shares relation := Sight.mem_shares.mpr
      ⟨own, row, part, hrow, hpart, hbelongs, hrecord, by rw [hkey]; rfl⟩
    exact exists_mem_firstsBy hshare hkey
  · rfl

/-- The first sights that there ought to be, in the order of the rows: one for each identity, and
one for each record without identity. -/
structure SeesEach (rows : List HydratedRow) (ss : List Sight) : Prop where
  ordered : ss.Sublist (sights rows)
  distinct : ss.Pairwise (Apart (·.record.identity?))
  mem_iff : ∀ s, s ∈ ss ↔ ∃ before, rows = before ++ s.first :: s.after
    ∧ ∀ row ∈ before, s.record.identity? = none ∨ s.record.identity? ≠ row.record.identity?

theorem seesEach_firstSights (rows : List HydratedRow) : SeesEach rows (firstSights rows) :=
  ⟨firstsBy_sublist _, pairwise_firstsBy _, fun _ => mem_firstSights⟩

/-- What a record assembled from a first sight and the rows after it ought to be: the record as it
was first seen, with every alias. -/
structure Assembled (included : List Included) (s : Sight) (record : Record) : Prop where
  model : record.model = s.record.model
  attributes : record.attributes = s.record.attributes
  related : ∀ relation ∈ included, ∃ found, record.related? relation.aliasName = some found
    ∧ Gathers relation s found

/-- **Assembling loses, doubles and misplaces nothing.** If no two relations have the same alias,
there is one record for each first sight of a record, in the order of the rows and with the values
first seen. Under every alias it holds related records that are told apart by their identities: the
first one each, in the order of the rows, of those in the parts of rows that belong to it, from its
first sight on. -/
theorem assemble_gathers (haliases : (included.map (·.aliasName)).Nodup)
    (rows : List HydratedRow) :
    ∃ ss, SeesEach rows ss ∧ List.Forall₂ (Assembled included) ss (assemble included rows) := by
  refine ⟨firstSights rows, seesEach_firstSights rows, ?_⟩
  rw [assemble_eq haliases, List.forall₂_map_right_iff, List.forall₂_same]
  intro s _
  obtain ⟨hmodel, hattributes, -⟩ := @ofSight_own included s
  refine ⟨hmodel, hattributes, ?_⟩
  intro relation hrelation
  exact ⟨_, related?_ofSight haliases s hrelation, gathers_firstsBy relation s⟩

/-- The posts that users wrote. -/
def writtenPosts : Included :=
  ⟨"posts", ⟨.hasMany, "posts", "User", "Post", "user_id", none⟩, .empty "Post"⟩

/-- A row of a user, with a post that is marked as the user's. -/
def postRow (user post : Value) : HydratedRow where
  record := .ofStored (.empty "User") [("id", user)]
  related := [⟨"posts", some (.ofStored (.empty "Post") [("id", post)]), some user⟩]

/-- A user with two posts, one of them in two rows, around another user, and two rows of nobody. -/
theorem assemble_gathers_posts :
    let rows := [postRow (.int 1) (.int 10), postRow .null (.int 30), postRow (.int 2) (.int 20),
      postRow (.int 1) (.int 11), postRow (.str "1") (.int 10), postRow .null (.int 30)]
    ([writtenPosts].map (·.aliasName)).Nodup
      ∧ (∃ ss, SeesEach rows ss
        ∧ List.Forall₂ (Assembled [writtenPosts]) ss (assemble [writtenPosts] rows))
      ∧ (assemble [writtenPosts] rows).map (fun record =>
          (record.identity?, (record.related? "posts").map (·.map Record.identity?)))
        = [(some "1", some [some "10", some "11"]), (none, some []), (some "2", some [some "20"]),
          (none, some [])] := by
  have haliases : ([writtenPosts].map (·.aliasName)).Nodup := by decide
  exact ⟨haliases, assemble_gathers haliases _, by decide +kernel⟩

end RecordMapping.Assembly
