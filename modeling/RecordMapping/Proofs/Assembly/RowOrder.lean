import Mathlib.Data.List.Perm.Basic
import RecordMapping.Proofs.Assembly.Gathering

/-!
# The order of rows

The rows of a join come in any order. If the database vouches for what they hold (`Consistent`),
assembling finds the same records with the same related records in every order.

* `mem_shares_iff`: what is shared with a record then depends only on which rows there are;
* `assemble_perm`: hence the order of the rows decides the order of the records, and nothing else.
-/

namespace RecordMapping.Assembly

/-- What a join guarantees about its rows: records have identities, which decide the values of the
record and, under each alias, the related record; and a part of a row is marked with the key by
which the row's own record holds its related records. -/
structure Consistent (included : List Included) (rows : List HydratedRow) : Prop where
  keyed : ∀ row ∈ rows, row.record.identity?.isSome
  values : ∀ row ∈ rows, ∀ other ∈ rows, row.record.identity? = other.record.identity? →
    row.record.attributes = other.record.attributes
  related : ∀ row ∈ rows, ∀ other ∈ rows, ∀ part ∈ row.related, ∀ part' ∈ other.related,
    part.aliasName = part'.aliasName → ∀ r r' key, part.record? = some r → part'.record? = some r' →
    r.identity? = some key → r'.identity? = some key → r = r'
  marked : ∀ row ∈ rows, ∀ part ∈ row.related, ∀ relation ∈ included,
    part.aliasName = relation.aliasName → ∀ r, part.record? = some r → r.identity?.isSome →
    mark? part = tie? relation.relation row.record

/-- A guarantee about rows does not depend on their order. -/
theorem Consistent.perm {included : List Included} {rows rows' : List HydratedRow}
    (h : Consistent included rows) (hrows : rows.Perm rows') : Consistent included rows' := by
  have hmem (row : HydratedRow) : row ∈ rows' ↔ row ∈ rows := hrows.mem_iff.symm
  constructor
  · simpa only [hmem] using h.keyed
  · simpa only [hmem] using h.values
  · simpa only [hmem] using h.related
  · simpa only [hmem] using h.marked

variable {included : List Included} {rows rows' : List HydratedRow}

/-! ## First sights -/

theorem Sight.first_mem {s : Sight} (hs : s ∈ firstSights rows) : s.first ∈ rows := by
  obtain ⟨before, rfl, -⟩ := mem_firstSights.mp hs
  simp

/-- The rows from a sight on are rows. -/
theorem Sight.mem_of_mem_rows {s : Sight} (hs : s ∈ firstSights rows) {own : Bool}
    {row : HydratedRow} (hrow : (own, row) ∈ s.rows) : row ∈ rows := by
  obtain ⟨before, rfl, -⟩ := mem_firstSights.mp hs
  unfold Sight.rows at hrow
  rw [List.mem_cons, List.mem_map] at hrow
  rcases hrow with heq | ⟨other, hother, heq⟩
  · obtain ⟨-, rfl⟩ := Prod.mk.inj heq
    simp
  · obtain ⟨-, rfl⟩ := Prod.mk.inj heq
    simp [hother]

/-- A record's own rows have its identity. -/
theorem Sight.identity?_of_own {s : Sight} {row : HydratedRow} (hrow : (true, row) ∈ s.rows) :
    row.record.identity? = s.record.identity? := by
  unfold Sight.rows at hrow
  rw [List.mem_cons, List.mem_map] at hrow
  rcases hrow with heq | ⟨other, hother, heq⟩
  · obtain ⟨-, rfl⟩ := Prod.mk.inj heq
    rfl
  · obtain ⟨hsees, rfl⟩ := Prod.mk.inj heq
    unfold Sight.sees at hsees
    simpa using (Bool.and_eq_true_iff.mp hsees).2

/-- From the first sight of a record on, all rows with its identity are its own. -/
theorem Sight.own_of_identity? {s : Sight} (hs : s ∈ firstSights rows) {row : HydratedRow}
    (hrow : row ∈ rows) {key : String} (hkey : s.record.identity? = some key)
    (hidentity : row.record.identity? = some key) : (true, row) ∈ s.rows := by
  obtain ⟨before, rfl, hbefore⟩ := mem_firstSights.mp hs
  unfold Sight.rows
  rcases List.mem_append.mp hrow with hrow | hrow
  · -- the record would have been seen before
    rcases hbefore row hrow with hnone | hne
    · exact absurd (hkey.symm.trans hnone) nofun
    · exact absurd (hkey.trans hidentity.symm) hne
  · rcases List.mem_cons.mp hrow with rfl | hrow
    · exact List.mem_cons_self
    · have hsees : s.sees row = true := by
        unfold Sight.sees
        rw [hkey, hidentity]
        simp
      exact List.mem_cons_of_mem _ (List.mem_map.mpr ⟨row, hrow, by rw [hsees]⟩)

/-- Every record with an identity has a first sight. -/
theorem exists_firstSight {row : HydratedRow} (hrow : row ∈ rows) {key : String}
    (hkey : row.record.identity? = some key) :
    ∃ s ∈ firstSights rows, s.record.identity? = some key := by
  obtain ⟨before, after, hrows⟩ := List.append_of_mem hrow
  obtain ⟨seen, later, hsights, -⟩ := sights_eq_append (s := ⟨row, after⟩) |>.mpr hrows
  have hmem : (⟨row, after⟩ : Sight) ∈ sights rows := by
    rw [hsights]
    simp
  exact @exists_mem_firstsBy Sight (·.record.identity?) _ _ key hmem hkey

/-- The identities of the records are those of the rows. -/
theorem mem_identities_iff (h : Consistent included rows) {key? : Option String} :
    key? ∈ (firstSights rows).map (·.record.identity?)
      ↔ ∃ row ∈ rows, row.record.identity? = key? := by
  rw [List.mem_map]
  constructor
  · rintro ⟨s, hs, rfl⟩
    exact ⟨s.first, Sight.first_mem hs, rfl⟩
  · rintro ⟨row, hrow, rfl⟩
    obtain ⟨key, hkey⟩ := Option.isSome_iff_exists.mp (h.keyed row hrow)
    rw [hkey]
    exact exists_firstSight hrow hkey

/-- No two records have the same identity. -/
theorem nodup_identities (h : Consistent included rows) :
    ((firstSights rows).map (·.record.identity?)).Nodup := by
  refine List.pairwise_map.mpr ((pairwise_firstsBy (sights rows)).imp_of_mem ?_)
  intro a b _ hb happart heq
  obtain ⟨key, hkey⟩ := Option.isSome_iff_exists.mp (h.keyed b.first (Sight.first_mem hb))
  have hb : b.record.identity? = some key := hkey
  exact not_apart_iff.mpr ⟨key, heq.trans hb, hb⟩ happart

/-! ## Shares -/

/-- A related record that some row has, under the alias of a relation, for the record with a given
identity. -/
def Shares (rows : List HydratedRow) (relation : Included) (key : String) (r : Record) : Prop :=
  ∃ row ∈ rows, row.record.identity? = some key ∧ ∃ part ∈ row.related,
    part.aliasName = relation.aliasName ∧ (mark? part).isSome ∧ part.record? = some r
    ∧ r.identity?.isSome

/-- What a record holds its related records by is the same in all rows of the record. -/
theorem tie?_congr (h : Consistent included rows) {row other : HydratedRow} (hrow : row ∈ rows)
    (hother : other ∈ rows) (hidentity : row.record.identity? = other.record.identity?)
    (relation : Relation) : tie? relation row.record = tie? relation other.record :=
  tie?_eq hidentity (h.values row hrow other hother hidentity) relation

/-- What is shared with a record depends only on which rows there are. -/
theorem mem_shares_iff (h : Consistent included rows) {s : Sight} (hs : s ∈ firstSights rows)
    {key : String} (hkey : s.record.identity? = some key) {relation : Included}
    (hrelation : relation ∈ included) {r : Record} :
    r ∈ s.shares relation ↔ Shares rows relation key r := by
  rw [Sight.mem_shares]
  constructor
  · rintro ⟨own, row, part, hrow, hpart, ⟨hname, hown, hsome, hmark⟩, hr, hidentity⟩
    have hmem : row ∈ rows := Sight.mem_of_mem_rows hs hrow
    refine ⟨row, hmem, ?_, part, hpart, hname, hsome, hr, hidentity⟩
    by_cases hkind : relation.relation.kind = .belongsTo
    · rw [hown hkind] at hrow
      rw [Sight.identity?_of_own hrow, hkey]
    · -- the row's own record holds the part by the same key
      have hmarked := h.marked row hmem part hpart relation hrelation hname r hr hidentity
      unfold tie? at hmark hmarked
      rw [if_neg hkind] at hmark hmarked
      rw [← hmarked, hmark, hkey]
  · rintro ⟨row, hmem, hrow, part, hpart, hname, hsome, hr, hidentity⟩
    have hown : (true, row) ∈ s.rows := Sight.own_of_identity? hs hmem hkey hrow
    refine ⟨true, row, part, hown, hpart, ⟨hname, fun _ => rfl, hsome, ?_⟩, hr, hidentity⟩
    rw [h.marked row hmem part hpart relation hrelation hname r hr hidentity]
    exact tie?_congr h hmem (Sight.first_mem hs) (hrow.trans hkey.symm) _

/-- All that is shared with a record is found under its alias. -/
theorem mem_firstsBy_shares_iff (h : Consistent included rows) {s : Sight}
    (hs : s ∈ firstSights rows) {key : String} (hkey : s.record.identity? = some key)
    {relation : Included} (hrelation : relation ∈ included) {r : Record} :
    r ∈ firstsBy Record.identity? (s.shares relation) ↔ Shares rows relation key r := by
  have hiff {r : Record} : r ∈ s.shares relation ↔ Shares rows relation key r :=
    mem_shares_iff h hs hkey hrelation
  constructor
  · intro hr
    exact hiff.mp ((firstsBy_sublist _).mem hr)
  · intro hr
    have hshare : r ∈ s.shares relation := hiff.mpr hr
    obtain ⟨row, hrow, -, part, hpart, hname, -, hrecord, hsome⟩ := hr
    obtain ⟨id, hid⟩ := Option.isSome_iff_exists.mp hsome
    obtain ⟨first, hfirst, hfirstId⟩ := exists_mem_firstsBy hshare hid
    -- the first one with this identity is the same record
    obtain ⟨row', hrow', -, part', hpart', hname', -, hrecord', -⟩ :=
      hiff.mp ((firstsBy_sublist _).mem hfirst)
    rwa [h.related row hrow row' hrow' part hpart part' hpart' (hname.trans hname'.symm) r first id
      hrecord hrecord' hid hfirstId]

theorem nodup_firstsBy_shares (s : Sight) (relation : Included) :
    (firstsBy Record.identity? (s.shares relation)).Nodup :=
  (gathers_firstsBy relation s).distinct.imp fun hne heq => hne (congrArg _ heq)

/-! ## Another order -/

/-- Two records that are the same apart from the order of their related records. -/
structure SameRecord (included : List Included) (a b : Record) : Prop where
  identity : a.identity? = b.identity?
  attributes : a.attributes = b.attributes
  related : ∀ relation ∈ included, ∃ as bs, a.related? relation.aliasName = some as
    ∧ b.related? relation.aliasName = some bs ∧ as.Perm bs

/-- Two first sights of one record, among the same rows in different orders. -/
theorem sameRecord_ofSight (haliases : (included.map (·.aliasName)).Nodup)
    (h : Consistent included rows) (hrows : rows.Perm rows') {s t : Sight}
    (hs : s ∈ firstSights rows) (ht : t ∈ firstSights rows')
    (hidentity : t.record.identity? = s.record.identity?) :
    SameRecord included (ofSight included s) (ofSight included t) := by
  obtain ⟨key, hkey⟩ := Option.isSome_iff_exists.mp (h.keyed s.first (Sight.first_mem hs))
  have hskey : s.record.identity? = some key := hkey
  have htkey : t.record.identity? = some key := hidentity.trans hskey
  constructor
  · rw [ofSight_identity?, ofSight_identity?, hidentity]
  · rw [(ofSight_own s).2.1, (ofSight_own t).2.1]
    exact h.values s.first (Sight.first_mem hs) t.first (hrows.mem_iff.mpr (Sight.first_mem ht))
      hidentity.symm
  · intro relation hrelation
    refine ⟨_, _, related?_ofSight haliases s hrelation, related?_ofSight haliases t hrelation, ?_⟩
    rw [List.perm_ext_iff_of_nodup (nodup_firstsBy_shares s relation)
      (nodup_firstsBy_shares t relation)]
    intro r
    rw [mem_firstsBy_shares_iff h hs hskey hrelation,
      mem_firstsBy_shares_iff (h.perm hrows) ht htkey hrelation]
    unfold Shares
    simp only [hrows.mem_iff]

/-- **The order of rows does not matter.** If no two relations have the same alias, and the rows
hold together as those of a join, the same rows in another order are assembled to the same records:
in another order, each with the same values, and under every alias with the same related records,
again in another order. -/
theorem assemble_perm (haliases : (included.map (·.aliasName)).Nodup)
    (h : Consistent included rows) (hrows : rows.Perm rows') :
    ∃ records, records.Perm (assemble included rows')
      ∧ List.Forall₂ (SameRecord included) (assemble included rows) records := by
  have hkeys : ((firstSights rows).map (·.record.identity?)).Perm
      ((firstSights rows').map (·.record.identity?)) := by
    rw [List.perm_ext_iff_of_nodup (nodup_identities h) (nodup_identities (h.perm hrows))]
    intro key?
    rw [mem_identities_iff h, mem_identities_iff (h.perm hrows)]
    simp only [hrows.mem_iff]
  -- the sights in the other order, put into the order of the first ones
  have hsights : List.Forall₂ (fun key? t => t ∈ firstSights rows' ∧ t.record.identity? = key?)
      ((firstSights rows').map (·.record.identity?)) (firstSights rows') := by
    rw [List.forall₂_map_left_iff, List.forall₂_same]
    exact fun t ht => ⟨ht, rfl⟩
  obtain ⟨ts, hts, hperm⟩ := List.perm_comp_forall₂ hkeys hsights
  refine ⟨ts.map (ofSight included), ?_, ?_⟩
  · rw [assemble_eq haliases]
    exact hperm.map _
  · rw [assemble_eq haliases, List.forall₂_map_left_iff, List.forall₂_map_right_iff]
    rw [List.forall₂_map_left_iff] at hts
    have hts := (List.forall₂_and_left _ _).mpr ⟨fun s hs => hs, hts⟩
    exact hts.imp fun s t ⟨hs, ht, hidentity⟩ =>
      sameRecord_ofSight haliases h hrows hs ht hidentity

/-- Two posts of one user, and a post of another one between them. -/
def joinedPosts : List HydratedRow :=
  [postRow (.int 1) (.int 10), postRow (.int 2) (.int 20), postRow (.int 1) (.int 11)]

theorem assemble_perm_reverse :
    ([writtenPosts].map (·.aliasName)).Nodup ∧ Consistent [writtenPosts] joinedPosts
      ∧ joinedPosts.Perm joinedPosts.reverse
      ∧ ∃ records, records.Perm (assemble [writtenPosts] joinedPosts.reverse)
        ∧ List.Forall₂ (SameRecord [writtenPosts]) (assemble [writtenPosts] joinedPosts)
          records := by
  have haliases : ([writtenPosts].map (·.aliasName)).Nodup := by decide
  have hrow {row : HydratedRow} (h : row ∈ joinedPosts) :
      row = postRow (.int 1) (.int 10) ∨ row = postRow (.int 2) (.int 20)
        ∨ row = postRow (.int 1) (.int 11) := by
    simpa [joinedPosts] using h
  have hconsistent : Consistent [writtenPosts] joinedPosts := by
    constructor
    · decide +kernel
    · intro row hmem other hmem' hidentity
      rcases hrow hmem with rfl | rfl | rfl <;> rcases hrow hmem' with rfl | rfl | rfl
      all_goals first | rfl | exact absurd hidentity (by decide +kernel)
    · intro row hmem other hmem' part hpart part' hpart' _ r r' key hr hr' hkey hkey'
      rcases hrow hmem with rfl | rfl | rfl <;> rcases hrow hmem' with rfl | rfl | rfl
      all_goals
        rw [List.mem_singleton.mp hpart] at hr
        rw [List.mem_singleton.mp hpart'] at hr'
        obtain rfl := Option.some.inj hr
        obtain rfl := Option.some.inj hr'
        first | rfl | exact absurd (hkey.trans hkey'.symm) (by decide +kernel)
    · intro row hmem part hpart relation hrelation _ r _ _
      rcases hrow hmem with rfl | rfl | rfl
      all_goals
        rw [List.mem_singleton.mp hpart, List.mem_singleton.mp hrelation]
        rfl
  have hperm : joinedPosts.Perm joinedPosts.reverse := (List.reverse_perm joinedPosts).symm
  exact ⟨haliases, hconsistent, hperm, assemble_perm haliases hconsistent hperm⟩

end RecordMapping.Assembly
