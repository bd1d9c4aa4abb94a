import Mathlib.Data.List.Induction
import Mathlib.Data.List.Nodup
import RecordMapping.Proofs.Relation.Declaring

/-!
# The indexes of a registry

A registry is asked for the relations of an owner, and for a relation that leads to a target. Both
questions are answered from indexes into which relations are filed one by one as they are added.

* `Indexes.file`: how a relation is filed, as it is when it is registered (`indexes_register`); what
  a registry answers is what stands in its indexes (`owned_indexes`, `inbound?_eq`);
* `Indexes.Consistent`: how the two indexes belong together, which is kept by filing a relation
  under a new alias (`Indexes.Consistent.file`);
* `indexes_afterAll`: so it holds after any declarations, and what an alias means then it means from
  then on.
-/

namespace RecordMapping

/-- The relations that models own, and those that lead to models, which are filed there under their
foreign keys. -/
structure Indexes where
  owned : String → List Relation
  inbound : String → List (String × Relation)

theorem Relation.isCollection_iff {r : Relation} :
    r.isCollection = true ↔ r.kind ≠ .belongsTo := by
  unfold Relation.isCollection
  cases r.kind <;> decide

namespace Indexes

/-- The indexes without relations. -/
def empty : Indexes := ⟨fun _ => [], fun _ => []⟩

/-- Files a relation behind those of its owner. If it leads to many, it is also filed behind those
that lead to its target, unless its foreign key stands there. -/
def file (ix : Indexes) (r : Relation) : Indexes where
  owned owner := if owner = r.owner then ix.owned owner ++ [r] else ix.owned owner
  inbound target :=
    if target = r.target ∧ r.kind ≠ .belongsTo
        ∧ r.foreignKey ∉ (ix.inbound target).map fun entry => entry.1 then
      ix.inbound target ++ [(r.foreignKey, r)]
    else ix.inbound target

/-- How the two indexes belong together. -/
structure Consistent (ix : Indexes) : Prop where
  aliases : ∀ owner, ((ix.owned owner).map fun r => r.aliasName).Nodup
  owner : ∀ owner, ∀ r ∈ ix.owned owner, r.owner = owner
  keys : ∀ target, ((ix.inbound target).map fun entry => entry.1).Nodup
  entry : ∀ target, ∀ entry ∈ ix.inbound target, entry.2.foreignKey = entry.1
    ∧ entry.2.target = target ∧ entry.2.kind ≠ .belongsTo ∧ entry.2 ∈ ix.owned entry.2.owner
  covered : ∀ owner, ∀ r ∈ ix.owned owner, r.kind ≠ .belongsTo →
    ∃ entry ∈ ix.inbound r.target, entry.1 = r.foreignKey

variable {ix : Indexes} {r : Relation}

theorem consistent_empty : empty.Consistent where
  aliases _ := .nil
  owner _ _ h := absurd h List.not_mem_nil
  keys _ := .nil
  entry _ _ h := absurd h List.not_mem_nil
  covered _ _ h := absurd h List.not_mem_nil

/-- What is filed stays, and only the new relation is added. -/
theorem mem_owned_file {owner : String} {s : Relation} :
    s ∈ (ix.file r).owned owner ↔ s ∈ ix.owned owner ∨ owner = r.owner ∧ s = r := by
  unfold file
  dsimp only
  split
  · rename_i howner
    rw [List.mem_append, List.mem_singleton]
    exact or_congr_right (and_iff_right howner).symm
  · rename_i howner
    exact (or_iff_left fun h => howner h.1).symm

theorem mem_inbound_file {target : String} {entry : String × Relation} :
    entry ∈ (ix.file r).inbound target ↔ entry ∈ ix.inbound target
      ∨ (target = r.target ∧ r.kind ≠ .belongsTo
          ∧ r.foreignKey ∉ (ix.inbound target).map fun entry => entry.1)
        ∧ entry = (r.foreignKey, r) := by
  unfold file
  dsimp only
  split
  · rename_i hnew
    rw [List.mem_append, List.mem_singleton]
    exact or_congr_right (and_iff_right hnew).symm
  · rename_i hold
    exact (or_iff_left fun h => hold h.1).symm

/-- The indexes stay consistent when a relation is filed under an alias that its owner does not
have yet. -/
theorem Consistent.file (h : ix.Consistent)
    (hfree : r.aliasName ∉ (ix.owned r.owner).map fun r => r.aliasName) :
    (ix.file r).Consistent where
  aliases owner := by
    show (List.map _ (if owner = r.owner then _ else _)).Nodup
    split
    · rename_i howner
      subst howner
      rw [List.map_append]
      exact (h.aliases _).append (List.nodup_singleton _) (by simpa using hfree)
    · exact h.aliases owner
  owner owner s hs := by
    rcases mem_owned_file.mp hs with hs | ⟨howner, rfl⟩
    · exact h.owner owner s hs
    · exact howner.symm
  keys target := by
    show (List.map _ (if _ then _ else _)).Nodup
    split
    · rename_i hnew
      rw [List.map_append]
      exact (h.keys target).append (List.nodup_singleton _) (by simpa using hnew.2.2)
    · exact h.keys target
  entry target entry hentry := by
    rcases mem_inbound_file.mp hentry with hentry | ⟨⟨htarget, hkind, -⟩, rfl⟩
    · obtain ⟨hkey, htarget, hkind, howned⟩ := h.entry target entry hentry
      exact ⟨hkey, htarget, hkind, mem_owned_file.mpr (.inl howned)⟩
    · exact ⟨rfl, htarget.symm, hkind, mem_owned_file.mpr (.inr ⟨rfl, rfl⟩)⟩
  covered owner s hs hkind := by
    rcases mem_owned_file.mp hs with hs | ⟨-, rfl⟩
    · obtain ⟨entry, hentry, hkey⟩ := h.covered owner s hs hkind
      exact ⟨entry, mem_inbound_file.mpr (.inl hentry), hkey⟩
    · -- either the key stood there before, or the relation is filed under it now
      by_cases hknown : s.foreignKey ∈ (ix.inbound s.target).map fun entry => entry.1
      · obtain ⟨entry, hentry, hkey⟩ := List.mem_map.mp hknown
        exact ⟨entry, mem_inbound_file.mpr (.inl hentry), hkey⟩
      · exact ⟨_, mem_inbound_file.mpr (.inr ⟨⟨rfl, hkind, hknown⟩, rfl⟩), rfl⟩

end Indexes

namespace Registry

variable {registry : Registry} {r : Relation}

/-- The relations of a registry, filed in the order in which they were added. -/
def indexes (registry : Registry) : Indexes := registry.relations.foldl Indexes.file .empty

/-- A new relation is filed behind the others. -/
theorem indexes_add : (registry.add r).indexes = registry.indexes.file r :=
  List.foldl_append

/-- Registering a relation files it, unless its alias is in use already. -/
theorem indexes_register (r : Relation) (registry : Registry) :
    ((register r).run.run registry).2.indexes
      = if registry.has r.owner r.aliasName then registry.indexes else registry.indexes.file r := by
  rw [run_register, has]
  cases registry.get? r.owner r.aliasName with
  | none => exact indexes_add
  | some other =>
    dsimp only [Option.isSome_some]
    split <;> rfl

/-- The relations of an owner are those filed for it. -/
theorem owned_indexes (owner : String) : registry.indexes.owned owner = registry.ownedBy owner := by
  obtain ⟨relations, junctions⟩ := registry
  induction relations using List.reverseRecOn with
  | nil => rfl
  | append_singleton relations r ih =>
    show ((add ⟨relations, junctions⟩ r).indexes).owned owner = List.filter _ (relations ++ [r])
    rw [indexes_add, List.filter_append]
    show (if owner = r.owner then _ else _) = _
    rw [ih]
    by_cases howner : owner = r.owner
    · simp [howner, ownedBy]
    · simp [howner, Ne.symm howner, ownedBy]

/-- A relation that leads to a target is looked for among those filed for it. -/
theorem inbound?_eq (target key : String) : registry.inbound? target key
    = ((registry.indexes.inbound target).find? fun entry => entry.1 == key).map
        fun entry => entry.2 := by
  obtain ⟨relations, junctions⟩ := registry
  induction relations using List.reverseRecOn with
  | nil => rfl
  | append_singleton relations r ih =>
    show List.find? _ (relations ++ [r]) = (((add ⟨relations, junctions⟩ r).indexes.inbound
      target).find? _).map _
    rw [indexes_add, List.find?_append]
    show (inbound? ⟨relations, junctions⟩ target key).or _
      = ((if _ then _ else _ : List _).find? _).map _
    generalize indexes ⟨relations, junctions⟩ = ix at ih ⊢
    rw [ih]
    split
    · rename_i hnew
      obtain ⟨rfl, hkind, -⟩ := hnew
      have hcollection := Relation.isCollection_iff.mpr hkind
      rw [List.find?_append, Option.map_or]
      by_cases hkey : r.foreignKey = key
      · simp [hcollection, hkey]
      · simp [hkey]
    · rename_i hold
      -- a relation that is not filed is found by no key under which none was filed before
      cases hfound : (ix.inbound target).find? fun entry => entry.1 == key with
      | some entry => rfl
      | none =>
        rw [List.find?_singleton, if_neg]
        · rfl
        · simp only [Bool.and_eq_true, beq_iff_eq]
          rintro ⟨⟨rfl, hcollection⟩, rfl⟩
          refine hold ⟨rfl, Relation.isCollection_iff.mp hcollection, fun hknown => ?_⟩
          obtain ⟨entry, hentry, hkey⟩ := List.mem_map.mp hknown
          exact List.find?_eq_none.mp hfound entry hentry (by simpa using hkey)

/-- An alias that a model does not use. -/
theorem not_mem_aliases_of_get? (h : registry.get? r.owner r.aliasName = none) :
    r.aliasName ∉ (registry.indexes.owned r.owner).map fun r => r.aliasName := by
  rw [owned_indexes]
  intro hmem
  obtain ⟨other, hother, halias⟩ := List.mem_map.mp hmem
  exact List.find?_eq_none.mp h other hother (by simpa using halias)

/-- What declarations keep about the indexes. -/
theorem kept_consistent : Kept (fun _ => True) fun registry => registry.indexes.Consistent where
  add _ _ h _ hfree := by
    rw [indexes_add]
    exact h.file (not_mem_aliases_of_get? hfree)
  junction _ _ h _ := h

/-- Declarations only add relations behind those that are there. -/
theorem kept_extends (relations : List Relation) :
    Kept (fun _ => True) fun registry => relations <+: registry.relations where
  add _ _ h _ _ := h.trans (List.prefix_append _ _)
  junction _ _ h _ := h

/-- An alias keeps its meaning when relations are added behind. -/
theorem get?_of_prefix {later : Registry} (h : registry.relations <+: later.relations)
    {model aliasName : String} (hfound : registry.get? model aliasName = some r) :
    later.get? model aliasName = some r :=
  (h.filter _).find?_eq_some hfound

/-- **The indexes of a registry stay consistent.** After any declarations, whether they went well or
failed in the middle, the relations of an owner have different aliases and are its own. Those that
lead to a target have different keys, under which they are filed with their foreign key and target,
and they are relations to many of their owners. Every relation to many of an owner has its key filed
for its target. What a registry answers stands in the indexes, and the relation that is registered
next is filed in them, unless its alias is in use. An alias never changes its meaning. -/
theorem indexes_afterAll (ds : List Declaration) :
    (empty.afterAll ds).indexes.Consistent
      ∧ (∀ owner, (empty.afterAll ds).ownedBy owner = (empty.afterAll ds).indexes.owned owner)
      ∧ (∀ target key, (empty.afterAll ds).inbound? target key
          = (((empty.afterAll ds).indexes.inbound target).find? fun entry => entry.1 == key).map
              fun entry => entry.2)
      ∧ (∀ r, ((register r).run.run (empty.afterAll ds)).2.indexes
          = if (empty.afterAll ds).has r.owner r.aliasName then (empty.afterAll ds).indexes
            else (empty.afterAll ds).indexes.file r)
      ∧ ∀ model aliasName r more, (empty.afterAll ds).get? model aliasName = some r →
          (empty.afterAll (ds ++ more)).get? model aliasName = some r := by
  obtain ⟨hnamed, hconsistent⟩ :=
    afterAll_keeps ds kept_consistent named_empty Indexes.consistent_empty
  refine ⟨hconsistent, fun owner => (owned_indexes owner).symm, inbound?_eq,
    fun r => indexes_register r _, ?_⟩
  intro model aliasName r more hfound
  obtain ⟨-, hextends⟩ := afterAll_keeps more (kept_extends _) hnamed (List.prefix_refl _)
  rw [afterAll, List.foldl_append]
  exact get?_of_prefix hextends hfound

/-- Tags whose posts are declared twice, the second time with a junction. -/
def taggings : List Declaration :=
  let post := Model.empty "Post"
  let tag := Model.empty "Tag"
  [.hasMany tag post none ⟨none, some "tag_id", none, none⟩,
    .manyToMany post tag none ⟨none, none, none, none, none⟩]

/-- The second declaration fails with its last relation, and the three before it are filed. -/
theorem indexes_afterAll_taggings :
    (empty.afterAll taggings).relations.length = 4
      ∧ (empty.afterAll taggings).indexes.Consistent
      ∧ ∀ more, (empty.afterAll (taggings ++ more)).get? "Post" "tags"
        = some ⟨.manyToMany, "tags", "Post", "Tag", "post_id",
            some ⟨"PostTag", "post_tag", "tag_id"⟩⟩ := by
  obtain ⟨hconsistent, -, -, -, hstable⟩ := indexes_afterAll taggings
  exact ⟨by decide +kernel, hconsistent, fun more => hstable _ _ _ more (by decide +kernel)⟩

end Registry

end RecordMapping
