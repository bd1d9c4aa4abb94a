import Mathlib.Data.List.Nodup
import RecordMapping.Proofs.Query.Expansion

/-!
# What loaded relations add to a select

Relations are loaded one after the other. Here the outcome is described at once: the relations that
are loaded have different aliases, none of which is that of the records' own table, and each adds
its joins, the columns of its target and its marker (`loaded_of_loadRelations`).
-/

namespace RecordMapping.Expansion

open Sql

variable {schema : Schema} {model : Model} {base : TableRef}

/-- The column by which the rows of a loaded relation are told whose they are. -/
def markerRef (base : TableRef) (model : Model) (relation : Included) : ColumnRef :=
  (relationJoins base model relation.relation relation.target relation.aliasName).2

/-- What a loaded relation adds to the columns of a select. -/
def relationItems (base : TableRef) (model : Model) (relation : Included) : List SelectItem :=
  prefixedItems relation.target relation.aliasName []
    ++ [.column (markerRef base model relation) (.exact relation.marker)]

/-- The joins by which a relation is loaded. -/
def loadingJoins (base : TableRef) (model : Model) (relation : Included) : List (Join Select) :=
  (relationJoins base model relation.relation relation.target relation.aliasName).1

/-- Loaded relations, with everything that they add. -/
structure Loaded (schema : Schema) (model : Model) (base : TableRef) (loading : Loading) :
    Prop where
  distinct : (loading.included.map (·.aliasName)).Nodup
  apart : ∀ relation ∈ loading.included, relation.aliasName ≠ base.aliasName
  known : ∀ relation ∈ loading.included,
    schema.relation? model.name relation.aliasName = some relation.relation
      ∧ schema.model relation.relation.target = .ok relation.target
  items : loading.items = loading.included.flatMap (relationItems base model)
  joins : loading.joins = loading.included.flatMap (loadingJoins base model)

theorem loaded_nil : Loaded schema model base ⟨[], [], []⟩ where
  distinct := .nil
  apart := by simp
  known := by simp
  items := rfl
  joins := rfl

/-- One more relation. -/
theorem loaded_loadRelation {loading loading' : Loading} {aliasName : String}
    (h : loadRelation schema model base loading aliasName = .ok loading')
    (hloading : Loaded schema model base loading) : Loaded schema model base loading' := by
  unfold loadRelation at h
  split at h
  · rwa [← Except.ok.inj h]
  · rename_i hnew
    split at h
    · rwa [← Except.ok.inj h]
    · rename_i r hr
      split at h
      · exact absurd h nofun
      · rename_i hfree
        obtain ⟨target, htarget, h⟩ := bind_eq_ok.mp h
        rw [← Except.ok.inj h]
        have hbase : aliasName ≠ base.aliasName := by
          intro heq
          apply hfree
          rw [heq, BEq.rfl, Bool.true_or]
        have hother : ∀ relation ∈ loading.included, relation.aliasName ≠ aliasName := by
          simpa using hnew
        constructor
        · rw [List.map_append, List.nodup_append]
          refine ⟨hloading.distinct, List.nodup_singleton _, ?_⟩
          simp only [List.mem_map, List.mem_singleton]
          rintro _ ⟨relation, hrelation, rfl⟩ _ ⟨_, rfl, rfl⟩
          exact hother relation hrelation
        · exact List.forall_mem_append.mpr ⟨hloading.apart, by simpa using hbase⟩
        · exact List.forall_mem_append.mpr ⟨hloading.known, by simpa using ⟨hr, htarget⟩⟩
        · rw [List.flatMap_append, ← hloading.items, List.flatMap_singleton, List.append_assoc]
          rfl
        · rw [List.flatMap_append, ← hloading.joins, List.flatMap_singleton]
          rfl

/-- What loaded relations add is added relation by relation. -/
theorem loaded_of_loadRelations {loading : Loading} {aliases : List String}
    (h : loadRelations schema model base aliases = .ok loading) :
    Loaded schema model base loading :=
  foldlM_invariant (fun _ _ _ hloading h => loaded_loadRelation h hloading) loaded_nil h

end RecordMapping.Expansion
