import Mathlib.Data.List.Nodup
import RecordMapping.Model
import RecordMapping.Proofs.Firsts

/-!
# Attributes and their columns

A model tells the column of an attribute and the attribute of a column. These are two searches, by
different keys and with different defaults. Where no two attributes share a column, each undoes the
other (`attributeForColumn?_column`), whatever the names are: an attribute may be stored under the
name of another one.
-/

namespace RecordMapping

theorem Attribute.column_of_some {a : Attribute} {column : String} (h : a.column? = some column) :
    a.column = column := by
  rw [Attribute.column, h, Option.getD_some]

theorem Attribute.column_of_none {a : Attribute} (h : a.column? = none) : a.column = a.name := by
  rw [Attribute.column, h, Option.getD_none]

namespace Model

/-- The model was put together by declaring its attributes one after the other. -/
inductive Declared : Model → Prop where
  | start (name : String) (table? : Option String) (primaryKey : String) :
      Declared ⟨name, table?, primaryKey, []⟩
  | declare {model : Model} (h : Declared model) (a : Attribute) : Declared (model.declare a)

/-- No two attributes are stored in the same column. -/
def DistinctColumns (model : Model) : Prop := (model.attributes.map (·.column)).Nodup

instance (model : Model) : Decidable model.DistinctColumns :=
  inferInstanceAs (Decidable (List.Nodup _))

/-! ## Names -/

/-- A new attribute brings its name and no other one. -/
theorem mem_names_insertAttribute (a : Attribute) (attributes : List Attribute) (name : String) :
    name ∈ (insertAttribute a attributes).map (·.name)
      ↔ name = a.name ∨ name ∈ attributes.map (·.name) := by
  induction attributes with
  | nil => simp [insertAttribute]
  | cons b rest ih =>
    rw [insertAttribute]
    split
    · rename_i hname
      rw [List.map_cons, List.map_cons, List.mem_cons, List.mem_cons, eq_of_beq hname]
      exact ⟨fun h => .inr h, fun h => h.elim .inl id⟩
    · rw [List.map_cons, List.mem_cons, ih, List.map_cons, List.mem_cons, or_left_comm]

theorem nodup_insertAttribute (a : Attribute) {attributes : List Attribute}
    (h : (attributes.map (·.name)).Nodup) :
    ((insertAttribute a attributes).map (·.name)).Nodup := by
  induction attributes with
  | nil => exact List.nodup_singleton _
  | cons b rest ih =>
    rw [List.map_cons, List.nodup_cons] at h
    rw [insertAttribute]
    split
    · rename_i hname
      rw [List.map_cons, List.nodup_cons, ← eq_of_beq hname]
      exact h
    · rename_i hname
      rw [List.map_cons, List.nodup_cons, mem_names_insertAttribute, not_or]
      exact ⟨⟨by simpa using hname, h.1⟩, ih h.2⟩

/-- A declaration replaces an earlier one of the same name. -/
theorem Declared.nodup_names {model : Model} (h : model.Declared) :
    (model.attributes.map (·.name)).Nodup := by
  induction h with
  | start name table? primaryKey => exact .nil
  | declare h a ih => exact nodup_insertAttribute a ih

/-! ## There and back -/

variable {model : Model} {a : Attribute}

theorem attribute?_of_mem (h : model.Declared) (ha : a ∈ model.attributes) :
    model.attribute? a.name = some a := by
  refine find?_eq_some_of_unique ha BEq.rfl fun b hb hname => ?_
  exact List.inj_on_of_nodup_map h.nodup_names hb ha (eq_of_beq hname)

theorem columnFor_of_mem (h : model.Declared) (ha : a ∈ model.attributes) :
    model.columnFor a.name = a.column := by
  unfold columnFor
  rw [attribute?_of_mem h ha]

/-- Where no two attributes share a column, the column of an attribute leads back to it. -/
theorem attributeForColumn?_column (h : model.DistinctColumns) (ha : a ∈ model.attributes) :
    model.attributeForColumn? a.column = some a := by
  have hunique : ∀ b ∈ model.attributes, b.column = a.column → b = a :=
    fun b hb hcolumn => List.inj_on_of_nodup_map h hb ha hcolumn
  unfold attributeForColumn?
  cases hfound : model.attributes.find? (·.column? == some a.column) with
  | some b =>
    have hb : b.column? = some a.column := by simpa using List.find?_some hfound
    rw [hunique b (List.mem_of_find?_eq_some hfound) (Attribute.column_of_some hb)]
  | none =>
    -- then the attribute is stored under its own name, and found by the second search
    have hnamed : a.column? ≠ some a.column := by
      simpa using List.find?_eq_none.mp hfound a ha
    cases hcolumn? : a.column? with
    | some column =>
      rw [Attribute.column_of_some hcolumn?] at hnamed
      exact absurd hcolumn? hnamed
    | none =>
      have hcolumn : a.column = a.name := Attribute.column_of_none hcolumn?
      refine find?_eq_some_of_unique ha (by simp [hcolumn, hcolumn?]) fun b hb hfits => ?_
      obtain ⟨hname, hplain⟩ : b.name = a.column ∧ b.column? = none := by simpa using hfits
      exact hunique b hb ((Attribute.column_of_none hplain).trans hname)

end Model

end RecordMapping
