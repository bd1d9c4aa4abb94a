import Mathlib.Data.List.Induction
import Mathlib.Data.List.Nodup
import RecordMapping.Hydration
import RecordMapping.Proofs.Firsts

/-!
# How attributes are read

Hydration reads each column as an attribute of the record. Of several columns that are read as one
attribute the last one counts (`get?_record`). What is read is null only if the column is
(`readValue_isNull`), but it need not be the value of the column: a date is normalized, say.
-/

namespace RecordMapping

namespace Fields

variable {α : Type}

theorem ofList_append_singleton (pairs : List (String × α)) (pair : String × α) :
    ofList (pairs ++ [pair]) = insert pair.1 pair.2 (ofList pairs) := by
  unfold ofList
  rw [List.foldl_append]
  rfl

theorem sorted_ofList (pairs : List (String × α)) : (ofList pairs).Sorted := by
  induction pairs using List.reverseRecOn with
  | nil => exact List.Pairwise.nil
  | append_singleton pairs pair ih =>
    rw [ofList_append_singleton]
    exact ih.insert pair.1 pair.2

theorem get?_ofList (pairs : List (String × α)) (name : String) :
    (ofList pairs).get? name = (pairs.reverse.find? (·.1 == name)).map (·.2) := by
  induction pairs using List.reverseRecOn with
  | nil => rfl
  | append_singleton pairs pair ih =>
    rw [ofList_append_singleton, get?_insert, ih, List.reverse_append, List.reverse_singleton,
      List.singleton_append]
    by_cases hname : pair.1 = name
    · rw [if_pos hname, List.find?_cons_of_pos (by simpa using hname)]
      rfl
    · rw [if_neg hname, List.find?_cons_of_neg (by simpa using hname)]

theorem get?_ofList_of_not_mem {pairs : List (String × α)} {name : String}
    (h : name ∉ pairs.map (·.1)) : (ofList pairs).get? name = none := by
  have hfound : pairs.reverse.find? (·.1 == name) = none := by
    refine List.find?_eq_none.mpr fun pair hpair hname => h ?_
    exact List.mem_map.mpr ⟨pair, List.mem_reverse.mp hpair, eq_of_beq hname⟩
  rw [get?_ofList, hfound]
  rfl

/-- Under different names all pairs can be looked up. -/
theorem get?_ofList_of_mem {pairs : List (String × α)} (hnames : (pairs.map (·.1)).Nodup)
    {pair : String × α} (h : pair ∈ pairs) : (ofList pairs).get? pair.1 = some pair.2 := by
  have hfound : pairs.reverse.find? (·.1 == pair.1) = some pair := by
    refine find?_eq_some_of_unique (List.mem_reverse.mpr h) BEq.rfl fun other hother hname => ?_
    exact List.inj_on_of_nodup_map hnames (List.mem_reverse.mp hother) h (eq_of_beq hname)
  rw [get?_ofList, hfound]
  rfl

/-- Fields come from nowhere else than the list that they were made of. -/
theorem mem_of_mem_ofList {pairs : List (String × α)} {field : String × α}
    (h : field ∈ ofList pairs) : field ∈ pairs := by
  induction pairs using List.reverseRecOn with
  | nil => exact absurd h List.not_mem_nil
  | append_singleton pairs pair ih =>
    rw [ofList_append_singleton] at h
    rw [List.mem_append, List.mem_singleton]
    exact (mem_of_mem_insert h).symm.imp_left ih

end Fields

namespace Hydration

open Sql

variable {model : Model}

/-- The attribute as which a column is read. -/
def readName (model : Model) (column : String) : String :=
  match model.attributeForColumn? column with
  | some a => a.name
  | none => column

/-- What is read from a column that has a given value. -/
def readValue (model : Model) (column : String) (value : Value) : Value :=
  Record.normalized model (readName model column) <|
    match model.attributeForColumn? column with
    | some a => Storage.fromStorage a value
    | none => value

/-- A column as it is read, before the record is put into its form. -/
def readField (model : Model) (cell : String × Value) : String × Value :=
  match model.attributeForColumn? cell.1 with
  | some a => (a.name, Storage.fromStorage a cell.2)
  | none => cell

theorem readField_fst (cell : String × Value) :
    (readField model cell).1 = readName model cell.1 := by
  unfold readField readName
  cases model.attributeForColumn? cell.1 <;> rfl

theorem normalized_readField (cell : String × Value) :
    Record.normalized model (readName model cell.1) (readField model cell).2
      = readValue model cell.1 cell.2 := by
  unfold readField readValue readName
  cases model.attributeForColumn? cell.1 <;> rfl

/-- Of several columns that are read as one attribute the last one counts. -/
theorem get?_record (cells : List (String × Value)) (name : String) :
    (record model cells).get? name
      = (cells.reverse.find? fun cell => readName model cell.1 == name).map fun cell =>
        readValue model cell.1 cell.2 := by
  have hnormalized (fields : Fields Value) :
      Fields.get? (fields.map fun field => (field.1, Record.normalized model field.1 field.2)) name
        = (Fields.get? fields name).map (Record.normalized model name) := by
    induction fields with
    | nil => rfl
    | cons field fields ih =>
      rw [List.map_cons, Fields.get?_cons, ih, Fields.get?_cons]
      by_cases hname : field.1 = name <;> simp [hname]
  have hget : (record model cells).get? name
      = (Fields.get? (Fields.ofList (cells.map (readField model))) name).map
        (Record.normalized model name) :=
    hnormalized _
  have hfind : (fun cell : String × Value => (readField model cell).1 == name)
      = fun cell => readName model cell.1 == name := by
    funext cell
    rw [readField_fst]
  rw [hget, Fields.get?_ofList, ← List.map_reverse, List.find?_map]
  show (((cells.reverse.find? fun cell => (readField model cell).1 == name).map
    (readField model)).map _).map _ = _
  rw [hfind]
  cases hfound : cells.reverse.find? fun cell => readName model cell.1 == name with
  | none => rfl
  | some cell =>
    have hname : readName model cell.1 = name := by simpa using List.find?_some hfound
    show some (Record.normalized model name (readField model cell).2) = some _
    rw [← hname, normalized_readField]

/-- An attribute is read from the last of the selected columns that are read as it. -/
def Reads (model : Model) (refs : List ColumnRef) (name : String) (ref : ColumnRef) : Prop :=
  (refs.reverse.find? fun ref => readName model ref.column == name) = some ref

instance (model : Model) (refs : List ColumnRef) (name : String) (ref : ColumnRef) :
    Decidable (Reads model refs name ref) :=
  inferInstanceAs (Decidable (_ = _))

theorem get?_record_refs (refs : List ColumnRef) (j : ColumnRef → Value) (name : String) :
    (record model (refs.map fun ref => (ref.column, j ref))).get? name
      = (refs.reverse.find? fun ref => readName model ref.column == name).map fun ref =>
        readValue model ref.column (j ref) := by
  rw [get?_record, ← List.map_reverse, List.find?_map, Option.map_map]
  rfl

theorem get?_of_reads {refs : List ColumnRef} {name : String} {ref : ColumnRef}
    (h : Reads model refs name ref) (j : ColumnRef → Value) :
    (record model (refs.map fun ref => (ref.column, j ref))).get? name
      = some (readValue model ref.column (j ref)) := by
  unfold Reads at h
  rw [get?_record_refs, h, Option.map_some]

/-! ## What is read -/

/-- The date form of a value is in date form already. -/
theorem asInstant_asInstant (v : Value) : v.asInstant.asInstant = v.asInstant := by
  cases hinstant : v.instant? with
  | some t =>
    have hform : v.asInstant = .instant t := by rw [Value.asInstant, hinstant]
    rw [hform]
    rfl
  | none =>
    have hform : v.asInstant = v := by rw [Value.asInstant, hinstant]
    rw [hform, hform]

/-- What is read for an attribute has the form that the attribute takes. -/
theorem normalizeInput_fromStorage (a : Attribute) (v : Value) :
    Storage.normalizeInput a (Storage.fromStorage a v) = Storage.fromStorage a v := by
  unfold Storage.normalizeInput
  split
  · rename_i hdate
    have hfrom : Storage.fromStorage a v = .null ∨ Storage.fromStorage a v = v.asInstant := by
      unfold Storage.fromStorage
      rw [eq_of_beq hdate]
      cases v with
      | null => exact .inl rfl
      | _ => exact .inr rfl
    rcases hfrom with hfrom | hfrom
    · rw [hfrom]
    · have hform : (Storage.fromStorage a v).asInstant = Storage.fromStorage a v := by
        rw [hfrom, asInstant_asInstant]
      split
      · exact Eq.symm ‹_›
      · exact Eq.symm ‹_›
      · exact hform
  · rfl

/-- If every column stands for a declared attribute, the record has what is read from the columns;
putting it into form changes nothing. -/
theorem attributes_record {cells : List (String × Value)}
    (h : ∀ cell ∈ cells, ∃ a, model.attributeForColumn? cell.1 = some a
      ∧ model.attribute? a.name = some a) :
    (record model cells).attributes = Fields.ofList (cells.map (readField model)) := by
  refine (List.map_congr_left fun field hfield => ?_).trans (List.map_id _)
  obtain ⟨cell, hcell, rfl⟩ := List.mem_map.mp (Fields.mem_of_mem_ofList hfield)
  obtain ⟨a, hcolumn, hname⟩ := h cell hcell
  have hread : readField model cell = (a.name, Storage.fromStorage a cell.2) := by
    rw [readField, hcolumn]
  show ((readField model cell).1, Record.normalized model (readField model cell).1
    (readField model cell).2) = readField model cell
  rw [hread, Record.normalized, hname]
  exact congrArg (Prod.mk a.name) (normalizeInput_fromStorage a cell.2)

/-- Every value but null identifies something. -/
theorem isSome_identity? (v : Value) : v.identity?.isSome = !v.isNull := by
  cases v with
  | float x =>
    unfold Value.identity?
    dsimp only
    split <;> rfl
  | _ => rfl

/-- That a null is no primary key is told by its identity as well. -/
theorem identity?_eq_bind (r : Record) :
    r.identity? = (r.get? r.model.primaryKey).bind Value.identity? := by
  unfold Record.identity? Record.primaryKey?
  cases r.get? r.model.primaryKey with
  | none => rfl
  | some v => cases v <;> rfl

theorem isSome_primaryKey? {r : Record} (h : r.identity?.isSome) : r.primaryKey?.isSome := by
  unfold Record.identity? at h
  exact Option.isSome_of_isSome_bind h

theorem isNull_asInstant {v : Value} (h : v.isNull = false) : v.asInstant.isNull = false := by
  unfold Value.asInstant
  split
  · rfl
  · exact h

theorem isNull_fromStorage (a : Attribute) {v : Value} (h : v.isNull = false) :
    (Storage.fromStorage a v).isNull = false := by
  unfold Storage.fromStorage
  cases a.type with
  | boolean => rfl
  | date =>
    cases v with
    | null => exact Bool.noConfusion h
    | _ => exact isNull_asInstant rfl
  | json =>
    cases v with
    | str text =>
      dsimp only
      split <;> rfl
    | _ => exact h
  | _ => exact h

theorem isNull_normalized (name : String) {v : Value} (h : v.isNull = false) :
    (Record.normalized model name v).isNull = false := by
  unfold Record.normalized
  cases model.attribute? name with
  | none => exact h
  | some a =>
    show (Storage.normalizeInput a v).isNull = false
    unfold Storage.normalizeInput
    split
    · cases v with
      | null => exact Bool.noConfusion h
      | instant t => rfl
      | _ => exact isNull_asInstant rfl
    · exact h

/-- No null is read from a column that is not null. -/
theorem isNull_readValue (column : String) {v : Value} (h : v.isNull = false) :
    (readValue model column v).isNull = false := by
  unfold readValue
  apply isNull_normalized
  cases model.attributeForColumn? column with
  | none => exact h
  | some a => exact isNull_fromStorage a h

/-- A record whose key is read from a column that is not null has an identity. -/
theorem isSome_identity?_of_reads {refs : List ColumnRef} {ref : ColumnRef}
    (h : Reads model refs model.primaryKey ref) {j : ColumnRef → Value}
    (hkey : (j ref).isNull = false) :
    (record model (refs.map fun ref => (ref.column, j ref))).identity?.isSome := by
  have hget := get?_of_reads h j
  rw [identity?_eq_bind]
  show (Option.bind (Record.get? _ model.primaryKey) _).isSome
  rw [hget, Option.bind_some, isSome_identity?, isNull_readValue ref.column hkey]
  rfl

/-- What is read from a column identifies the same as the value of the column. -/
def KeepsIdentity (model : Model) (column : String) : Prop :=
  ∀ v : Value, v.isNull = false → (readValue model column v).identity? = v.identity?

/-- A number or text is read as it is. -/
theorem readValue_of_plain {column : String}
    (hfrom : ∀ a, model.attributeForColumn? column = some a → a.type = .string ∨ a.type = .number)
    (hname : ∀ a, model.attribute? (readName model column) = some a → a.type ≠ .date) (v : Value) :
    readValue model column v = v := by
  have hnormalized : Record.normalized model (readName model column) v = v := by
    unfold Record.normalized
    cases hattribute : model.attribute? (readName model column) with
    | none => rfl
    | some a =>
      show Storage.normalizeInput a v = v
      unfold Storage.normalizeInput
      exact if_neg (by simpa using hname a hattribute)
  unfold readValue
  cases hattribute : model.attributeForColumn? column with
  | none => exact hnormalized
  | some a =>
    have hstored : Storage.fromStorage a v = v := by
      unfold Storage.fromStorage
      rcases hfrom a hattribute with h | h <;> rw [h]
    show Record.normalized model (readName model column) (Storage.fromStorage a v) = v
    rw [hstored, hnormalized]

/-- What the number six may be read as, depending on what the column stands for. -/
def sixes : List Value := [.int 6, .bool true, (Value.int 6).asInstant]

theorem normalized_sixes (name : String) {v : Value} (h : v ∈ sixes) :
    Record.normalized model name v ∈ sixes := by
  unfold Record.normalized
  cases model.attribute? name with
  | none => exact h
  | some a =>
    show Storage.normalizeInput a v ∈ sixes
    unfold Storage.normalizeInput
    split
    · have hcases : v = .int 6 ∨ v = .bool true ∨ v = (Value.int 6).asInstant := by
        simpa [sixes] using h
      rcases hcases with rfl | rfl | rfl
      · exact List.mem_cons_of_mem _ (List.mem_cons_of_mem _ List.mem_cons_self)
      · exact List.mem_cons_of_mem _ List.mem_cons_self
      · exact List.mem_cons_of_mem _ (List.mem_cons_of_mem _ List.mem_cons_self)
    · exact h

/-- Six is not read as something that five identifies, whatever the column stands for. -/
theorem identity?_readValue_six (column : String) :
    (readValue model column (.int 6)).identity? ≠ some "5" := by
  have hread : readValue model column (.int 6) ∈ sixes := by
    unfold readValue
    apply normalized_sixes
    cases model.attributeForColumn? column with
    | none => exact List.mem_cons_self
    | some a =>
      show Storage.fromStorage a (.int 6) ∈ sixes
      unfold Storage.fromStorage
      cases a.type with
      | boolean => exact List.mem_cons_of_mem _ List.mem_cons_self
      | date => exact List.mem_cons_of_mem _ (List.mem_cons_of_mem _ List.mem_cons_self)
      | _ => exact List.mem_cons_self
  have hsixes : ∀ v ∈ sixes, v.identity? ≠ some "5" := by decide +kernel
  exact hsixes _ hread

end Hydration

end RecordMapping
