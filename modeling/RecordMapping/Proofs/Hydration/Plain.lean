import Mathlib.Data.List.Find
import RecordMapping.Proofs.Hydration.Naming
import RecordMapping.Proofs.Hydration.Reading
import RecordMapping.Proofs.Model.Columns

/-!
# Plain rows

In a row of a plain select each attribute has its own column. A column that no attribute declares is
kept under its own name, and this may be the name of an attribute that is stored in another column.
Then the later one of the two columns counts.

* `get?_plainRow`: what an attribute is read as, in every row;
* `readsColumns_iff`: each attribute is read from its own column, whatever the rows are, exactly if
  the name of every attribute is also the column of one.
-/

namespace RecordMapping

namespace Model

variable {model : Model} {a : Attribute} {column : String}

/-- The attribute of a column is stored there. -/
theorem column_of_attributeForColumn? (h : model.attributeForColumn? column = some a) :
    a ∈ model.attributes ∧ a.column = column := by
  unfold attributeForColumn? at h
  split at h
  · rename_i b hfound
    obtain rfl := Option.some.inj h
    have hcolumn : b.column? = some column := by simpa using List.find?_some hfound
    exact ⟨List.mem_of_find?_eq_some hfound, Attribute.column_of_some hcolumn⟩
  · have hfits : a.name = column ∧ a.column? = none := by simpa using List.find?_some h
    exact ⟨List.mem_of_find?_eq_some h, (Attribute.column_of_none hfits.2).trans hfits.1⟩

/-- A column belongs to no attribute if none is stored in it. -/
theorem attributeForColumn?_eq_none (h : model.DistinctColumns) :
    model.attributeForColumn? column = none ↔ ¬ ∃ a ∈ model.attributes, a.column = column := by
  constructor
  · rintro hnone ⟨a, ha, rfl⟩
    rw [attributeForColumn?_column h ha] at hnone
    exact absurd hnone nofun
  · intro hfree
    by_contra hsome
    obtain ⟨a, ha⟩ := Option.ne_none_iff_exists'.mp hsome
    exact hfree ⟨a, column_of_attributeForColumn? ha⟩

end Model

namespace Hydration

variable {model : Model} {a : Attribute} {row : Row}

/-- The value that takes the place of an attribute's own: that of a column which bears the name of
the attribute, is declared by none, and comes after the attribute's column. -/
def usurper? (model : Model) (row : Row) (a : Attribute) : Option Value :=
  if (model.attributeForColumn? a.name).isSome then none
  else ((row.cells.dropWhile (·.1 != a.column)).find? (·.1 == a.name)).map (·.2)

/-- What an attribute is read as in a row where its column has a given value. -/
def readAs (model : Model) (row : Row) (a : Attribute) (value : Value) : Value :=
  match usurper? model row a with
  | some other => Storage.normalizeInput a other
  | none => Storage.fromStorage a value

/-- In every row each attribute is read from its own column, if this is there. -/
def ReadsColumns (model : Model) : Prop :=
  ∀ (pairs : List (String × Value)), ∀ a ∈ model.attributes, ∀ value,
    (Row.ofList pairs).get? a.column = some value →
      (plainRow model (Row.ofList pairs)).record.get? a.name
        = some (Storage.fromStorage a value)

/-- A column that is there divides the row. -/
theorem exists_cells_eq {column : String} {value : Value} (h : row.get? column = some value) :
    ∃ before after, row.cells = before ++ (column, value) :: after
      ∧ row.cells.dropWhile (·.1 != column) = (column, value) :: after := by
  obtain ⟨cell, hfound, rfl⟩ := Option.map_eq_some_iff.mp h
  obtain ⟨hcolumn, before, after, hcells, hbefore⟩ := List.find?_eq_some_iff_append.mp hfound
  obtain rfl := eq_of_beq hcolumn
  refine ⟨before, after, hcells, ?_⟩
  rw [hcells, List.dropWhile_append_of_pos (by simpa using hbefore),
    List.dropWhile_cons_of_neg (by simp)]

/-- The columns that are read as an attribute are its own one and, if its name is no column of an
attribute, that of its name. -/
theorem readName_eq_iff (hmodel : model.Declared) (hcolumns : model.DistinctColumns)
    (ha : a ∈ model.attributes) (column : String) :
    readName model column = a.name
      ↔ column = a.column ∨ model.attributeForColumn? a.name = none ∧ column = a.name := by
  unfold readName
  cases hfound : model.attributeForColumn? column with
  | some b =>
    obtain ⟨hb, hcolumn⟩ := Model.column_of_attributeForColumn? hfound
    show b.name = a.name ↔ _
    constructor
    · intro hname
      rw [← List.inj_on_of_nodup_map hmodel.nodup_names hb ha hname]
      exact .inl hcolumn.symm
    · rintro (rfl | ⟨hnone, rfl⟩)
      · rw [List.inj_on_of_nodup_map hcolumns hb ha hcolumn]
      · rw [hnone] at hfound
        exact absurd hfound nofun
  | none =>
    show column = a.name ↔ _
    constructor
    · rintro rfl
      exact .inr ⟨hfound, rfl⟩
    · rintro (rfl | ⟨-, rfl⟩)
      · rw [Model.attributeForColumn?_column hcolumns ha] at hfound
        exact absurd hfound nofun
      · rfl

theorem readValue_column (hmodel : model.Declared) (hcolumns : model.DistinctColumns)
    (ha : a ∈ model.attributes) (value : Value) :
    readValue model a.column value = Storage.fromStorage a value := by
  unfold readValue readName
  rw [Model.attributeForColumn?_column hcolumns ha]
  show Record.normalized model a.name _ = _
  rw [Record.normalized, Model.attribute?_of_mem hmodel ha]
  exact normalizeInput_fromStorage a value

theorem readValue_name (hmodel : model.Declared) (ha : a ∈ model.attributes)
    (hnone : model.attributeForColumn? a.name = none) (value : Value) :
    readValue model a.name value = Storage.normalizeInput a value := by
  unfold readValue readName
  rw [hnone]
  show Record.normalized model a.name value = _
  rw [Record.normalized, Model.attribute?_of_mem hmodel ha]

/-- Under different names it makes no difference from which end a column is searched for. -/
theorem find?_reverse_name {cells : List (String × Value)} (h : (cells.map (·.1)).Nodup)
    (name : String) :
    cells.reverse.find? (·.1 == name) = cells.find? (·.1 == name) := by
  apply List.find?_eq_find?_of_perm cells.reverse_perm
  rintro cell ⟨hcell, hname⟩ other ⟨hother, hsame⟩
  apply List.inj_on_of_nodup_map h (List.mem_reverse.mp hcell) (List.mem_reverse.mp hother)
  rw [eq_of_beq hname, eq_of_beq hsame]

/-- An attribute whose column is in the row is read from there, unless its place is taken. -/
theorem get?_plainRow (hmodel : model.Declared) (hcolumns : model.DistinctColumns)
    (ha : a ∈ model.attributes) (hrow : row.names.Nodup) {value : Value}
    (hvalue : row.get? a.column = some value) :
    (plainRow model row).record.get? a.name = some (readAs model row a value) := by
  obtain ⟨before, after, hcells, hrest⟩ := exists_cells_eq hvalue
  have hreads := readName_eq_iff hmodel hcolumns ha
  have hnodup : (((a.column, value) :: after).map (·.1)).Nodup := by
    unfold Row.names at hrow
    rw [hcells, List.map_append] at hrow
    exact hrow.of_append_right
  rw [List.map_cons, List.nodup_cons] at hnodup
  have hown : a.column ∉ after.map (·.1) := hnodup.1
  have hafter : (after.map (·.1)).Nodup := hnodup.2
  have hbehind : ∀ cell ∈ after, cell.1 ≠ a.column := by
    intro cell hcell hsame
    apply hown
    rw [← hsame]
    exact List.mem_map_of_mem hcell
  show (record model row.cells).get? a.name = _
  rw [get?_record, hcells, List.reverse_append, List.reverse_cons, List.append_assoc,
    List.find?_append, List.singleton_append,
    List.find?_cons_of_pos (by simpa using (hreads a.column).mpr (.inl rfl))]
  -- behind the column only that of the attribute's name may be read as the attribute
  unfold readAs usurper?
  rw [hrest]
  by_cases hnone : model.attributeForColumn? a.name = none
  · have hother : a.column ≠ a.name := by
      intro hsame
      rw [← hsame, Model.attributeForColumn?_column hcolumns ha] at hnone
      exact absurd hnone nofun
    have hsearch : after.reverse.find? (fun cell => readName model cell.1 == a.name)
        = after.find? (·.1 == a.name) := by
      rw [← find?_reverse_name hafter]
      apply List.find?_congr
      intro cell hcell
      have hcolumn : cell.1 ≠ a.column := hbehind cell (List.mem_reverse.mp hcell)
      rw [Bool.eq_iff_iff, beq_iff_eq, beq_iff_eq, hreads]
      simp [hcolumn, hnone]
    rw [hsearch, hnone, if_neg (by simp), List.find?_cons_of_neg (by simpa using hother)]
    cases hfound : after.find? (·.1 == a.name) with
    | none =>
      show some (readValue model a.column value) = _
      rw [readValue_column hmodel hcolumns ha]
      rfl
    | some cell =>
      have hname : cell.1 = a.name := by simpa using List.find?_some hfound
      show some (readValue model cell.1 cell.2) = _
      rw [hname, readValue_name hmodel ha hnone]
      rfl
  · have hsearch : after.reverse.find? (fun cell => readName model cell.1 == a.name) = none := by
      rw [List.find?_eq_none]
      intro cell hcell hread
      rcases (hreads cell.1).mp (eq_of_beq hread) with hcolumn | ⟨hfree, -⟩
      · exact hbehind cell (List.mem_reverse.mp hcell) hcolumn
      · exact hnone hfree
    rw [hsearch, if_pos (by rwa [Option.isSome_iff_ne_none])]
    show some (readValue model a.column value) = _
    rw [readValue_column hmodel hcolumns ha]

/-- True is not what any attribute reads from a null. -/
theorem normalizeInput_true_ne (a : Attribute) :
    Storage.normalizeInput a (.bool true) ≠ Storage.fromStorage a .null := by
  unfold Storage.normalizeInput Storage.fromStorage
  cases a.type <;> simp [Value.asInstant, Value.instant?, Value.isTruthy]

/-- A column that no attribute has, but whose name is that of one, can take the place of its own. -/
theorem exists_usurper (hmodel : model.Declared) (hcolumns : model.DistinctColumns)
    (ha : a ∈ model.attributes) (hfree : ¬ ∃ b ∈ model.attributes, b.column = a.name) :
    ¬ ReadsColumns model := by
  intro h
  let pairs : List (String × Value) := [(a.column, .null), (a.name, .bool true)]
  have hother : a.column ≠ a.name := fun hsame => hfree ⟨a, ha, hsame⟩
  have hcells : (Row.ofList pairs).cells = pairs := Row.cells_ofList (by simp [pairs, hother])
  have hvalue : (Row.ofList pairs).get? a.column = some .null := by
    unfold Row.get?
    rw [hcells]
    simp [pairs]
  have hread := get?_plainRow hmodel hcolumns ha (Row.nodup_names_ofList pairs) hvalue
  have husurper : usurper? model (Row.ofList pairs) a = some (.bool true) := by
    unfold usurper?
    rw [hcells, (Model.attributeForColumn?_eq_none hcolumns).mpr hfree]
    simp [pairs, hother]
  rw [h pairs a ha .null hvalue, readAs, husurper, Option.some.injEq] at hread
  exact normalizeInput_true_ne a hread.symm

/-- **Where the attributes of a plain row come from.** In a model whose attributes have different
columns, an attribute whose column is in the row is read from there, unless a later column, declared
by no attribute, bears its name. So all rows are read right exactly if the name of every attribute
is the column of one. -/
theorem readsColumns_iff (hmodel : model.Declared) (hcolumns : model.DistinctColumns) :
    (∀ (pairs : List (String × Value)), ∀ a ∈ model.attributes, ∀ value,
      (Row.ofList pairs).get? a.column = some value →
        (plainRow model (Row.ofList pairs)).record.get? a.name
          = some (readAs model (Row.ofList pairs) a value))
    ∧ (ReadsColumns model
      ↔ ∀ a ∈ model.attributes, ∃ b ∈ model.attributes, b.column = a.name) := by
  refine ⟨fun pairs a ha value => get?_plainRow hmodel hcolumns ha
    (Row.nodup_names_ofList pairs), ?_⟩
  constructor
  · intro h a ha
    by_contra hfree
    exact exists_usurper hmodel hcolumns ha hfree h
  · intro h pairs a ha value hvalue
    have hread := get?_plainRow hmodel hcolumns ha (Row.nodup_names_ofList pairs) hvalue
    have hnamed : model.attributeForColumn? a.name ≠ none := by
      intro hnone
      exact (Model.attributeForColumn?_eq_none hcolumns).mp hnone (h a ha)
    rw [hread, readAs, usurper?, if_pos (Option.isSome_iff_ne_none.mpr hnamed)]

/-- Users whose full name is stored in the column `name`. -/
def namedUsers : Model :=
  ⟨"User", some "users", "id",
    [.plain "id" .number, ⟨"fullname", .string, some "name", none, none⟩]⟩

/-- A column `fullname` that comes after `name` takes its place. -/
theorem not_readsColumns_namedUsers :
    namedUsers.Declared ∧ namedUsers.DistinctColumns ∧ ¬ ReadsColumns namedUsers
      ∧ (plainRow namedUsers (Row.ofList
          [("id", .int 1), ("name", .str "alex"), ("fullname", .str "x")])).record.get? "fullname"
        = some (.str "x") := by
  have hmodel : namedUsers.Declared :=
    .declare (.declare (.start "User" (some "users") "id") (.plain "id" .number))
      ⟨"fullname", .string, some "name", none, none⟩
  have hcolumns : namedUsers.DistinctColumns := by decide
  obtain ⟨hread, hall⟩ := readsColumns_iff hmodel hcolumns
  refine ⟨hmodel, hcolumns, fun h => absurd (hall.mp h) (by decide), ?_⟩
  exact hread _ ⟨"fullname", .string, some "name", none, none⟩
    (List.mem_cons_of_mem _ List.mem_cons_self) (.str "alex") rfl

end Hydration

end RecordMapping
