import RecordMapping.Proofs.Hydration.Delivery

/-!
# Rows of a join

A row of a join has values for all columns of the joined tables, and the select returns some of
them. If the names of its columns are unambiguous, what hydration finds in a row of the result can
be told from the row of the join (`Selection.nestedRow_result`): the values of the selected columns
make up the record and the related records, and each relation has its mark.
-/

namespace RecordMapping.Hydration

open Expansion Sql

/-- If only one entry of a list adds anything, the others may be left out. -/
theorem flatMap_zipIdx_single {α β : Type} {as : List α} {i : Nat} {a : α} (h : as[i]? = some a)
    {f : α × Nat → List β} (hother : ∀ b k, k ≠ i → f (b, k) = []) :
    as.zipIdx.flatMap f = f (a, i) := by
  have hmem : (a, i) ∈ as.zipIdx := List.mem_zipIdx_iff_getElem?.mpr h
  obtain ⟨before, after, hzip⟩ := List.append_of_mem hmem
  have hnodup : (as.zipIdx.map Prod.snd).Nodup := by
    rw [List.zipIdx_map_snd]
    exact List.nodup_range'
  rw [hzip, List.map_append, List.map_cons, List.nodup_append, List.nodup_cons] at hnodup
  have hbefore : before.flatMap f = [] := by
    rw [List.flatMap_eq_nil_iff]
    intro entry hentry
    exact hother entry.1 entry.2 (hnodup.2.2 _ (List.mem_map_of_mem hentry) _ List.mem_cons_self)
  have hafter : after.flatMap f = [] := by
    rw [List.flatMap_eq_nil_iff]
    intro entry hentry
    exact hother entry.1 entry.2 fun heq =>
      hnodup.2.1.1 (List.mem_map.mpr ⟨entry, hentry, heq⟩)
  rw [hzip, List.flatMap_append, List.flatMap_cons, hbefore, hafter, List.nil_append,
    List.append_nil]

/-- A row of a join: the values of all columns of the joined tables, whether they are selected or
not. -/
abbrev Joined := ColumnRef → Value

namespace Selection

variable (sel : Selection)

/-- The columns that are selected of the records. -/
def ownRefs : List ColumnRef :=
  (selectedNames sel.model sel.requested).map fun name => sel.stored ⟨sel.start, name⟩

/-- The columns that are selected of related records. -/
def relatedRefs (relation : Included) : List ColumnRef :=
  (selectedNames relation.target []).map fun name => sel.stored ⟨relation.aliasName, name⟩

/-- The row of the result for a row of the join. -/
def result (j : Joined) : Row := sel.row (sel.cells.map fun cell => j cell.ref)

/-- The record in a row of the join. -/
def own (j : Joined) : Record := record sel.model (sel.ownRefs.map fun ref => (ref.column, j ref))

/-- The related record in a row of the join. -/
def related (relation : Included) (j : Joined) : Record :=
  record relation.target ((sel.relatedRefs relation).map fun ref => (ref.column, j ref))

/-- The column that marks which record a related one belongs to. -/
def mark (relation : Included) : ColumnRef := sel.stored (markerRef sel.base sel.model relation)

/-- What a row of the join holds of a relation. -/
def part (j : Joined) (relation : Included) : RelatedRow :=
  { aliasName := relation.aliasName
    record? := if (sel.related relation j).primaryKey?.isSome then some (sel.related relation j)
      else none
    marker? := (some (j (sel.mark relation))).filter fun value => !value.isNull }

/-- What a row of the join holds. -/
def hydrated (j : Joined) : HydratedRow := ⟨sel.own j, sel.included.map (sel.part j)⟩

/-- The values in a row of the join, at the places where they belong. -/
def placed (j : Joined) : List (Place × Value) := sel.cells.map fun cell => (cell.home, j cell.ref)

variable {sel}

/-! ## Columns of one place -/

theorem relation?_of_mem_ownCells {cell : Cell} (h : cell ∈ sel.ownCells) :
    cell.home.relation? = none := by
  obtain ⟨name, -, rfl⟩ := List.mem_map.mp h
  rfl

theorem relation?_of_mem_relationCells {relation : Included} {i : Nat} {cell : Cell}
    (h : cell ∈ sel.relationCells relation i) : cell.home.relation? = some i := by
  rcases List.mem_append.mp h with h | h
  · obtain ⟨name, -, rfl⟩ := List.mem_map.mp h
    rfl
  · rw [List.mem_singleton.mp h]
    rfl

/-- What is collected from the records' own columns. -/
theorem filterMap_ownCells {β : Type} {f : Cell → Option β}
    (hother : ∀ cell : Cell, cell.home.relation? ≠ none → f cell = none) :
    sel.cells.filterMap f = sel.ownCells.filterMap f := by
  have hrelations : (sel.included.zipIdx.flatMap fun entry =>
      sel.relationCells entry.1 entry.2).filterMap f = [] := by
    rw [List.filterMap_eq_nil_iff]
    intro cell hcell
    obtain ⟨entry, -, hcell⟩ := List.mem_flatMap.mp hcell
    apply hother
    rw [relation?_of_mem_relationCells hcell]
    exact Option.some_ne_none _
  unfold cells
  rw [List.filterMap_append, hrelations, List.append_nil]

/-- What is collected from the columns of one relation. -/
theorem filterMap_relationCells {β : Type} {f : Cell → Option β} {i : Nat} {relation : Included}
    (h : sel.included[i]? = some relation)
    (hother : ∀ cell : Cell, cell.home.relation? ≠ some i → f cell = none) :
    sel.cells.filterMap f = (sel.relationCells relation i).filterMap f := by
  have hown : sel.ownCells.filterMap f = [] := by
    rw [List.filterMap_eq_nil_iff]
    intro cell hcell
    apply hother
    rw [relation?_of_mem_ownCells hcell]
    exact Ne.symm (Option.some_ne_none i)
  unfold cells
  rw [List.filterMap_append, hown, List.nil_append, List.filterMap_flatMap]
  apply flatMap_zipIdx_single h
  intro other k hk
  rw [List.filterMap_eq_nil_iff]
  intro cell hcell
  apply hother
  rw [relation?_of_mem_relationCells hcell]
  exact fun heq => hk (Option.some.inj heq)

theorem baseCells_placed (j : Joined) :
    baseCells (sel.placed j) = sel.ownRefs.map fun ref => (ref.column, j ref) := by
  unfold baseCells placed
  rw [List.filterMap_map, filterMap_ownCells]
  · unfold ownCells ownRefs
    rw [List.filterMap_map, List.map_map, ← List.filterMap_eq_map]
    rfl
  · intro cell hcell
    obtain ⟨home, start, ref⟩ := cell
    cases home with
    | base column => exact absurd rfl hcell
    | _ => rfl

theorem relatedCells_placed (j : Joined) {i : Nat} {relation : Included}
    (h : sel.included[i]? = some relation) :
    relatedCells (sel.placed j) i
      = (sel.relatedRefs relation).map fun ref => (ref.column, j ref) := by
  unfold relatedCells placed
  rw [List.filterMap_map, filterMap_relationCells h]
  · unfold relationCells relatedRefs
    rw [List.filterMap_append, List.filterMap_map, List.map_map, ← List.filterMap_eq_map]
    -- the marker is not one of the columns
    exact (List.append_nil _).trans (List.filterMap_congr fun name _ => if_pos BEq.rfl)
  · intro cell hcell
    obtain ⟨home, start, ref⟩ := cell
    cases home with
    | related k column =>
      have hk : (i == k) = false := by
        rw [beq_eq_false_iff_ne]
        rintro rfl
        exact hcell rfl
      show (if (i == k) = true then _ else none) = none
      rw [hk]
      rfl
    | _ => rfl

theorem markerOf?_placed (j : Joined) {i : Nat} {relation : Included}
    (h : sel.included[i]? = some relation) :
    markerOf? (sel.placed j) i
      = (some (j (sel.mark relation))).filter fun value => !value.isNull := by
  unfold markerOf? placed
  rw [List.filterMap_map, filterMap_relationCells h]
  · unfold relationCells
    rw [List.filterMap_append, List.filterMap_map]
    have hcolumns : (selectedNames relation.target []).filterMap
        (((fun entry : Place × Value => if entry.1 = .marker i then some entry.2 else none)
          ∘ fun cell : Cell => (cell.home, j cell.ref)) ∘ sel.relatedCell relation i) = [] := by
      simp [relatedCell]
    have hmarker : [sel.markerCell relation i].filterMap
        ((fun entry : Place × Value => if entry.1 = .marker i then some entry.2 else none)
          ∘ fun cell : Cell => (cell.home, j cell.ref)) = [j (sel.mark relation)] := by
      simp [markerCell, mark]
    show (List.getLast? (_ ++ _)).filter _ = _
    rw [hcolumns, hmarker]
    rfl
  · intro cell hcell
    refine if_neg fun hmarker => hcell ?_
    rw [show cell.home = .marker i from hmarker]
    rfl

/-- The values at the places where they belong make up what the row of the join holds. -/
theorem hydratedRow_placed (j : Joined) :
    hydratedRow sel.model sel.included (sel.placed j) = sel.hydrated j := by
  unfold hydratedRow hydrated
  rw [baseCells_placed]
  congr 1
  apply List.ext_getElem?
  intro i
  rw [List.getElem?_map, List.getElem?_map, List.getElem?_zipIdx, Nat.zero_add]
  cases hrelation : sel.included[i]? with
  | none => rfl
  | some relation =>
    show some (relatedRow (sel.placed j) relation i) = some (sel.part j relation)
    unfold relatedRow part related
    rw [relatedCells_placed j hrelation, markerOf?_placed j hrelation]

/-! ## Rows of the result -/

/-- If names are unambiguous, hydration finds what a row of the join holds. -/
theorem nestedRow_result (hstarts : (sel.start :: sel.aliases).Nodup) (h : sel.Unambiguous)
    {j : Joined} (hkey : (sel.own j).primaryKey?.isSome) :
    nestedRow sel.model sel.start sel.included (sel.result j) = .ok (sel.hydrated j) := by
  have hplaced : sel.homes.zip (sel.cells.map fun cell => j cell.ref) = sel.placed j :=
    List.zip_map'
  have hdelivers :=
    delivers_of_unambiguous hstarts h (List.length_map fun cell : Cell => j cell.ref)
  rw [← hydratedRow_placed, ← hplaced]
  apply hdelivers.hydrated
  rw [hplaced, baseCells_placed]
  exact hkey

end Selection

end RecordMapping.Hydration
