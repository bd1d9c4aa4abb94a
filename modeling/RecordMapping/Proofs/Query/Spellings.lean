import RecordMapping.Proofs.Query.Readings

/-!
# Spellings of a descriptor

The same descriptor can be written in several ways: as a shorthand or in the structured style, with
`sort` or with `order`, with its names in an array or between commas.

* `splitNames_intercalate`: a list of names is read back from the text that commas make of it;
* `alike_writtenOut`, `alike_sortAsOrder` and `alike_names`: in which parts two spellings agree;
* `spellings_agree`: all spellings stand for the same query, or have the same fault.
-/

namespace RecordMapping

open Text

namespace Text

/-! ## Lists of names -/

theorem splitChars_eq_splitOn (separator : Char) (cs : List Char) :
    splitChars separator cs = cs.splitOn separator := by
  induction cs with
  | nil => rfl
  | cons c cs ih =>
    rw [splitChars, ih, List.splitOn_cons_eq_if_modifyHead]
    split
    · rfl
    · have hne := List.splitOn_ne_nil separator cs
      cases hsplit : cs.splitOn separator with
      | nil => exact absurd hsplit hne
      | cons piece rest => rfl

/-- Names without commas are read back from the text that commas make of them. -/
theorem splitNames_intercalate {names : List String} (h : ∀ name ∈ names, ',' ∉ name.toList) :
    splitNames (",".intercalate names) = (names.map trim).filter (· != "") := by
  by_cases hnames : names = []
  · subst hnames
    decide
  · have hpieces : splitChars ',' (",".intercalate names).toList = names.map String.toList := by
      rw [splitChars_eq_splitOn, String.toList_intercalate]
      refine List.splitOn_intercalate ',' ?_ (by simpa using hnames)
      intro piece hpiece
      obtain ⟨name, hname, rfl⟩ := List.mem_map.mp hpiece
      exact h name hname
    rw [splitNames, hpieces, List.map_map]
    rfl

end Text

namespace Descriptor

/-! ## The spellings -/

/-- The keys of a shorthand in the structured style: the reserved ones as they are, and all others
in an object under `where`. -/
def writtenOut (fields : Fields Json) : Fields Json :=
  Fields.insert "where" (.obj (fields.filter fun entry => !isReserved entry.1))
    (fields.filter fun entry => isReserved entry.1)

/-- A descriptor with `order` in place of `sort`. -/
def sortAsOrder (d : Descriptor) : Descriptor :=
  match d.fields.get? "sort" with
  | none => d
  | some sort => { d with fields := Fields.insert "order" sort (d.fields.erase "sort") }

/-- The names in an array. -/
def nameArray (names : List String) : Json := .arr (names.map .str)

/-- The names between commas. -/
def nameText (names : List String) : Json := .str (",".intercalate names)

end Descriptor

namespace Query

open Descriptor

variable {config : Config} {d : Descriptor}

/-! ## Where spellings agree -/

/-- An array of names is read like the text. -/
theorem readNames_array (field : String) {names : List String}
    (h : ∀ name ∈ names, ',' ∉ name.toList) :
    readNames field (some (nameArray names)) = readNames field (some (nameText names)) := by
  have hitems (f : Json → Result String) (hf : ∀ text, f (.str text) = .ok (trim text)) :
      (names.map Json.str).mapM f = .ok (names.map trim) := by
    rw [mapM_eq_ok, List.forall₂_map_left_iff, List.forall₂_map_right_iff]
    exact List.forall₂_same.mpr fun name _ => hf name
  simp only [readNames, nameArray, nameText]
  rw [hitems _ fun text => rfl, splitNames_intercalate h]
  rfl

theorem readOrder_array {names : List String} (h : ∀ name ∈ names, ',' ∉ name.toList) :
    readOrder (some (nameArray names)) = readOrder (some (nameText names)) :=
  congrArg (fun x => do .ok ((← x).map readOrderEntry)) (readNames_array "order" h)

/-- A list of names reads alike in both forms, wherever names are expected. -/
theorem alike_names {key : String} (hkey : key ∈ ["columns", "groupBy", "include", "order"])
    {names : List String} (h : ∀ name ∈ names, ',' ∉ name.toList) :
    Alike (d.put key (nameArray names)) (d.put key (nameText names)) where
  kept other hother := by
    have hne : key ≠ other := by
      rintro rfl
      revert key
      decide
    rw [get?_put, get?_put, if_neg hne, if_neg hne]
  names other hother := by
    rw [get?_put, get?_put]
    split
    · exact readNames_array other h
    · rfl
  order := by
    rw [order?, order?, get?_put, get?_put, get?_put, get?_put]
    split
    · rw [Option.some_or, Option.some_or]
      exact readOrder_array h
    · have hsort : key ≠ "sort" := by
        rintro rfl
        revert hkey
        decide
      rw [if_neg hsort, if_neg hsort]
  conditions := by
    have hcondition : isConditionKey key = false := by revert key; decide
    have hwhere : key ≠ "where" := by rintro rfl; revert hkey; decide
    rw [clause?_put hcondition hwhere, clause?_put hcondition hwhere]
  joins := by
    have hjoin : isJoinKey key = false := by revert key; decide
    rw [joinKeys_put hjoin, joinKeys_put hjoin]

/-- Without an `order`, `sort` reads like one. -/
theorem alike_sortAsOrder (h : d.fields.get? "order" = none) : Alike d d.sortAsOrder := by
  unfold sortAsOrder
  cases hsort : d.fields.get? "sort" with
  | none => exact ⟨fun _ _ => rfl, fun _ _ => rfl, rfl, rfl, rfl⟩
  | some sort =>
    have hget (key : String) (horder : key ≠ "order") (hne : key ≠ "sort") :
        d.fields.get? key
          = Fields.get? (Fields.insert "order" sort (d.fields.erase "sort")) key := by
      rw [Fields.get?_insert, if_neg horder.symm, Fields.get?_erase, if_neg hne.symm]
    have hfilter (p : String → Bool) (horder : p "order" = false) (hsort : p "sort" = false) :
        d.fields.filter (fun entry => p entry.1)
          = (Fields.insert "order" sort (d.fields.erase "sort")).filter fun entry => p entry.1 :=
      ((Fields.filter_insert horder sort _).trans (Fields.filter_erase hsort d.fields)).symm
    have hhoisted : d.hoisted
        = hoisted ⟨d.isStructured, Fields.insert "order" sort (d.fields.erase "sort")⟩ := by
      unfold hoisted
      split
      · rfl
      · exact hfilter isConditionKey (by decide) (by decide)
    refine ⟨?_, ?_, ?_, ?_, ?_⟩
    · intro key hkey
      refine hget key ?_ ?_ <;> revert key <;> decide
    · intro key hkey
      refine congrArg (readNames key) (hget key ?_ ?_) <;> revert key <;> decide
    · rw [order?, order?, h, hsort, Fields.get?_insert, if_pos rfl, Option.none_or, Option.some_or]
    · rw [clause?, clause?, hhoisted, hget "where" (by decide) (by decide)]
    · exact hfilter isJoinKey (by decide) (by decide)

/-! ## Styles -/

/-- Keys of which none marks a descriptor as structured are a shorthand. -/
theorem ofFields_of_shorthand {fields : Fields Json}
    (h : ∀ entry ∈ fields, isStructuredKey entry.1 = false) :
    ofFields fields = ⟨false, fields⟩ := by
  have hany : fields.any (fun entry => isStructuredKey entry.1) = false :=
    List.any_eq_false.mpr fun entry hentry => by simp [h entry hentry]
  exact congrArg (Descriptor.mk · fields) hany

/-- Its `where` marks what is written out as structured. -/
theorem ofFields_writtenOut (fields : Fields Json) :
    ofFields (writtenOut fields) = ⟨true, writtenOut fields⟩ := by
  have hwhere : (writtenOut fields).get? "where"
      = some (.obj (fields.filter fun entry => !isReserved entry.1)) :=
    (Fields.get?_insert _ _ _ _).trans (if_pos rfl)
  have hany : (writtenOut fields).any (fun entry => isStructuredKey entry.1) = true :=
    List.any_eq_true.mpr ⟨_, Fields.mem_of_get? hwhere, rfl⟩
  exact congrArg (Descriptor.mk · (writtenOut fields)) hany

/-- A shorthand reads like what is written out of it. -/
theorem alike_writtenOut {fields : Fields Json}
    (h : ∀ entry ∈ fields, isStructuredKey entry.1 = false) :
    Alike ⟨false, fields⟩ ⟨true, writtenOut fields⟩ := by
  have hget (key : String) (hreserved : isReserved key = true) (hwhere : key ≠ "where") :
      fields.get? key = (writtenOut fields).get? key := by
    rw [writtenOut, Fields.get?_insert, if_neg hwhere.symm, Fields.get?_filter isReserved,
      if_pos hreserved]
  have hnowhere : fields.get? "where" = none := by
    cases hfound : fields.get? "where" with
    | none => rfl
    | some clause =>
      have hmarks : isStructuredKey "where" = false := h _ (Fields.mem_of_get? hfound)
      exact absurd hmarks (by decide)
  have hjoin (entry : String × Json) (hentry : entry ∈ fields) : isJoinKey entry.1 = false :=
    (Bool.or_eq_false_iff.mp (h entry hentry)).2
  -- a key that marks no style names a condition unless it is reserved
  have hconditions : fields.filter (fun entry => isConditionKey entry.1)
      = fields.filter fun entry => !isReserved entry.1 :=
    List.filter_congr fun entry hentry => by simp [isConditionKey, h entry hentry]
  refine ⟨?_, ?_, ?_, ?_, ?_⟩
  · intro key hkey
    refine hget key ?_ ?_ <;> revert key <;> decide
  · intro key hkey
    refine congrArg (readNames key) (hget key ?_ ?_) <;> revert key <;> decide
  · rw [order?, order?, hget "order" (by decide) (by decide), hget "sort" (by decide) (by decide)]
  · have hclause : clause? ⟨true, writtenOut fields⟩
        = some (.obj (fields.filter fun entry => isConditionKey entry.1)) := by
      rw [hconditions]
      exact (Fields.get?_insert _ _ _ _).trans (if_pos rfl)
    have hhoisted : hoisted ⟨false, fields⟩
        = fields.filter fun entry => isConditionKey entry.1 := rfl
    rw [hclause, clause?, hhoisted]
    -- without conditions there is no `where` on one side and an empty one on the other
    cases fields.filter fun entry => isConditionKey entry.1 with
    | nil =>
      show readConditions (fields.get? "where") = _
      rw [hnowhere]
      rfl
    | cons entry clause => rfl
  · have hnone : joinKeys ⟨false, fields⟩ = [] :=
      List.filter_eq_nil_iff.mpr fun entry hentry => by simp [hjoin entry hentry]
    have hnone' : joinKeys ⟨true, writtenOut fields⟩ = [] := by
      refine (Fields.filter_insert (by decide) _ _).trans ?_
      refine List.filter_eq_nil_iff.mpr fun entry hentry => ?_
      simp [hjoin entry (List.mem_filter.mp hentry).1]
    rw [hnone, hnone']

/-- **All spellings of a descriptor stand for the same query, or have the same fault.** A shorthand
agrees with the structured descriptor that keeps its reserved keys and has all others under
`where`; `sort` agrees with `order` where there is none; and names agree in an array and between
commas, as columns, groups, relations to load and terms of an order. -/
theorem spellings_agree (config : Config) :
    (∀ fields : Fields Json, (∀ entry ∈ fields, isStructuredKey entry.1 = false) →
      (ofFields fields).isStructured = false
      ∧ (ofFields (writtenOut fields)).isStructured = true
      ∧ ofDescriptor config (ofFields fields) = ofDescriptor config (ofFields (writtenOut fields)))
    ∧ (∀ d : Descriptor, d.fields.get? "order" = none →
      ofDescriptor config d = ofDescriptor config d.sortAsOrder)
    ∧ ∀ key ∈ ["columns", "groupBy", "include", "order"], ∀ names : List String,
      (∀ name ∈ names, ',' ∉ name.toList) → ∀ d : Descriptor,
      ofDescriptor config (d.put key (nameArray names))
        = ofDescriptor config (d.put key (nameText names)) := by
  refine ⟨fun fields h => ?_, fun d h => (alike_sortAsOrder h).ofDescriptor_eq,
    fun key hkey names h d => (alike_names hkey h).ofDescriptor_eq⟩
  rw [ofFields_of_shorthand h, ofFields_writtenOut]
  exact ⟨rfl, rfl, (alike_writtenOut h).ofDescriptor_eq⟩

theorem spellings_agree_posts :
    ofDescriptor .default (ofFields [("author", .int 7), ("limit", .int 5)])
      = ofDescriptor .default (ofFields [("limit", .int 5), ("where", .obj [("author", .int 7)])])
    ∧ ofDescriptor .default (ofFields [("limit", .int 5), ("sort", .str "-posted")])
      = ofDescriptor .default (ofFields [("limit", .int 5), ("order", .str "-posted")])
    ∧ ofDescriptor .default (ofFields [("columns", .arr [.str "id", .str "", .str " posted"])])
      = ofDescriptor .default (ofFields [("columns", .str "id,, posted")]) := by
  obtain ⟨hstyles, hsort, hnames⟩ := spellings_agree .default
  exact ⟨(hstyles [("author", .int 7), ("limit", .int 5)] (by decide)).2.2,
    hsort (ofFields [("limit", .int 5), ("sort", .str "-posted")]) rfl,
    hnames "columns" (by decide) ["id", "", " posted"] (by decide) ⟨false, []⟩⟩

end Query

end RecordMapping
