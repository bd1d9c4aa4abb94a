/-!
# Fields

Named values in the order of their names. Names are compared character by character, which for
Unicode text is also the order of its UTF-8 bytes. A list built by `insert` has each name once.
-/

namespace RecordMapping

/-- Named values, sorted by name. -/
abbrev Fields (α : Type) := List (String × α)

namespace Fields

variable {α β : Type}

/-- The value under a name. -/
def get? (fields : Fields α) (name : String) : Option α :=
  (fields.find? (·.1 == name)).map (·.2)

/-- Whether a name has a value. -/
def contains (fields : Fields α) (name : String) : Bool := fields.any (·.1 == name)

/-- The names, in order. -/
def names (fields : Fields α) : List String := fields.map (·.1)

/-- Puts a value under a name, at the name's place; an earlier value under it is replaced. -/
def insert (name : String) (value : α) : Fields α → Fields α
  | [] => [(name, value)]
  | (key, old) :: rest =>
    if name == key then (name, value) :: rest
    else if name < key then (name, value) :: (key, old) :: rest
    else (key, old) :: insert name value rest

/-- Removes a name. -/
def erase (name : String) (fields : Fields α) : Fields α := fields.filter (·.1 != name)

/-- The fields of a list of pairs; of two values for one name the later one stays. -/
def ofList (pairs : List (String × α)) : Fields α :=
  pairs.foldl (fun fields (name, value) => insert name value fields) []

/-- Applies a function to every value. -/
def mapValues (f : α → β) (fields : Fields α) : Fields β :=
  fields.map fun (name, value) => (name, f value)

@[simp] theorem get?_nil (name : String) : get? ([] : Fields α) name = none := rfl

theorem get?_cons (key name : String) (value : α) (rest : Fields α) :
    get? ((key, value) :: rest) name = if key = name then some value else get? rest name := by
  by_cases h : key = name <;> simp [get?, h]

theorem mem_of_get? {fields : Fields α} {name : String} {value : α}
    (h : fields.get? name = some value) : (name, value) ∈ fields := by
  simp only [get?, Option.map_eq_some_iff] at h
  obtain ⟨entry, hfound, rfl⟩ := h
  have hname := List.find?_some hfound
  rw [← eq_of_beq hname]
  exact List.mem_of_find?_eq_some hfound

/-- After an insertion the name has the new value and every other name keeps its own. -/
theorem get?_insert (fields : Fields α) (name other : String) (value : α) :
    get? (insert name value fields) other =
      if name = other then some value else get? fields other := by
  induction fields with
  | nil => simp [insert, get?_cons]
  | cons head rest ih =>
    obtain ⟨key, old⟩ := head
    unfold insert
    split
    · grind [get?_cons]
    · split <;> grind [get?_cons]

/-- An insertion brings nothing else than what is inserted. -/
theorem mem_of_mem_insert {name : String} {value : α} {fields : Fields α} {field : String × α}
    (h : field ∈ insert name value fields) : field = (name, value) ∨ field ∈ fields := by
  induction fields with
  | nil => exact .inl (List.mem_singleton.mp h)
  | cons head rest ih =>
    rw [insert] at h
    split at h
    · exact (List.mem_cons.mp h).imp_right (List.mem_cons_of_mem head)
    · split at h
      · exact List.mem_cons.mp h
      · rcases List.mem_cons.mp h with h | h
        · exact .inr (h ▸ List.mem_cons_self)
        · exact (ih h).imp_right (List.mem_cons_of_mem head)

/-- Under different names it makes no difference what is inserted first. -/
theorem insert_comm {name other : String} (h : name ≠ other) (value value' : α)
    (fields : Fields α) :
    insert name value (insert other value' fields)
      = insert other value' (insert name value fields) := by
  induction fields with
  | nil =>
    simp only [insert]
    grind
  | cons head rest ih =>
    obtain ⟨key, old⟩ := head
    simp only [insert]
    grind [insert]

/-- After a removal the name has no value and every other name keeps its own. -/
theorem get?_erase (fields : Fields α) (name other : String) :
    get? (erase name fields) other = if name = other then none else get? fields other := by
  induction fields with
  | nil => simp [erase, get?]
  | cons head rest ih =>
    obtain ⟨key, old⟩ := head
    simp only [erase, List.filter_cons] at ih ⊢
    split <;> grind [get?_cons]

/-- A selection of names keeps the values of those that it selects. -/
theorem get?_filter (p : String → Bool) (fields : Fields α) (name : String) :
    get? (fields.filter fun entry => p entry.1) name
      = if p name then get? fields name else none := by
  induction fields with
  | nil => simp
  | cons head rest ih =>
    obtain ⟨key, value⟩ := head
    simp only [List.filter_cons]
    split <;> grind [get?_cons]

/-- What is inserted under a name does not show in a selection without this name. -/
theorem filter_insert {p : String → Bool} {name : String} (h : p name = false) (value : α)
    (fields : Fields α) :
    (insert name value fields).filter (fun entry => p entry.1)
      = fields.filter fun entry => p entry.1 := by
  induction fields with
  | nil => simp [insert, h]
  | cons head rest ih =>
    obtain ⟨key, old⟩ := head
    unfold insert
    split
    · rename_i heq
      obtain rfl := eq_of_beq heq
      simp [h]
    · split <;> simp [List.filter_cons, h, ih]

/-- Nor does what is removed. -/
theorem filter_erase {p : String → Bool} {name : String} (h : p name = false)
    (fields : Fields α) :
    (erase name fields).filter (fun entry => p entry.1)
      = fields.filter fun entry => p entry.1 := by
  rw [erase, List.filter_filter]
  congr 1
  funext entry
  by_cases hname : entry.1 = name <;> simp [hname, h]

theorem contains_eq_isSome (fields : Fields α) (name : String) :
    fields.contains name = (fields.get? name).isSome := by
  rw [Bool.eq_iff_iff]
  simp [contains, get?]

/-! ## The order of the names -/

/-- The names stand in order, and each of them once. -/
def Sorted (fields : Fields α) : Prop := fields.Pairwise fun a b => a.1 < b.1

theorem Sorted.insert {fields : Fields α} (h : fields.Sorted) (name : String) (value : α) :
    (fields.insert name value).Sorted := by
  induction fields with
  | nil => exact List.pairwise_singleton _ _
  | cons head rest ih =>
    obtain ⟨key, old⟩ := head
    obtain ⟨hfirst, hrest⟩ := List.pairwise_cons.mp h
    rw [Fields.insert]
    split
    · rename_i hsame
      obtain rfl := eq_of_beq hsame
      exact List.pairwise_cons.mpr ⟨hfirst, hrest⟩
    · rename_i hother
      rw [beq_iff_eq] at hother
      split
      · rename_i hless
        refine List.pairwise_cons.mpr ⟨fun entry hentry => ?_, h⟩
        rcases List.mem_cons.mp hentry with rfl | hentry
        · exact hless
        · exact String.lt_trans hless (hfirst entry hentry)
      · rename_i hless
        refine List.pairwise_cons.mpr ⟨fun entry hentry => ?_, ih hrest⟩
        rcases mem_of_mem_insert hentry with rfl | hentry
        · show key < name
          grind
        · exact hfirst entry hentry

theorem Sorted.erase {fields : Fields α} (h : fields.Sorted) (name : String) :
    (fields.erase name).Sorted :=
  List.Pairwise.filter _ h

theorem Sorted.filter {fields : Fields α} (h : fields.Sorted) (p : String → Bool) :
    Fields.Sorted (fields.filter fun entry => p entry.1) :=
  List.Pairwise.filter _ h

/-- A name that comes before all others is inserted in front. -/
theorem insert_of_forall_lt {name : String} {fields : Fields α}
    (h : ∀ entry ∈ fields, name < entry.1) (value : α) :
    insert name value fields = (name, value) :: fields := by
  cases fields with
  | nil => rfl
  | cons head rest =>
    have hless : name < head.1 := h head List.mem_cons_self
    rw [insert, if_neg (by simpa using String.ne_of_lt hless), if_pos hless]

/-- What is inserted under a selected name stands in the selection at the name's place. -/
theorem Sorted.filter_insert {fields : Fields α} (h : fields.Sorted) {p : String → Bool}
    {name : String} (hname : p name = true) (value : α) :
    (Fields.insert name value fields).filter (fun entry => p entry.1)
      = Fields.insert name value (fields.filter fun entry => p entry.1) := by
  induction fields with
  | nil => simp [Fields.insert, hname]
  | cons head rest ih =>
    obtain ⟨key, old⟩ := head
    obtain ⟨hfirst, hrest⟩ := List.pairwise_cons.mp h
    rw [Fields.insert]
    split
    · rename_i hsame
      obtain rfl := eq_of_beq hsame
      simp [hname, Fields.insert]
    · rename_i hother
      split
      · -- the name comes before all others, and so before those that are selected
        rename_i hless
        have hall : ∀ entry ∈ (key, old) :: rest, name < entry.1 :=
          List.forall_mem_cons.mpr
            ⟨hless, fun entry hentry => String.lt_trans hless (hfirst entry hentry)⟩
        rw [List.filter_cons, if_pos hname,
          insert_of_forall_lt fun entry hentry => hall entry (List.mem_filter.mp hentry).1]
      · rename_i hless
        by_cases hkey : p key = true
        · rw [List.filter_cons, if_pos hkey, List.filter_cons, if_pos hkey, Fields.insert,
            if_neg hother, if_neg hless, ih hrest]
        · rw [List.filter_cons, if_neg hkey, List.filter_cons, if_neg hkey, ih hrest]

/-- Each name stands there once, so what stands there can be looked up. -/
theorem Sorted.get?_of_mem {fields : Fields α} (h : fields.Sorted) {name : String} {value : α}
    (hmem : (name, value) ∈ fields) : fields.get? name = some value := by
  induction fields with
  | nil => exact absurd hmem List.not_mem_nil
  | cons head rest ih =>
    obtain ⟨key, old⟩ := head
    obtain ⟨hfirst, hrest⟩ := List.pairwise_cons.mp h
    rw [get?_cons]
    rcases List.mem_cons.mp hmem with hhead | hmem
    · obtain ⟨rfl, rfl⟩ := Prod.mk.inj hhead
      exact if_pos rfl
    · have hless : key < name := hfirst _ hmem
      rw [if_neg (String.ne_of_lt hless), ih hrest hmem]

/-- What stands under a name already is inserted without a trace. -/
theorem Sorted.insert_eq_self {fields : Fields α} (h : fields.Sorted) {name : String} {value : α}
    (hvalue : fields.get? name = some value) : fields.insert name value = fields := by
  induction fields with
  | nil => exact absurd hvalue nofun
  | cons head rest ih =>
    obtain ⟨key, old⟩ := head
    obtain ⟨hfirst, hrest⟩ := List.pairwise_cons.mp h
    rw [get?_cons] at hvalue
    by_cases hsame : key = name
    · rw [if_pos hsame] at hvalue
      rw [Fields.insert, if_pos (by simp [hsame]), Option.some.inj hvalue, hsame]
    · -- the names behind the first one are greater, and the name is one of them
      rw [if_neg hsame] at hvalue
      have hless : key < name := hfirst _ (mem_of_get? hvalue)
      rw [Fields.insert, if_neg (by simpa using Ne.symm hsame), if_neg (String.lt_asymm hless),
        ih hrest hvalue]

end Fields

end RecordMapping
