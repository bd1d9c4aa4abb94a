import Mathlib.Data.List.Basic

/-!
# The first under each key

`firstsBy key as` keeps of all elements with one key the first, and every element without a key, in
the order of the list. It grows with the list as a list does that is filled element by element,
where an element is left out if its key is there already (`firstsBy_append_singleton`).
-/

namespace RecordMapping

variable {α β : Type} (key : α → Option String)

/-- Of two elements in this order the second one brings a new key, or has none. -/
def Apart (a b : α) : Prop := key b = none ∨ key b ≠ key a

instance (a b : α) : Decidable (Apart key a b) :=
  inferInstanceAs (Decidable (key b = none ∨ key b ≠ key a))

/-- The first element under each key, and the elements without a key. -/
def firstsBy : List α → List α
  | [] => []
  | a :: as => a :: (firstsBy as).filter fun b => Apart key a b

variable {key}

theorem not_apart_iff {a b : α} : ¬ Apart key a b ↔ ∃ k, key a = some k ∧ key b = some k := by
  unfold Apart
  cases hb : key b with
  | none => simp
  | some k =>
    simp only [reduceCtorEq, false_or, not_not, Option.some.injEq]
    exact ⟨fun h => ⟨k, h.symm, rfl⟩, fun ⟨_, ha, hk⟩ => by rw [ha, hk]⟩

/-- The elements kept are those with no element of the same key before them. -/
theorem mem_firstsBy {a : α} {as : List α} :
    a ∈ firstsBy key as
      ↔ ∃ before after, as = before ++ a :: after ∧ ∀ b ∈ before, Apart key b a := by
  induction as with
  | nil => simp [firstsBy]
  | cons c as ih =>
    rw [firstsBy, List.mem_cons, List.mem_filter, ih, decide_eq_true_iff]
    constructor
    · rintro (rfl | ⟨⟨before, after, rfl, hbefore⟩, hc⟩)
      · exact ⟨[], as, rfl, by simp⟩
      · exact ⟨c :: before, after, rfl, List.forall_mem_cons.mpr ⟨hc, hbefore⟩⟩
    · rintro ⟨before, after, has, hbefore⟩
      cases before with
      | nil => exact .inl (List.cons.inj has).1.symm
      | cons b before =>
        obtain ⟨rfl, rfl⟩ := List.cons.inj has
        obtain ⟨hc, hbefore⟩ := List.forall_mem_cons.mp hbefore
        exact .inr ⟨⟨before, after, rfl, hbefore⟩, hc⟩

theorem firstsBy_sublist (as : List α) : (firstsBy key as).Sublist as := by
  induction as with
  | nil => exact .slnil
  | cons a as ih => exact (List.filter_sublist.trans ih).cons_cons a

/-- The keys of what is kept are distinct. -/
theorem pairwise_firstsBy (as : List α) : (firstsBy key as).Pairwise (Apart key) := by
  induction as with
  | nil => exact .nil
  | cons a as ih =>
    refine .cons ?_ (ih.filter _)
    intro b hb
    simpa using (List.mem_filter.mp hb).2

/-- Every key has an element that is kept. -/
theorem exists_mem_firstsBy {as : List α} {a : α} {k : String} (ha : a ∈ as) (hk : key a = some k) :
    ∃ b ∈ firstsBy key as, key b = some k := by
  induction as with
  | nil => exact absurd ha List.not_mem_nil
  | cons c as ih =>
    by_cases hc : key c = some k
    · exact ⟨c, List.mem_cons_self, hc⟩
    · rcases List.mem_cons.mp ha with rfl | ha
      · exact absurd hk hc
      · obtain ⟨b, hb, hbk⟩ := ih ha
        have hapart : Apart key c b := .inr (by rw [hbk]; exact Ne.symm hc)
        exact ⟨b, List.mem_cons_of_mem c (List.mem_filter.mpr ⟨hb, by simpa using hapart⟩), hbk⟩

/-- A last element is kept unless its key is there already. -/
theorem firstsBy_append_singleton (as : List α) (b : α) :
    firstsBy key (as ++ [b])
      = if ∀ a ∈ firstsBy key as, Apart key a b then firstsBy key as ++ [b]
        else firstsBy key as := by
  -- the same test on all elements gives the same answer, since each of them has its key kept
  have hkept : (∀ a ∈ firstsBy key as, Apart key a b) ↔ ∀ a ∈ as, Apart key a b := by
    constructor
    · intro h a ha
      by_contra hsame
      obtain ⟨k, hak, hbk⟩ := not_apart_iff.mp hsame
      obtain ⟨c, hc, hck⟩ := exists_mem_firstsBy ha hak
      exact not_apart_iff.mpr ⟨k, hck, hbk⟩ (h c hc)
    · intro h a ha
      exact h a ((firstsBy_sublist as).mem ha)
  simp only [hkept]
  clear hkept
  induction as with
  | nil => simp [firstsBy]
  | cons a as ih =>
    rw [List.cons_append, firstsBy, ih, firstsBy]
    simp only [List.forall_mem_cons]
    by_cases has : ∀ c ∈ as, Apart key c b
    · rw [if_pos has, List.filter_append]
      by_cases hab : Apart key a b
      · rw [if_pos ⟨hab, has⟩]
        simp [hab]
      · rw [if_neg fun h => hab h.1]
        simp [hab]
    · rw [if_neg has, if_neg fun h => has h.2]

/-- A search finds the only element that it may find. -/
theorem find?_eq_some_of_unique {p : α → Bool} {a : α} {as : List α} (ha : a ∈ as)
    (hp : p a = true) (hunique : ∀ b ∈ as, p b = true → b = a) : as.find? p = some a := by
  cases hfound : as.find? p with
  | none => exact absurd hp (List.find?_eq_none.mp hfound a ha)
  | some b => rw [hunique b (List.mem_of_find?_eq_some hfound) (List.find?_some hfound)]

theorem firstsBy_map (f : β → α) (bs : List β) :
    firstsBy key (bs.map f) = (firstsBy (fun b => key (f b)) bs).map f := by
  induction bs with
  | nil => rfl
  | cons b bs ih =>
    rw [List.map_cons, firstsBy, ih, List.filter_map]
    rfl

end RecordMapping
