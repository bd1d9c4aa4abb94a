import Mathlib.Data.List.Induction
import Mathlib.Data.List.Nodup
import RecordMapping.Hydration
import RecordMapping.Proofs.Query.Filtering
import RecordMapping.Proofs.Query.Loading

/-!
# Names of result columns

A select with loaded relations gives each column a name with a prefix, and hydration takes the names
apart again.

* `Row.cells_ofList`, `Row.nodup_of_length_ofList`: a row keeps all its columns exactly if they have
  different names;
* `Hydration.place_eq_iff`: the name of a column leads back to its place exactly if no longer prefix
  begins it, and it is not taken for a marker.
-/

namespace RecordMapping

/-! ## Rows -/

namespace Row

theorem insertCell_new {name : String} {cells : List (String × Value)} (value : Value)
    (h : name ∉ cells.map (·.1)) : insertCell name value cells = cells ++ [(name, value)] := by
  induction cells with
  | nil => rfl
  | cons cell cells ih =>
    rw [List.map_cons, List.mem_cons, not_or] at h
    rw [insertCell, if_neg (by simpa using Ne.symm h.1), ih h.2, List.cons_append]

theorem names_insertCell_old {name : String} {cells : List (String × Value)} (value : Value)
    (h : name ∈ cells.map (·.1)) : (insertCell name value cells).map (·.1) = cells.map (·.1) := by
  induction cells with
  | nil => exact absurd h List.not_mem_nil
  | cons cell cells ih =>
    rw [insertCell]
    split
    · rename_i heq
      rw [List.map_cons, List.map_cons, eq_of_beq heq]
    · rename_i hne
      rw [List.map_cons, List.mem_cons] at h
      rcases h with heq | h
      · exact absurd (by simpa using heq.symm) hne
      · rw [List.map_cons, ih h, List.map_cons]

theorem length_insertCell_old {name : String} {cells : List (String × Value)} (value : Value)
    (h : name ∈ cells.map (·.1)) : (insertCell name value cells).length = cells.length := by
  have hnames := congrArg List.length (names_insertCell_old value h)
  rwa [List.length_map, List.length_map] at hnames

theorem ofList_append_singleton (pairs : List (String × Value)) (pair : String × Value) :
    (ofList (pairs ++ [pair])).cells = insertCell pair.1 pair.2 (ofList pairs).cells := by
  unfold ofList
  rw [List.foldl_append]
  rfl

/-- Under different names all columns are kept. -/
theorem cells_ofList {pairs : List (String × Value)} (h : (pairs.map (·.1)).Nodup) :
    (ofList pairs).cells = pairs := by
  induction pairs using List.reverseRecOn with
  | nil => rfl
  | append_singleton pairs pair ih =>
    rw [List.map_append, List.nodup_append] at h
    have hnew : pair.1 ∉ pairs.map (·.1) := by
      intro hmem
      exact h.2.2 _ hmem pair.1 (by simp) rfl
    rw [ofList_append_singleton, ih h.1, insertCell_new _ hnew]

/-- A row has each column once. -/
theorem nodup_names_ofList (pairs : List (String × Value)) : (ofList pairs).names.Nodup := by
  unfold names
  induction pairs using List.reverseRecOn with
  | nil => exact .nil
  | append_singleton pairs pair ih =>
    rw [ofList_append_singleton]
    by_cases hold : pair.1 ∈ (ofList pairs).cells.map (·.1)
    · rw [names_insertCell_old _ hold]
      exact ih
    · rw [insertCell_new _ hold, List.map_append]
      refine List.Nodup.append ih (List.nodup_singleton _) ?_
      rw [List.map_singleton, List.disjoint_singleton]
      exact hold

theorem length_ofList_le (pairs : List (String × Value)) :
    (ofList pairs).cells.length ≤ pairs.length := by
  induction pairs using List.reverseRecOn with
  | nil => exact Nat.le_refl 0
  | append_singleton pairs pair ih =>
    rw [ofList_append_singleton, List.length_append, List.length_singleton]
    by_cases hold : pair.1 ∈ (ofList pairs).cells.map (·.1)
    · rw [length_insertCell_old _ hold]
      omega
    · rw [insertCell_new _ hold, List.length_append, List.length_singleton]
      omega

/-- A row is as long as the list of its columns only if these have different names. -/
theorem nodup_of_length_ofList {pairs : List (String × Value)}
    (h : (ofList pairs).cells.length = pairs.length) : (pairs.map (·.1)).Nodup := by
  induction pairs using List.reverseRecOn with
  | nil => exact .nil
  | append_singleton pairs pair ih =>
    have hle : (ofList pairs).cells.length ≤ pairs.length := length_ofList_le pairs
    rw [ofList_append_singleton, List.length_append, List.length_singleton] at h
    by_cases hold : pair.1 ∈ (ofList pairs).cells.map (·.1)
    · rw [length_insertCell_old _ hold] at h
      omega
    · rw [insertCell_new _ hold, List.length_append, List.length_singleton] at h
      have hpairs : (pairs.map (·.1)).Nodup := ih (by omega)
      rw [cells_ofList hpairs] at hold
      rw [List.map_append]
      refine List.Nodup.append hpairs (List.nodup_singleton _) ?_
      rw [List.map_singleton, List.disjoint_singleton]
      exact hold

end Row

namespace Hydration

open Sql

/-! ## Prefixes -/

theorem stripStart?_eq_some {start column rest : String} :
    stripStart? start column = some rest ↔ column = start ++ "_" ++ rest := by
  unfold stripStart?
  dsimp only
  constructor
  · intro h
    split at h
    · rename_i hprefix
      obtain ⟨tail, htail⟩ := List.isPrefixOf_iff_prefix.mp hprefix
      rw [← htail, List.drop_left] at h
      apply String.toList_injective
      rw [← htail, ← Option.some.inj h]
      simp
    · exact absurd h nofun
  · rintro rfl
    have hlist : (start ++ "_" ++ rest).toList = (start.toList ++ ['_']) ++ rest.toList := by simp
    rw [hlist, if_pos (List.isPrefixOf_iff_prefix.mpr (List.prefix_append _ _)), List.drop_left]
    simp

/-- The prefix of the columns of the records, or of a loaded relation. -/
def startOf (base : String) (aliases : List String) : Option Nat → Option String
  | none => some base
  | some i => aliases[i]?

theorem mem_sortedStarts {base : String} {aliases : List String} {entry : String × Option Nat} :
    entry ∈ sortedStarts base aliases ↔ startOf base aliases entry.2 = some entry.1 := by
  obtain ⟨start, relation?⟩ := entry
  unfold sortedStarts
  rw [List.mem_mergeSort, List.mem_cons, List.mem_map]
  simp only [Prod.exists, List.mem_zipIdx_iff_getElem?, Prod.mk.injEq]
  cases relation? with
  | none => simp [startOf, eq_comm]
  | some i => simp [startOf]

/-- The longer prefixes stand in front. -/
theorem pairwise_sortedStarts (base : String) (aliases : List String) :
    (sortedStarts base aliases).Pairwise fun a b => b.1.utf8ByteSize ≤ a.1.utf8ByteSize := by
  unfold sortedStarts
  have hsorted := @List.pairwise_mergeSort _
    (fun a b : String × Option Nat => decide (b.1.utf8ByteSize ≤ a.1.utf8ByteSize))
    (by intro a b c; simp only [decide_eq_true_eq]; omega)
    (by intro a b; simp only [Bool.or_eq_true, decide_eq_true_eq]; omega)
    ((base, none) :: aliases.zipIdx.map fun entry => (entry.1, some entry.2))
  exact hsorted.imp fun h => by simpa using h

theorem mem_of_startOf {base start : String} {aliases : List String} {relation? : Option Nat}
    (h : startOf base aliases relation? = some start) : start ∈ base :: aliases := by
  cases relation? with
  | none => exact List.mem_cons.mpr (.inl (Option.some.inj h).symm)
  | some i => exact List.mem_cons_of_mem _ (List.mem_of_getElem? h)

theorem exists_startOf {base start : String} {aliases : List String}
    (h : start ∈ base :: aliases) : ∃ relation?, startOf base aliases relation? = some start := by
  rcases List.mem_cons.mp h with rfl | h
  · exact ⟨none, rfl⟩
  · obtain ⟨i, hi⟩ := List.mem_iff_getElem?.mp h
    exact ⟨some i, hi⟩

/-- Under different prefixes each prefix tells what it is the prefix of. -/
theorem startOf_inj {base start : String} {aliases : List String} {a b : Option Nat}
    (hdistinct : (base :: aliases).Nodup) (ha : startOf base aliases a = some start)
    (hb : startOf base aliases b = some start) : a = b := by
  obtain ⟨hbase, haliases⟩ := List.nodup_cons.mp hdistinct
  cases a with
  | none =>
    cases b with
    | none => rfl
    | some j => exact absurd (List.mem_of_getElem? (hb.trans ha.symm)) hbase
  | some i =>
    cases b with
    | none => exact absurd (List.mem_of_getElem? (ha.trans hb.symm)) hbase
    | some j =>
      obtain ⟨hi, -⟩ := List.getElem?_eq_some_iff.mp ha
      rw [(List.getElem?_inj hi haliases).mp (ha.trans hb.symm)]

/-- A text that is as long as one that it begins with is this one. -/
theorem eq_of_toList_append {a b : String} {tail : List Char} (h : b.toList = a.toList ++ tail)
    (hsize : b.utf8ByteSize ≤ a.utf8ByteSize) : b = a := by
  have happend : b = a ++ String.ofList tail := by
    apply String.toList_injective
    rw [h]
    simp
  have htail : (String.ofList tail).utf8ByteSize = 0 := by
    rw [happend, String.utf8ByteSize_append] at hsize
    omega
  rw [happend, String.utf8ByteSize_eq_zero_iff.mp htail, String.append_empty]

/-- Of two prefixes of one name that are equally long each is the other. -/
theorem start_unique {a b x y : String} (h : a ++ "_" ++ x = b ++ "_" ++ y)
    (hsize : a.utf8ByteSize = b.utf8ByteSize) : a = b ∧ x = y := by
  have hlist : a.toList ++ '_' :: x.toList = b.toList ++ '_' :: y.toList := by
    simpa using congrArg String.toList h
  have hab : a = b := by
    rcases List.append_eq_append_iff.mp hlist with ⟨tail, htail, -⟩ | ⟨tail, htail, -⟩
    · exact (eq_of_toList_append htail (by omega)).symm
    · exact eq_of_toList_append htail (by omega)
  subst hab
  exact ⟨rfl, String.toList_injective (List.cons.inj (List.append_cancel_left hlist)).2⟩

/-! ## Places -/

/-- The number of the relation that a place is part of. -/
def Place.relation? : Place → Option Nat
  | .base _ => none
  | .related i _ | .marker i => some i

/-- What stands behind the prefix in the name of a column of a place. -/
def Place.ending : Place → String
  | .base column | .related _ column => column
  | .marker _ => Included.markerEnding

/-- The place that a prefix and what stands behind it are taken for. -/
def placeOf (rest : String) : Option Nat → Place
  | none => .base rest
  | some i => if rest == Included.markerEnding then .marker i else .related i rest

theorem placeOf_relation? (rest : String) (relation? : Option Nat) :
    (placeOf rest relation?).relation? = relation? := by
  cases relation? with
  | none => rfl
  | some i =>
    unfold placeOf
    dsimp only
    split <;> rfl

/-- Among columns of a relation the marker's ending is taken for the marker. -/
theorem placeOf_ending {p : Place} :
    placeOf p.ending p.relation? = p ↔ ∀ i, p ≠ .related i Included.markerEnding := by
  cases p with
  | base column => exact ⟨fun _ _ => nofun, fun _ => rfl⟩
  | marker i =>
    have hmarker : placeOf Included.markerEnding (some i) = .marker i := by
      rw [placeOf, if_pos BEq.rfl]
    exact ⟨fun _ _ => nofun, fun _ => hmarker⟩
  | related i column =>
    constructor
    · rintro h j heq
      obtain ⟨rfl, rfl⟩ := Place.related.inj heq
      exact absurd h nofun
    · intro h
      refine if_neg fun heq => h i ?_
      exact congrArg (Place.related i) (eq_of_beq heq)

/-- A column is placed by the first prefix that fits. -/
theorem place_of_findSome? {starts : List (String × Option Nat)} {column rest : String}
    {relation? : Option Nat}
    (h : starts.findSome? (fun start =>
      (stripStart? start.1 column).map fun rest => (rest, start.2)) = some (rest, relation?)) :
    place starts column = placeOf rest relation? := by
  unfold place
  dsimp only
  rw [h]
  cases relation? <;> rfl

/-- A prefix begins the name of a column. -/
def Begins (start column : String) : Prop := ∃ rest, column = start ++ "_" ++ rest

instance (start column : String) : Decidable (Begins start column) :=
  decidable_of_iff (stripStart? start column).isSome <| by
    rw [Option.isSome_iff_exists]
    exact exists_congr fun _ => stripStart?_eq_some

/-- A column that has some prefix is placed by one that no other prefix of it is longer than. -/
theorem exists_place {base column : String} {aliases : List String}
    (h : ∃ start ∈ base :: aliases, Begins start column) :
    ∃ start relation? rest, startOf base aliases relation? = some start
      ∧ column = start ++ "_" ++ rest
      ∧ place (sortedStarts base aliases) column = placeOf rest relation?
      ∧ ∀ other ∈ base :: aliases, Begins other column →
        other.utf8ByteSize ≤ start.utf8ByteSize := by
  obtain ⟨own, hown, tail, htail⟩ := h
  obtain ⟨ownNumber?, hnumber⟩ := exists_startOf hown
  have hfits : ((sortedStarts base aliases).findSome? fun start =>
      (stripStart? start.1 column).map fun rest => (rest, start.2)).isSome := by
    rw [List.findSome?_isSome_iff]
    exact ⟨(own, ownNumber?), mem_sortedStarts.mpr hnumber,
      by rw [stripStart?_eq_some.mpr htail]; rfl⟩
  obtain ⟨⟨rest, relation?⟩, hfound⟩ := Option.isSome_iff_exists.mp hfits
  obtain ⟨before, ⟨start, number?⟩, after, hstarts, hstart, hbefore⟩ :=
    List.findSome?_eq_some_iff.mp hfound
  obtain ⟨rest', hrest, heq⟩ := Option.map_eq_some_iff.mp hstart
  obtain ⟨rfl, rfl⟩ := Prod.mk.inj heq
  refine ⟨start, number?, rest', ?_, stripStart?_eq_some.mp hrest, place_of_findSome? hfound, ?_⟩
  · have hmem : (start, number?) ∈ sortedStarts base aliases := by
      rw [hstarts]
      simp
    exact mem_sortedStarts.mp hmem
  · rintro other hother ⟨tail', htail'⟩
    obtain ⟨otherNumber?, hotherNumber⟩ := exists_startOf hother
    have hmem : (other, otherNumber?) ∈ before ++ (start, number?) :: after :=
      hstarts ▸ mem_sortedStarts.mpr hotherNumber
    have hsorted := pairwise_sortedStarts base aliases
    rw [hstarts, List.pairwise_append, List.pairwise_cons] at hsorted
    -- a prefix in front would have been found first
    rcases List.mem_append.mp hmem with hfront | hrest
    · have hnone := hbefore _ hfront
      rw [stripStart?_eq_some.mpr htail'] at hnone
      exact absurd hnone nofun
    · rcases List.mem_cons.mp hrest with heq | hback
      · exact Nat.le_of_eq (congrArg (·.1.utf8ByteSize) heq)
      · exact hsorted.2.1.1 _ hback

/-- When the name of a column leads back to its place: no longer prefix begins the name, and it is
not a column of a relation with the marker's ending. -/
theorem place_eq_iff {base own : String} {aliases : List String} {p : Place}
    (hdistinct : (base :: aliases).Nodup) (hown : startOf base aliases p.relation? = some own) :
    place (sortedStarts base aliases) (own ++ "_" ++ p.ending) = p
      ↔ (∀ start ∈ base :: aliases, Begins start (own ++ "_" ++ p.ending) →
          start.utf8ByteSize ≤ own.utf8ByteSize)
        ∧ ∀ i, p ≠ .related i Included.markerEnding := by
  obtain ⟨start, relation?, rest, hstart, hname, hplace, hlongest⟩ :=
    exists_place ⟨own, mem_of_startOf hown, p.ending, rfl⟩
  constructor
  · intro hp
    have hrelation : relation? = p.relation? := by
      rw [← hp, hplace, placeOf_relation?]
    rw [hrelation, hown] at hstart
    obtain rfl := Option.some.inj hstart
    obtain ⟨-, hrest⟩ := start_unique hname rfl
    rw [hplace, hrelation, ← hrest, placeOf_ending] at hp
    exact ⟨hlongest, hp⟩
  · rintro ⟨hlonger, hending⟩
    have hle : start.utf8ByteSize ≤ own.utf8ByteSize :=
      hlonger start (mem_of_startOf hstart) ⟨rest, hname⟩
    have hge : own.utf8ByteSize ≤ start.utf8ByteSize :=
      hlongest own (mem_of_startOf hown) ⟨p.ending, rfl⟩
    obtain ⟨rfl, hrest⟩ := start_unique hname (by omega)
    rw [hplace, startOf_inj hdistinct hstart hown, ← hrest]
    exact placeOf_ending.mpr hending

end Hydration

end RecordMapping
