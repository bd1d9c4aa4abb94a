import RecordMapping.Json.Reader
import RecordMapping.Query.Descriptor

/-!
# The order of keys in a descriptor

Objects keep their fields in the order of the names. So do the objects that are read from texts, and
so does a descriptor, whatever is added to it. Facts on descriptors that need the order hold of all
that are built by the operations that there are.

* `Json.ordered_of_read?`: every value that is read from a text is in order;
* `Descriptor.Built.ordered`: every descriptor is in order that is built from values in order.
-/

namespace RecordMapping

namespace Json

/-- The names of every object in a value stand in order, each of them once. -/
inductive Ordered : Json → Prop where
  | null : Ordered null
  | bool (b : Bool) : Ordered (bool b)
  | int (n : Int) : Ordered (int n)
  | float (x : Float) : Ordered (float x)
  | str (s : String) : Ordered (str s)
  | arr {items : List Json} (h : ∀ item ∈ items, Ordered item) : Ordered (arr items)
  | obj {fields : Fields Json} (hsorted : fields.Sorted)
      (h : ∀ entry ∈ fields, Ordered entry.2) : Ordered (obj fields)

namespace Ordered

variable {fields : Fields Json}

theorem sorted (h : (Json.obj fields).Ordered) : fields.Sorted := by
  cases h with
  | obj hsorted h => exact hsorted

theorem of_mem (h : (Json.obj fields).Ordered) {entry : String × Json} (hentry : entry ∈ fields) :
    entry.2.Ordered := by
  cases h with
  | obj hsorted h => exact h entry hentry

theorem nil : (Json.obj []).Ordered := .obj .nil (List.forall_mem_nil _)

/-- An object stays in order with one more field. -/
theorem insert (h : (Json.obj fields).Ordered) (name : String) {value : Json}
    (hvalue : value.Ordered) : (Json.obj (Fields.insert name value fields)).Ordered := by
  refine .obj (h.sorted.insert name value) fun entry hentry => ?_
  rcases Fields.mem_of_mem_insert hentry with rfl | hentry
  · exact hvalue
  · exact h.of_mem hentry

end Ordered

/-! ## What is read from texts -/

/-- Whatever a step of reading gives has a property. -/
def Gives {α : Type} (P : α → Prop) (x? : Option α) : Prop := ∀ x, x? = some x → P x

namespace Gives

variable {α β : Type} {P : α → Prop} {Q : β → Prop}

theorem none : Gives P none := nofun

theorem some {x : α} (h : P x) : Gives P (some x) := fun _ hx => Option.some.inj hx ▸ h

theorem bind {x? : Option α} {f : α → Option β} (hx : Gives P x?) (h : ∀ x, P x → Gives Q (f x)) :
    Gives Q (x?.bind f) := by
  intro y hy
  obtain ⟨x, hx?, hy⟩ := Option.bind_eq_some_iff.mp hy
  exact h x (hx x hx?) y hy

/-- A step whose own outcome has no part in the property. -/
theorem after {x? : Option α} {f : α → Option β} (h : ∀ x, Gives Q (f x)) :
    Gives Q (x?.bind f) :=
  bind (P := fun _ => True) (fun _ _ => trivial) fun x _ => h x

end Gives

/-- A number is an integer or a float. -/
theorem gives_number? (negative : Bool) (whole : List Char) (fraction : Option (List Char))
    (exponent : Option Int) : Gives Ordered (number? negative whole fraction exponent) := by
  unfold number?
  dsimp only
  split
  · split
    · exact .after fun x => .some (.float _)
    · split
      · exact .some (.int _)
      · split
        · exact .after fun x => .some (.float _)
        · exact .some (.int _)
  · exact .after fun x => .some (.float _)

theorem gives_readNumber? (cs : List Char) : Gives (·.1.Ordered) (readNumber? cs) := by
  have hnumber (negative : Bool) (whole : List Char) (fraction : Option (List Char))
      (exponent : Option Int) (cs : List Char) : Gives (·.1.Ordered)
        ((number? negative whole fraction exponent).bind fun json => some (json, cs)) :=
    .bind (gives_number? negative whole fraction exponent) fun json hjson => .some hjson
  unfold readNumber?
  -- there may be a fraction, and then an exponent
  refine .after fun (whole, cs) => ?_
  dsimp only
  split
  · refine .after fun _ => .after fun (fraction, cs) => ?_
    split
    · exact .after fun _ => .after fun _ => hnumber _ _ _ _ _
    · exact .after fun _ => .after fun _ => hnumber _ _ _ _ _
    · exact .after fun _ => hnumber _ _ _ _ _
  · refine .after fun (fraction, cs) => ?_
    split
    · exact .after fun _ => .after fun _ => hnumber _ _ _ _ _
    · exact .after fun _ => .after fun _ => hnumber _ _ _ _ _
    · exact .after fun _ => hnumber _ _ _ _ _

theorem gives_readWord? (word cs : List Char) {json : Json} (h : json.Ordered) :
    Gives (·.1.Ordered) (readWord? word json cs) := by
  unfold readWord?
  split
  · exact .some h
  · exact .none

/-- Values, items and fields are in order as far as they are read. -/
theorem gives_read (n : Nat) :
    (∀ depth cs, Gives (·.1.Ordered) (readValue? n depth cs))
    ∧ (∀ depth cs, Gives (fun found => ∀ item ∈ found.1, item.Ordered) (readItems? n depth cs))
    ∧ ∀ depth done cs, (obj done).Ordered →
      Gives (fun found => (obj found.1).Ordered) (readFields? n depth done cs) := by
  induction n with
  | zero => exact ⟨fun _ _ => .none, fun _ _ => .none, fun _ _ _ _ => .none⟩
  | succ n ih =>
    obtain ⟨hvalue, hitems, hfields⟩ := ih
    refine ⟨fun depth cs => ?_, fun depth cs => ?_, fun depth done cs hdone => ?_⟩
    · rw [readValue?]
      split
      · exact .after fun _ => .some (.str _)
      · split
        · exact .none
        · exact .some (.arr (List.forall_mem_nil _))
        · exact .bind (hitems _ _) fun found hfound => .some (.arr hfound)
      · split
        · exact .none
        · exact .some .nil
        · exact .bind (hfields _ _ _ .nil) fun found hfound => .some hfound
      · exact gives_readWord? _ _ (.bool true)
      · exact gives_readWord? _ _ (.bool false)
      · exact gives_readWord? _ _ .null
      · exact gives_readNumber? _
    · rw [readItems?]
      refine .bind (hvalue depth cs) fun ⟨item, rest⟩ hitem => ?_
      dsimp only at hitem ⊢
      split
      · refine .bind (hitems _ _) fun found hfound => .some ?_
        exact List.forall_mem_cons.mpr ⟨hitem, hfound⟩
      · exact .some (List.forall_mem_singleton.mpr hitem)
      · exact .none
    · rw [readFields?]
      split
      · refine .after fun ⟨name, rest⟩ => ?_
        dsimp only
        split
        · refine .bind (hvalue _ _) fun ⟨value, rest⟩ hjson => ?_
          dsimp only at hjson ⊢
          split
          · exact hfields _ _ _ (hdone.insert name hjson)
          · exact .some (hdone.insert name hjson)
          · exact .none
        · exact .none
      · exact .none

/-- Every value that is read from a text is in order. -/
theorem ordered_of_read? {text : String} {json : Json} (h : read? text = some json) :
    json.Ordered := by
  have hread : Gives Ordered (read? text) := by
    refine .bind ((gives_read _).1 _ _) fun ⟨json, rest⟩ hjson => ?_
    dsimp only
    split
    · exact .some hjson
    · exact .none
  exact hread json h

end Json

namespace Descriptor

/-- The descriptors that are built from values in order by the operations that there are. -/
inductive Built : Descriptor → Prop where
  | empty : Built empty
  | ofJson {json : Json} {d : Descriptor} (hjson : json.Ordered) (h : ofJson json = .ok d) : Built d
  | filter {d : Descriptor} (h : Built d) (key : String) {value : Json} (hvalue : value.Ordered) :
      Built (d.filter key value)
  | includeRelation {d : Descriptor} (h : Built d) (aliasName : String) :
      Built (d.includeRelation aliasName)
  | orderBy {d : Descriptor} (h : Built d) (column : String) : Built (d.orderBy column)
  | limit {d : Descriptor} (h : Built d) (n : Int64) : Built (d.limit n)
  | offset {d : Descriptor} (h : Built d) (n : Int64) : Built (d.offset n)
  | page {d : Descriptor} (h : Built d) (number size : Int64) : Built (d.page number size)
  | columns {d : Descriptor} (h : Built d) (names : List String) : Built (d.columns names)

/-- The keys of a descriptor stand in order, each of them once, and so do those of its `where`. -/
structure Ordered (d : Descriptor) : Prop where
  fields : d.fields.Sorted
  clause : ∀ clause, d.fields.get? "where" = some (.obj clause) → Fields.Sorted clause

variable {d : Descriptor}

/-- A condition leaves a descriptor in order. -/
theorem ordered_filter (h : d.toJson.Ordered) (key : String) {value : Json}
    (hvalue : value.Ordered) : (d.filter key value).toJson.Ordered := by
  unfold filter
  split
  · refine h.insert "where" (Json.Ordered.insert ?_ key hvalue)
    split
    · rename_i clause hclause
      exact h.of_mem (Fields.mem_of_get? hclause)
    · exact .nil
  · exact h.insert key hvalue

/-- What is built is in order, in all its parts. -/
theorem Built.toJson_ordered (h : Built d) : d.toJson.Ordered := by
  induction h with
  | empty => exact .nil
  | @ofJson json d hjson h =>
    cases json with
    | null =>
      rw [← Except.ok.inj h]
      exact .nil
    | obj fields =>
      rw [← Except.ok.inj h]
      exact hjson
    | _ => exact absurd h nofun
  | filter _ key hvalue ih => exact ordered_filter ih key hvalue
  | includeRelation _ aliasName ih => exact ih.insert "include" (.str _)
  | orderBy _ column ih => exact ih.insert "order" (.str _)
  | limit _ n ih => exact ih.insert "limit" (.int _)
  | offset _ n ih => exact ih.insert "offset" (.int _)
  | page _ number size ih => exact (ih.insert "page" (.int _)).insert "pageSize" (.int _)
  | columns _ names ih =>
    refine ih.insert "columns" (.arr fun item hitem => ?_)
    obtain ⟨name, -, rfl⟩ := List.mem_map.mp hitem
    exact .str name

/-- Every descriptor is in order that is built from values in order. -/
theorem Built.ordered (h : Built d) : d.Ordered where
  fields := h.toJson_ordered.sorted
  clause _ hclause := (h.toJson_ordered.of_mem (Fields.mem_of_get? hclause)).sorted

end Descriptor

end RecordMapping
