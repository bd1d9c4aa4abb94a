import RecordMapping.Proofs.Query.Spellings

/-!
# Adding names to a descriptor

Relations to load and terms of an order are added to a descriptor one by one. A name is added to the
text that stands under its key. There are other forms of a list of names, and these are not carried
over: an array, an order object, and an order that is called `sort`.

* `exists_addName`: what is put under the key is a text with the names of the earlier text and the
  new one;
* `ofDescriptor_includeRelation` and `ofDescriptor_orderBy`: the query of the new descriptor;
* `names_accumulate_iff`: the earlier names are kept exactly if they are those of a text, or if
  there are none.
-/

namespace RecordMapping

open Text

namespace Text

theorem splitNames_append (s t : String) :
    splitNames (s ++ "," ++ t) = splitNames s ++ splitNames t := by
  have hsplit : (s ++ "," ++ t).toList.splitOn ','
      = s.toList.splitOn ',' ++ t.toList.splitOn ',' := by
    rw [String.toList_append, String.toList_append, List.append_assoc]
    exact List.splitOn_append_cons_self s.toList t.toList
  simp only [splitNames, splitChars_eq_splitOn, hsplit, List.map_append, List.filter_append]

/-- A text without commas that is not blank is one name. -/
theorem splitNames_of_name {name : String} (hblank : trim name ≠ "") (hcomma : ',' ∉ name.toList) :
    splitNames name = [trim name] := by
  have hnames := splitNames_intercalate (List.forall_mem_singleton.mpr hcomma)
  rw [String.intercalate_singleton] at hnames
  simpa [hblank] using hnames

end Text

namespace Descriptor

/-- The names in the text under a key. A list in any other form counts as empty. -/
def textNames (d : Descriptor) (key : String) : List String :=
  match (d.fields.get? key).bind Json.asString? with
  | some text => splitNames text
  | none => []

variable {d : Descriptor} {key name : String}

theorem textNames_of_text {text : String} (h : d.fields.get? key = some (.str text)) :
    d.textNames key = splitNames text := by
  rw [textNames, h]
  rfl

theorem textNames_of_not_text (h : ¬ ∃ text, d.fields.get? key = some (.str text)) :
    d.textNames key = [] := by
  have hnone : (d.fields.get? key).bind Json.asString? = none := by
    cases hvalue : d.fields.get? key with
    | none => rfl
    | some value =>
      cases value with
      | str text => exact absurd ⟨text, hvalue⟩ h
      | _ => rfl
  rw [textNames, hnone]

/-- A name is added behind the names of a text. -/
theorem exists_addName (key : String) (hblank : trim name ≠ "") (hcomma : ',' ∉ name.toList) :
    ∃ text, d.addName key name = d.put key (.str text)
      ∧ splitNames text = d.textNames key ++ [trim name] := by
  have hname := splitNames_of_name hblank hcomma
  unfold addName textNames
  cases (d.fields.get? key).bind Json.asString? with
  | none => exact ⟨name, rfl, hname⟩
  | some text =>
    dsimp only
    by_cases hempty : text.isEmpty = true
    · rw [if_pos hempty, String.isEmpty_iff.mp hempty]
      exact ⟨name, rfl, hname⟩
    · rw [if_neg hempty]
      exact ⟨text ++ "," ++ name, rfl, by rw [splitNames_append, hname]⟩

end Descriptor

namespace Query

open Descriptor

variable {config : Config} {d : Descriptor} {query : Query} {name : String}

/-! ## The query of the new descriptor -/

/-- One more relation to load changes nothing else. -/
theorem ofDescriptor_includeRelation (hquery : ofDescriptor config d = .ok query)
    (hblank : trim name ≠ "") (hcomma : ',' ∉ name.toList) :
    ofDescriptor config (d.includeRelation name)
      = .ok { query with includes := d.textNames "include" ++ [trim name] } := by
  obtain ⟨text, hput, hnames⟩ := d.exists_addName "include" hblank hcomma
  have hread := ofDescriptor_eq_ok.mp hquery
  rw [includeRelation, hput]
  refine ofDescriptor_eq_ok.mpr (hread.changed ?_ ?_ ?_ ?_ ?_)
  · intro key hkey
    exact get?_put_of_ne (by rintro rfl; revert hkey; decide) _
  · exact joinKeys_put (by decide) _
  · rw [get?_put_self, ← hnames]
    rfl
  · rw [order?, get?_put_of_ne (by decide), get?_put_of_ne (by decide)]
    exact hread.order
  · rw [clause?_put (by decide) (by decide)]
    exact hread.conditions

/-- One more term of the order changes nothing else. -/
theorem ofDescriptor_orderBy (hquery : ofDescriptor config d = .ok query)
    (hblank : trim name ≠ "") (hcomma : ',' ∉ name.toList) :
    ofDescriptor config (d.orderBy name) = .ok { query with
      order := (d.textNames "order").map readOrderEntry ++ [readOrderEntry (trim name)] } := by
  obtain ⟨text, hput, hnames⟩ := d.exists_addName "order" hblank hcomma
  have hread := ofDescriptor_eq_ok.mp hquery
  rw [orderBy, hput]
  refine ofDescriptor_eq_ok.mpr (hread.changed ?_ ?_ ?_ ?_ ?_)
  · intro key hkey
    exact get?_put_of_ne (by rintro rfl; revert hkey; decide) _
  · exact joinKeys_put (by decide) _
  · rw [get?_put_of_ne (by decide)]
    exact hread.includes
  · -- with an order in place nobody looks for `sort`
    rw [order?, get?_put_self, Option.some_or]
    show Except.ok ((splitNames text).map readOrderEntry) = _
    rw [hnames, List.map_append]
    rfl
  · rw [clause?_put (by decide) (by decide)]
    exact hread.conditions

/-! ## What is kept -/

/-- Where either all elements are kept or none, all are kept also if there are none. -/
theorem kept_eq_iff {α : Type} {P : Prop} {kept all : List α} (hkept : P → kept = all)
    (hlost : ¬ P → kept = []) : kept = all ↔ all = [] ∨ P := by
  by_cases hP : P
  · exact ⟨fun _ => .inr hP, fun _ => hkept hP⟩
  · rw [hlost hP]
    exact ⟨fun h => .inl h.symm, fun h => (h.resolve_right hP).symm⟩

/-- The relations to load that are kept. -/
theorem textNames_include_iff (hread : IsReadFrom config d query) :
    d.textNames "include" = query.includes
      ↔ query.includes = [] ∨ ∃ text, d.fields.get? "include" = some (.str text) := by
  refine kept_eq_iff (fun htext => ?_) textNames_of_not_text
  obtain ⟨text, htext⟩ := htext
  have hincludes := hread.includes
  rw [htext] at hincludes
  rw [textNames_of_text htext]
  exact Except.ok.inj hincludes

/-- The terms of the order that are kept. -/
theorem textNames_order_iff (hread : IsReadFrom config d query) :
    (d.textNames "order").map readOrderEntry = query.order
      ↔ query.order = [] ∨ ∃ text, d.fields.get? "order" = some (.str text) := by
  refine kept_eq_iff (fun htext => ?_) fun h => by rw [textNames_of_not_text h]; rfl
  obtain ⟨text, htext⟩ := htext
  have horder := hread.order
  rw [order?, htext, Option.some_or] at horder
  rw [textNames_of_text htext]
  exact Except.ok.inj horder

/-- **Names accumulate as long as they stand in a text.** Of a descriptor that stands for a query,
one more name makes the query with this name behind the others, and all else as it was, exactly if
the list is empty so far or a text under its own key. In any other form, and so too if the order is
called `sort`, the list is lost, and only the new name is left. -/
theorem names_accumulate_iff (hquery : ofDescriptor config d = .ok query)
    (hblank : trim name ≠ "") (hcomma : ',' ∉ name.toList) :
    ((ofDescriptor config (d.includeRelation name)
          = .ok { query with includes := query.includes ++ [trim name] }
        ↔ query.includes = [] ∨ ∃ text, d.fields.get? "include" = some (.str text))
      ∧ ((¬ ∃ text, d.fields.get? "include" = some (.str text)) →
        ofDescriptor config (d.includeRelation name)
          = .ok { query with includes := [trim name] }))
    ∧ (ofDescriptor config (d.orderBy name)
          = .ok { query with order := query.order ++ [readOrderEntry (trim name)] }
        ↔ query.order = [] ∨ ∃ text, d.fields.get? "order" = some (.str text))
      ∧ ((¬ ∃ text, d.fields.get? "order" = some (.str text)) →
        ofDescriptor config (d.orderBy name)
          = .ok { query with order := [readOrderEntry (trim name)] }) := by
  have hread := ofDescriptor_eq_ok.mp hquery
  rw [ofDescriptor_includeRelation hquery hblank hcomma,
    ofDescriptor_orderBy hquery hblank hcomma]
  refine ⟨⟨?_, fun htext => ?_⟩, ?_, fun htext => ?_⟩
  · rw [← textNames_include_iff hread, Except.ok.injEq, Query.mk.injEq]
    simp
  · rw [textNames_of_not_text htext, List.nil_append]
  · rw [← textNames_order_iff hread, Except.ok.injEq, Query.mk.injEq]
    simp
  · rw [textNames_of_not_text htext, List.map_nil, List.nil_append]

/-- A descriptor for records with their posts, the latest first, that has neither list in a text. -/
def latestPosts : Descriptor :=
  .ofFields [("include", .arr [.str "posts"]), ("sort", .str "-created")]

/-- The posts and the order are lost as soon as the tags are asked for. -/
theorem names_accumulate_iff_latestPosts : ∃ query,
    ofDescriptor .default latestPosts = .ok query
      ∧ query.includes = ["posts"] ∧ query.order = [("created", .desc)]
      ∧ trim "tags" ≠ "" ∧ ',' ∉ "tags".toList
      ∧ ofDescriptor .default (latestPosts.includeRelation "tags")
        = .ok { query with includes := ["tags"] }
      ∧ ofDescriptor .default (latestPosts.orderBy "tags")
        ≠ .ok { query with order := query.order ++ [readOrderEntry (trim "tags")] } := by
  have hquery : ofDescriptor .default latestPosts = .ok { Query.empty .select with
      includes := ["posts"]
      order := [("created", .desc)]
      limit? := some 50
      offset? := some 0 } := rfl
  have hblank : trim "tags" ≠ "" := by decide
  have hcomma : ',' ∉ "tags".toList := by decide
  have harray : ¬ ∃ text, latestPosts.fields.get? "include" = some (.str text) := nofun
  have hsort : ¬ ∃ text, latestPosts.fields.get? "order" = some (.str text) := nofun
  obtain ⟨⟨-, hinclude⟩, horder, -⟩ := names_accumulate_iff hquery hblank hcomma
  refine ⟨_, hquery, rfl, rfl, hblank, hcomma, hinclude harray, fun h => ?_⟩
  exact (horder.mp h).elim nofun hsort

end Query

end RecordMapping
