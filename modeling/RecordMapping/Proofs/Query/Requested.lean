import Mathlib.Data.List.TakeWhile
import RecordMapping.Proofs.Query.Aliases

/-!
# What a requested name means

The columns that are requested of the records are selected in two ways: by the plain select under
their own names, and by the select that loads relations behind a prefix, after the primary key
unless this is among them. The plain select takes a table in front of a name for what it is. The
other one takes every name for a column of the records' own table, whatever is in front of it.

* `qualify_eq_own_iff`: the two readings of a name agree exactly if it has no dot;
* `requested_agree_iff`: so it is with every name that is requested of a query.
-/

namespace RecordMapping

namespace Text

/-! ## Splitting at the first occurrence -/

/-- The parts before and after the first occurrence, with the character in between, are the text. -/
theorem toList_of_splitFirst? {separator : Char} {s before after : String}
    (h : splitFirst? separator s = some (before, after)) :
    s.toList = before.toList ++ separator :: after.toList := by
  unfold splitFirst? at h
  dsimp only at h
  have hwhole := List.takeWhile_append_dropWhile (p := (· != separator)) (l := s.toList)
  cases hrest : s.toList.dropWhile (· != separator) with
  | nil =>
    rw [hrest] at h
    exact absurd h nofun
  | cons c rest =>
    rw [hrest] at h hwhole
    obtain ⟨rfl, rfl⟩ := Prod.mk.inj (Option.some.inj h)
    -- the rest begins with the character at which the first part ends
    have hc : c = separator := by
      have hhead := List.head?_dropWhile_not (· != separator) s.toList
      rw [hrest] at hhead
      simpa using hhead
    rw [String.toList_ofList, String.toList_ofList]
    exact (hc ▸ hwhole).symm

/-- A text is not split exactly if the character does not occur. -/
theorem splitFirst?_eq_none_iff {separator : Char} {s : String} :
    splitFirst? separator s = none ↔ separator ∉ s.toList := by
  unfold splitFirst?
  dsimp only
  constructor
  · intro h hmem
    split at h
    · exact absurd h nofun
    · rename_i hnil
      have hall := List.dropWhile_eq_nil_iff.mp hnil separator hmem
      simp at hall
  · intro hnot
    have hnil : s.toList.dropWhile (· != separator) = [] :=
      List.dropWhile_eq_nil_iff.mpr fun c hc => by
        simp only [bne_iff_ne, ne_eq]
        rintro rfl
        exact hnot hc
    rw [hnil]

end Text

namespace Expansion

open Sql

variable {schema : Schema} {storage : DateStorage} {model : Model} {query : Query}
  {expansion : Expansion}

/-! ## One name -/

/-- A name means a column of the table itself exactly if no table is in front of it. -/
theorem qualify_eq_own_iff {table name : String} :
    (⟨table, name⟩ : ColumnRef) = qualify table name ↔ '.' ∉ name.toList := by
  rw [← Text.splitFirst?_eq_none_iff]
  unfold qualify
  cases hsplit : Text.splitFirst? '.' name with
  | none => exact ⟨fun _ => rfl, fun _ => rfl⟩
  | some parts =>
    obtain ⟨before, column⟩ := parts
    refine ⟨fun h => ?_, nofun⟩
    -- what follows the dot is shorter than the name
    have hlist := Text.toList_of_splitFirst? hsplit
    rw [(ColumnRef.mk.inj h).2] at hlist
    have hlength := congrArg List.length hlist
    simp at hlength
    omega

/-! ## The items of the two selects -/

/-- What is selected in front of the requested names: the primary key, unless it is among them. -/
def impliedKey (model : Model) (requested : List String) : List String :=
  if requested.contains model.primaryKey then [] else [model.primaryKey]

theorem prefixedItems_of_requested {requested : List String} (h : requested ≠ [])
    (aliasName : String) :
    prefixedItems model aliasName requested
      = (impliedKey model requested ++ requested).map fun name =>
        .column ⟨aliasName, name⟩ (.prefixed aliasName) := by
  have hsome : requested.isEmpty = false := List.isEmpty_eq_false_iff.mpr h
  unfold prefixedItems impliedKey
  simp only [hsome, Bool.false_eq_true, if_false]
  split <;> rfl

/-- At the place of a requested name the plain select returns the column that the name means. -/
theorem getElem?_plainItems {base : TableRef} {columns : List String} {place : Nat} {name : String}
    (h : columns[place]? = some name) :
    (plainItems base columns)[place]? = some (.column (qualify base.aliasName name) .bare) := by
  have hsome : columns.isEmpty = false :=
    List.isEmpty_eq_false_iff.mpr fun hnil => by simp [hnil] at h
  unfold plainItems
  rw [hsome, if_neg Bool.false_ne_true, List.getElem?_map, h]
  rfl

/-- Behind the implied key, the select that loads relations returns in its place the column of the
records' own table that has the requested name. -/
theorem getElem?_loadingItems {base : TableRef} {columns : List String} {plain : Select}
    {loading : Loading} {place : Nat} {name : String} (h : columns[place]? = some name) :
    (loadingSelect model base columns plain loading).items[
        (impliedKey model columns).length + place]?
      = some (.column ⟨base.aliasName, name⟩ (.prefixed base.aliasName)) := by
  have hsome : columns ≠ [] := fun hnil => by simp [hnil] at h
  have hname : (impliedKey model columns ++ columns)[(impliedKey model columns).length + place]?
      = some name := by
    rw [List.getElem?_append_right (Nat.le_add_right _ _), Nat.add_sub_cancel_left, h]
  have hitem : (prefixedItems model base.aliasName columns)[
      (impliedKey model columns).length + place]?
      = some (.column ⟨base.aliasName, name⟩ (.prefixed base.aliasName)) := by
    rw [prefixedItems_of_requested hsome, List.getElem?_map, hname]
    rfl
  obtain ⟨hlt, -⟩ := List.getElem?_eq_some_iff.mp hitem
  exact (List.getElem?_append_left hlt).trans hitem

/-! ## Queries -/

/-- **Relations that are loaded do not change what a requested name means, unless it has a dot.**
Take a query whose requested columns are named, and relations of which some are loaded. Without them
it has the same base table and the same select that counts. A requested name means there what is in
front of its dot, or a column of the base table. With the relations it means the column of the base
table that has the whole name, which is the same column exactly if it has no dot. All of them stand
in their order, behind the primary key if this is not requested. -/
theorem requested_agree_iff (hkind : query.kind = .select)
    (h : ofQuery schema storage model query = .ok expansion) (hincluded : expansion.included ≠ []) :
    ∃ plain select,
      ofQuery schema storage model { query with includes := [] }
          = .ok { expansion with tree := .select plain, included := [] }
        ∧ expansion.tree = .select select ∧ select.table = plain.table
        ∧ ∀ place name, query.columns[place]? = some name → ∃ ref own,
          plain.items[place]? = some (.column ref .bare)
            ∧ select.items[(impliedKey model query.columns).length + place]?
              = some (.column own (.prefixed expansion.baseAlias))
            ∧ ref = qualify expansion.baseAlias name ∧ own = ⟨expansion.baseAlias, name⟩
            ∧ (own = ref ↔ '.' ∉ name.toList) := by
  obtain ⟨keys, loading, select, hkeys, -, hselect, rfl⟩ := ofQuery_select hkind h
  rcases selectWith_eq_ok hselect with ⟨hnone, -⟩ | ⟨-, rfl⟩
  · exact absurd hnone hincluded
  have hbare : ofQuery schema storage model { query with includes := [] }
      = .ok ⟨.select (plainOf schema storage model query keys),
        some (countOf schema storage model query keys), [], (baseTable model query).aliasName⟩ := by
    refine bind_eq_ok.mpr ⟨_, resolveConditions_eq_ok.mpr ⟨keys, hkeys, rfl, rfl⟩, ?_⟩
    rw [hkind]
    rfl
  refine ⟨_, _, hbare, rfl, rfl, fun place name hname => ⟨_, _, ?_, ?_, rfl, rfl, ?_⟩⟩
  · exact getElem?_plainItems hname
  · exact getElem?_loadingItems hname
  · exact qualify_eq_own_iff

/-- The query for the titles of posts, with the names of their authors and with their tags. -/
def titlesWithAuthors : Query :=
  { Query.empty .select with
    columns := ["title", "authors.name"]
    joins := [⟨.inner, "authors", [("id", .column "author_id")]⟩]
    includes := ["tags"] }

/-- With the tags, the name of the author is looked for among the columns of the posts. -/
theorem requested_agree_iff_titlesWithAuthors : ∃ expansion plain select,
    titlesWithAuthors.kind = .select
      ∧ ofQuery taggings .epoch posts titlesWithAuthors = .ok expansion
      ∧ expansion.included ≠ []
      ∧ ofQuery taggings .epoch posts { titlesWithAuthors with includes := [] }
        = .ok { expansion with tree := .select plain, included := [] }
      ∧ expansion.tree = .select select
      ∧ plain.items[1]? = some (.column ⟨"authors", "name"⟩ .bare)
      ∧ select.items[2]? = some (.column ⟨"posts", "authors.name"⟩ (.prefixed "posts")) := by
  have hexpansion : ofQuery taggings .epoch posts titlesWithAuthors = .ok _ := rfl
  obtain ⟨plain, select, hbare, htree, -, hitems⟩ :=
    requested_agree_iff rfl hexpansion (List.cons_ne_nil _ _)
  obtain ⟨ref, own, href, hown, rfl, rfl, -⟩ := hitems 1 "authors.name" rfl
  exact ⟨_, plain, select, rfl, hexpansion, List.cons_ne_nil _ _, hbare, htree, href, hown⟩

end Expansion

end RecordMapping
