import RecordMapping.Proofs.Firsts
import RecordMapping.Proofs.Query.Aliases

/-!
# Which relations are loaded

A list of relations to load may hold names that mean no relation of the model, and may hold a name
more than once. Both are passed over without a trace: not only the relations that are loaded are
those of the names that count, but the statement, the one that counts records and any error are the
same as without the others.

* `loadRelation_of_loaded` and `loadRelation_of_unknown`: what is passed over, step by step;
* `foldlM_knownNames`: so it is over a whole list;
* `ofQuery_knownNames`: the expansion of a query depends on the names that count only.
-/

namespace RecordMapping.Expansion

open Sql

/-- The aliases of the relations that are loaded. -/
def Loading.aliases (loading : Loading) : List String := loading.included.map (·.aliasName)

/-- Whether a name means a relation of a model. -/
def isKnown (schema : Schema) (model : Model) (name : String) : Bool :=
  (schema.relation? model.name name).isSome

/-- The names that mean relations of a model, each of them where it stands first. -/
def knownNames (schema : Schema) (model : Model) (names : List String) : List String :=
  firstsBy some (names.filter (isKnown schema model))

variable {schema : Schema} {model : Model} {base : TableRef} {storage : DateStorage}
  {loading loading' : Loading} {name : String}

/-! ## One name -/

theorem any_aliasName_iff :
    loading.included.any (·.aliasName == name) = true ↔ name ∈ loading.aliases := by
  simp [Loading.aliases]

/-- A relation that is loaded already is passed over. -/
theorem loadRelation_of_loaded (h : name ∈ loading.aliases) :
    loadRelation schema model base loading name = .ok loading :=
  if_pos (any_aliasName_iff.mpr h)

/-- A name that means no relation is passed over. -/
theorem loadRelation_of_unknown (h : isKnown schema model name = false) :
    loadRelation schema model base loading name = .ok loading := by
  have hnone : schema.relation? model.name name = none := by
    simpa [isKnown] using h
  unfold loadRelation
  rw [hnone]
  exact ite_self _

/-- Any other name is loaded behind the others, if it can be. -/
theorem aliases_of_loadRelation
    (h : loadRelation schema model base loading name = .ok loading')
    (hknown : isKnown schema model name = true) (hnew : name ∉ loading.aliases) :
    loading'.aliases = loading.aliases ++ [name] := by
  obtain ⟨r, hr⟩ := Option.isSome_iff_exists.mp hknown
  unfold loadRelation at h
  rw [if_neg fun hloaded => hnew (any_aliasName_iff.mp hloaded), hr] at h
  dsimp only at h
  split at h
  · exact absurd h nofun
  · obtain ⟨target, -, h⟩ := bind_eq_ok.mp h
    rw [← Except.ok.inj h]
    exact List.map_append

/-- What is loaded stays loaded, and a name that means a relation is loaded after its turn. -/
theorem mem_aliases_of_loadRelation
    (h : loadRelation schema model base loading name = .ok loading') :
    (∀ other ∈ loading.aliases, other ∈ loading'.aliases)
      ∧ (isKnown schema model name = true → name ∈ loading'.aliases) := by
  by_cases hloaded : name ∈ loading.aliases
  · rw [loadRelation_of_loaded hloaded] at h
    obtain rfl := Except.ok.inj h
    exact ⟨fun _ hother => hother, fun _ => hloaded⟩
  · cases hknown : isKnown schema model name with
    | false =>
      rw [loadRelation_of_unknown hknown] at h
      obtain rfl := Except.ok.inj h
      exact ⟨fun _ hother => hother, nofun⟩
    | true =>
      rw [aliases_of_loadRelation h hknown hloaded]
      exact ⟨fun _ hother => List.mem_append_left _ hother,
        fun _ => List.mem_append_right _ List.mem_cons_self⟩

/-! ## A list of names -/

/-- Once a relation is loaded its name makes no difference any more. -/
theorem foldlM_filter_ne (names : List String) (h : name ∈ loading.aliases) :
    (names.filter fun other => Apart some name other).foldlM
        (loadRelation schema model base) loading
      = names.foldlM (loadRelation schema model base) loading := by
  -- the name stays among the aliases, so each of its places is passed over in turn
  induction names generalizing loading with
  | nil => rfl
  | cons other names ih =>
    by_cases hsame : other = name
    · subst hsame
      rw [List.filter_cons_of_neg (by simp [Apart]), List.foldlM_cons, loadRelation_of_loaded h]
      exact ih h
    · rw [List.filter_cons_of_pos (by simpa [Apart] using hsame), List.foldlM_cons,
        List.foldlM_cons]
      exact bind_congr_of_ok fun next hnext => ih ((mem_aliases_of_loadRelation hnext).1 name h)

theorem knownNames_cons_of_known (h : isKnown schema model name = true) (names : List String) :
    knownNames schema model (name :: names)
      = name :: (knownNames schema model names).filter fun other => Apart some name other := by
  rw [knownNames, List.filter_cons_of_pos h, firstsBy, knownNames]

theorem knownNames_cons_of_unknown (h : isKnown schema model name = false)
    (names : List String) :
    knownNames schema model (name :: names) = knownNames schema model names := by
  rw [knownNames, List.filter_cons_of_neg (by simp [h]), knownNames]

/-- Names that are passed over leave no trace, neither in what is loaded nor in an error. -/
theorem foldlM_knownNames (names : List String) (loading : Loading) :
    (knownNames schema model names).foldlM (loadRelation schema model base) loading
      = names.foldlM (loadRelation schema model base) loading := by
  induction names generalizing loading with
  | nil => rfl
  | cons name names ih =>
    cases hknown : isKnown schema model name with
    | true =>
      rw [knownNames_cons_of_known hknown, List.foldlM_cons, List.foldlM_cons]
      refine bind_congr_of_ok fun next hnext => ?_
      rw [foldlM_filter_ne _ ((mem_aliases_of_loadRelation hnext).2 hknown), ih]
    | false =>
      rw [knownNames_cons_of_unknown hknown, List.foldlM_cons, loadRelation_of_unknown hknown]
      exact ih loading

theorem loadRelations_knownNames (names : List String) :
    loadRelations schema model base (knownNames schema model names)
      = loadRelations schema model base names :=
  foldlM_knownNames names _

/-- New names of relations are all loaded, in their order. -/
theorem aliases_of_foldlM {names : List String}
    (hknown : ∀ name ∈ names, isKnown schema model name = true)
    (hnew : (loading.aliases ++ names).Nodup)
    (h : names.foldlM (loadRelation schema model base) loading = .ok loading') :
    loading'.aliases = loading.aliases ++ names := by
  induction names generalizing loading with
  | nil =>
    rw [← Except.ok.inj h, List.append_nil]
  | cons name names ih =>
    rw [List.foldlM_cons] at h
    obtain ⟨next, hnext, h⟩ := bind_eq_ok.mp h
    obtain ⟨hname, hnames⟩ := List.forall_mem_cons.mp hknown
    have hname' : name ∉ loading.aliases := fun hmem =>
      (List.nodup_append.mp hnew).2.2 name hmem name List.mem_cons_self rfl
    have haliases := aliases_of_loadRelation hnext hname hname'
    have happend : loading.aliases ++ name :: names = next.aliases ++ names := by
      rw [haliases, List.append_assoc]
      rfl
    rw [happend] at hnew ⊢
    exact ih hnames hnew h

/-- The relations that are loaded are those of the names that count. -/
theorem aliases_loadRelations {names : List String}
    (h : loadRelations schema model base names = .ok loading) :
    loading.aliases = knownNames schema model names := by
  rw [← loadRelations_knownNames] at h
  refine aliases_of_foldlM (fun name hname => ?_) ?_ h
  · exact (List.mem_filter.mp ((firstsBy_sublist _).mem hname)).2
  · exact (pairwise_firstsBy _).imp fun hapart heq => by simp [Apart, heq] at hapart

/-! ## Queries -/

/-- **Only known names matter, and each of them once.** A query has the same expansion, or the same
error, with the names alone that mean relations of the model, each where it stands first; so without
any such name it has the expansion without a list. And the relations that are loaded with a select
are those that are left. -/
theorem ofQuery_knownNames (schema : Schema) (storage : DateStorage) (model : Model)
    (query : Query) :
    ofQuery schema storage model
        { query with includes := knownNames schema model query.includes }
      = ofQuery schema storage model query
    ∧ (knownNames schema model query.includes = [] →
      ofQuery schema storage model query
        = ofQuery schema storage model { query with includes := [] })
    ∧ ∀ expansion, query.kind = .select → ofQuery schema storage model query = .ok expansion →
      expansion.included.map (·.aliasName) = knownNames schema model query.includes := by
  have hsame : ofQuery schema storage model
      { query with includes := knownNames schema model query.includes }
      = ofQuery schema storage model query := by
    have hselect (base : TableRef) (joins : List (Join Select)) (predicates : List Predicate) :
        ofSelect schema model base
          { query with includes := knownNames schema model query.includes } joins predicates
        = ofSelect schema model base query joins predicates := by
      unfold ofSelect
      rw [loadRelations_knownNames]
      rfl
    unfold ofQuery
    simp only [hselect]
    rfl
  refine ⟨hsame, fun hnone => ?_, fun expansion hkind h => ?_⟩
  · rw [← hsame, hnone]
  · obtain ⟨keys, loading, select, -, hloading, -, rfl⟩ := ofQuery_select hkind h
    exact aliases_loadRelations hloading

/-- Of likes, which are no relation of posts, and tags, which are asked for twice, the tags are
loaded; likes alone are asked for in vain. -/
theorem ofQuery_knownNames_taggings : ∃ expansion,
    ofQuery taggings .epoch posts (postsWith ["likes", "tags", "likes", "tags"]) = .ok expansion
      ∧ knownNames taggings posts ["likes", "tags", "likes", "tags"] = ["tags"]
      ∧ ofQuery taggings .epoch posts (postsWith ["tags"]) = .ok expansion
      ∧ expansion.included.map (·.aliasName) = ["tags"]
      ∧ knownNames taggings posts ["likes"] = []
      ∧ ofQuery taggings .epoch posts (postsWith ["likes"])
        = ofQuery taggings .epoch posts (postsWith []) := by
  have hexpansion : ofQuery taggings .epoch posts
      (postsWith ["likes", "tags", "likes", "tags"]) = .ok _ := rfl
  have hknown : knownNames taggings posts ["likes", "tags", "likes", "tags"] = ["tags"] := by decide
  have hnone : knownNames taggings posts ["likes"] = [] := by decide
  obtain ⟨hsame, -, hincluded⟩ := ofQuery_knownNames taggings .epoch posts
    (postsWith ["likes", "tags", "likes", "tags"])
  obtain ⟨-, hwithout, -⟩ := ofQuery_knownNames taggings .epoch posts (postsWith ["likes"])
  have htags : postsWith (knownNames taggings posts ["likes", "tags", "likes", "tags"])
      = postsWith ["tags"] := congrArg postsWith hknown
  exact ⟨_, hexpansion, hknown, htags ▸ hsame.trans hexpansion,
    (hincluded _ rfl hexpansion).trans hknown, hnone, hwithout hnone⟩

end RecordMapping.Expansion
