import RecordMapping.Proofs.Query.Expansion

/-!
# How relation filters are correlated

A condition on a relation to many joins the table that holds the relation's key, and compares a
column of it. The join ought to tie the rows of that table to the records of the query by the key of
this very relation.

* `linkFor` tells which table and key the relation of a condition needs;
* `find?_linkJoins`: joins are told apart by their aliases, and of all links under one alias the
  first one is joined;
* `correlated_iff`: so a condition is correlated by its own relation exactly if the alias is not the
  one of the query's own table and the first condition that needs the alias needs the same table by
  the same key.
-/

namespace RecordMapping.Expansion

open Sql

/-! ## The link of a relation -/

/-- The table in which a relation to many keeps its key, with the column that holds the key of the
owner: the junction, or else the target under the alias of the relation. -/
def ownedLink? (schema : Schema) (r : Relation) : Option Link :=
  if r.kind = .belongsTo then none
  else
    match r.junction? with
    | some j => some ⟨.plain j.table (some j.model), r.foreignKey⟩
    | none => (schema.model? r.target).map fun target =>
      ⟨⟨target.table, r.aliasName, some target.name⟩, r.foreignKey⟩

/-- The table in which a relation that leads to the model keeps the key of the model's records, if
that is a junction. -/
def inboundLink? (r : Relation) : Option Link :=
  r.junction?.map fun j => ⟨.plain j.table (some j.model), j.key⟩

/-- The link that a relation needs. -/
def correlation? (schema : Schema) : RelationLookup → Option Link
  | .owned r => ownedLink? schema r
  | .inbound r => inboundLink? r

/-- The link that the key of a condition needs. A key with a point names a column, not a
relation. -/
def linkFor (schema : Schema) (model : Model) (key : String) : Option Link :=
  match Text.splitFirst? '.' key with
  | some _ => none
  | none => (schema.lookup model.name key).bind (correlation? schema)

/-- A resolved key with the link of its relation, whose column is one of the linked table. -/
def FollowsLink (key : ColumnRef × Option Link) (link? : Option Link) : Prop :=
  key.2 = link? ∧ ∀ link, key.2 = some link → key.1.table = link.table.aliasName

variable {schema : Schema} {model : Model} {base : TableRef} {storage : DateStorage}

theorem followsLink_none (column : ColumnRef) : FollowsLink (column, none) none := ⟨rfl, nofun⟩

theorem followsLink_some {column : ColumnRef} {link : Link}
    (h : column.table = link.table.aliasName) : FollowsLink (column, some link) (some link) := by
  refine ⟨rfl, ?_⟩
  intro other hother
  rw [← Option.some.inj hother]
  exact h

theorem model_eq_ok {name : String} {found : Model} (h : schema.model name = .ok found) :
    schema.model? name = some found := by
  unfold Schema.model at h
  cases hmodel : schema.model? name with
  | none => rw [hmodel] at h; exact absurd h nofun
  | some model => rw [hmodel] at h; rw [Except.ok.inj h]

theorem followsLink_ownedKey {r : Relation} {key : ColumnRef × Option Link}
    (h : ownedKey schema base r = .ok key) :
    FollowsLink key (ownedLink? schema r) := by
  unfold ownedKey at h
  unfold ownedLink?
  -- only the key of a relation to one is a column of the model itself
  by_cases hkind : r.kind = .belongsTo
  · rw [if_pos hkind] at h
    rw [if_pos hkind, ← Except.ok.inj h]
    exact followsLink_none _
  · rw [if_neg hkind] at h
    rw [if_neg hkind]
    cases hjunction : r.junction? with
    | some j =>
      rw [hjunction] at h
      rw [← Except.ok.inj h]
      exact followsLink_some rfl
    | none =>
      rw [hjunction] at h
      obtain ⟨target, htarget, h⟩ := bind_eq_ok.mp h
      rw [model_eq_ok htarget, ← Except.ok.inj h]
      exact followsLink_some rfl

theorem followsLink_inboundKey (r : Relation) (key : String) :
    FollowsLink (inboundKey base key r) (inboundLink? r) := by
  unfold inboundKey inboundLink?
  cases r.junction? with
  | some j =>
    have htable : (ColumnRef.mk j.table r.foreignKey).table = j.table := rfl
    exact followsLink_some htable
  | none => exact followsLink_none _

/-- A key is resolved to a column of the table that its relation needs. -/
theorem followsLink_resolveKey {name : String} {key : ColumnRef × Option Link}
    (h : resolveKey schema model base name = .ok key) :
    FollowsLink key (linkFor schema model name) := by
  unfold resolveKey at h
  unfold linkFor
  cases hsplit : Text.splitFirst? '.' name with
  | some parts =>
    rw [hsplit] at h
    rw [← Except.ok.inj h]
    exact followsLink_none _
  | none =>
    rw [hsplit] at h
    dsimp only at h ⊢
    cases hlookup : schema.lookup model.name name with
    | none =>
      rw [hlookup] at h
      rw [← Except.ok.inj h]
      exact followsLink_none _
    | some found =>
      rw [hlookup] at h
      cases found with
      | owned r => exact followsLink_ownedKey h
      | inbound r =>
        rw [← Except.ok.inj h]
        exact followsLink_inboundKey r name

/-! ## Which link is joined -/

/-- The join under an alias. -/
def joinUnder? (joins : List (Join Select)) (aliasName : String) : Option (Join Select) :=
  joins.find? (·.table.aliasName == aliasName)

/-- The first link under an alias. -/
def linkUnder? (links : List Link) (aliasName : String) : Option Link :=
  links.find? (·.table.aliasName == aliasName)

/-- The join of a link has the alias of the link. -/
theorem joinUnder?_join (baseKey : ColumnRef) (link : Link) (aliasName : String) :
    joinUnder? [link.join baseKey] aliasName
      = (linkUnder? [link] aliasName).map (·.join baseKey) := by
  show ([link].map (·.join baseKey)).find? _ = _
  rw [List.find?_map]
  rfl

/-- A link is joined if its alias is free. -/
theorem joinUnder?_addLink (baseKey : ColumnRef) (joins : List (Join Select)) (link : Link)
    (aliasName : String) :
    joinUnder? (addLink baseKey joins (some link)) aliasName
      = (joinUnder? joins aliasName).or
        ((linkUnder? [link] aliasName).map (·.join baseKey)) := by
  unfold addLink
  dsimp only
  split
  · -- the alias is taken, so that a lookup of it ends among the joins before
    rename_i htaken
    by_cases halias : link.table.aliasName = aliasName
    · have hsome : (joinUnder? joins aliasName).isSome = true := by
        unfold joinUnder?
        rw [← halias, List.find?_isSome]
        exact List.any_eq_true.mp htaken
      rw [Option.or_of_isSome hsome]
    · have hnone : linkUnder? [link] aliasName = none := by
        unfold linkUnder?
        rw [List.find?_cons_of_neg (by simpa using halias), List.find?_nil]
      rw [hnone, Option.map_none, Option.or_none]
  · rw [← joinUnder?_join]
    exact List.find?_append

/-- Of all links under one alias the first one is joined, unless the alias was taken before. -/
theorem joinUnder?_linkJoins (keys : List (ColumnRef × Option Link)) (joins : List (Join Select))
    (aliasName : String) :
    joinUnder? (linkJoins model base keys joins) aliasName
      = (joinUnder? joins aliasName).or ((linkUnder? (keys.filterMap (·.2)) aliasName).map
        (·.join (keyRef model base.aliasName))) := by
  -- the joins that are there before a key is resolved go first, so they are generalized
  induction keys generalizing joins with
  | nil => exact (Option.or_none).symm
  | cons key keys ih =>
    obtain ⟨column, link?⟩ := key
    have hstep := ih (addLink (keyRef model base.aliasName) joins link?)
    cases link? with
    | none => exact hstep
    | some link =>
      have hlinks : linkUnder? (((column, some link) :: keys).filterMap (·.2)) aliasName
          = (linkUnder? [link] aliasName).or (linkUnder? (keys.filterMap (·.2)) aliasName) := by
        unfold linkUnder?
        rw [← List.find?_append]
        rfl
      rw [joinUnder?_addLink, Option.or_assoc, ← Option.map_or, ← hlinks] at hstep
      exact hstep

/-- Joins under different aliases. -/
def DistinctAliases (joins : List (Join Select)) : Prop :=
  (joins.map (·.table.aliasName)).Nodup

theorem distinctAliases_addLink (baseKey : ColumnRef) {joins : List (Join Select)}
    (hjoins : DistinctAliases joins) (link? : Option Link) :
    DistinctAliases (addLink baseKey joins link?) := by
  cases link? with
  | none => exact hjoins
  | some link =>
    unfold addLink
    dsimp only
    split
    · exact hjoins
    · rename_i hfree
      have hnew : link.table.aliasName ∉ joins.map (·.table.aliasName) := by
        intro hmem
        obtain ⟨join, hjoin, halias⟩ := List.mem_map.mp hmem
        exact hfree (List.any_eq_true.mpr ⟨join, hjoin, by simpa using halias⟩)
      unfold DistinctAliases
      rw [List.map_append]
      refine List.nodup_append.mpr ⟨hjoins, List.pairwise_singleton _ _, ?_⟩
      intro aliasName hmem other hother hsame
      rw [hsame, List.mem_singleton.mp hother] at hmem
      exact hnew hmem

/-- No two conditions join a table under one alias. -/
theorem distinctAliases_linkJoins (keys : List (ColumnRef × Option Link))
    {joins : List (Join Select)} (hjoins : DistinctAliases joins) :
    DistinctAliases (linkJoins model base keys joins) := by
  induction keys generalizing joins with
  | nil => exact hjoins
  | cons key keys ih => exact ih (distinctAliases_addLink _ hjoins key.2)

/-! ## Correlation -/

/-- The select of a statement that has its conditions: the derived table of keys if relations are
loaded, and otherwise the select itself. -/
def filtering? : Tree → Option Select
  | .select s =>
    match s.joins with
    | ⟨_, _, some keys, _⟩ :: _ => some keys
    | _ => some s
  | _ => none

/-- A comparison of a select is correlated by a link: it is made on a table besides the select's
first one, and this is the link's table, joined by the link's key alone. -/
structure Correlated (s : Select) (baseKey : ColumnRef) (link : Link) (p : Predicate) : Prop where
  apart : p.column.table ≠ s.table.aliasName
  joined : ∃ join, joinUnder? s.joins p.column.table = some join
    ∧ join.kind = .inner ∧ join.table.table = link.table.table ∧ join.derived? = none
    ∧ join.on = [(⟨p.column.table, link.key⟩, .column baseKey)]

/-- A link that has its alias for itself: it is not the one of the first table, and the first of the
given links under it goes to the same table by the same key. -/
structure Unrivalled (base : TableRef) (links : List Link) (link : Link) : Prop where
  apart : link.table.aliasName ≠ base.aliasName
  first : ∀ other, linkUnder? links link.table.aliasName = some other →
    other.table.table = link.table.table ∧ other.key = link.key

/-- The links of resolved keys are those of the conditions. -/
theorem links_of_resolves {conditions : List Condition} {keys : List (ColumnRef × Option Link)}
    (hkeys : Resolves schema model base conditions keys) :
    keys.filterMap (·.2) = conditions.filterMap fun c => linkFor schema model c.column := by
  induction hkeys with
  | nil => rfl
  | @cons condition key conditions keys hkey _ ih =>
    have hlink : key.2 = linkFor schema model condition.column := (followsLink_resolveKey hkey).1
    rw [List.filterMap_cons, List.filterMap_cons, hlink, ih]

/-- Among the joins of the links of a query, a comparison on a linked table is correlated by its
link exactly if no other link takes the alias. -/
theorem correlated_iff_unrivalled {s : Select} {links : List Link} {link : Link} {p : Predicate}
    (hjoins : joinUnder? s.joins link.table.aliasName
      = (linkUnder? links link.table.aliasName).map (·.join (keyRef model base.aliasName)))
    (htable : s.table = base) (hlink : link ∈ links)
    (hcolumn : p.column.table = link.table.aliasName) :
    Correlated s (keyRef model base.aliasName) link p ↔ Unrivalled base links link := by
  -- the link is one of them, so that some link comes first under its alias
  obtain ⟨first, hfirst⟩ : ∃ first, linkUnder? links link.table.aliasName = some first := by
    refine Option.isSome_iff_exists.mp (List.find?_isSome.mpr ⟨link, hlink, ?_⟩)
    exact beq_self_eq_true _
  have halias : first.table.aliasName = link.table.aliasName := by
    simpa using List.find?_some hfirst
  rw [hfirst, Option.map_some] at hjoins
  constructor
  · intro h
    obtain ⟨hapart, join, hjoin, -, hjoined, -, hon⟩ := h
    rw [hcolumn, hjoins] at hjoin
    rw [← Option.some.inj hjoin] at hjoined hon
    refine ⟨by rwa [hcolumn, htable] at hapart, ?_⟩
    intro other hother
    rw [← Option.some.inj (hfirst.symm.trans hother)]
    have hkeys := (Prod.mk.inj (List.cons.inj hon).1).1
    exact ⟨hjoined, congrArg ColumnRef.column hkeys⟩
  · intro h
    obtain ⟨hapart, hothers⟩ := h
    obtain ⟨hjoined, hkey⟩ := hothers first hfirst
    refine ⟨by rwa [hcolumn, htable], first.join (keyRef model base.aliasName), ?_, rfl, hjoined,
      rfl, ?_⟩
    · rw [hcolumn, hjoins]
    · rw [hcolumn, ← halias, ← hkey]
      rfl

/-- In a select that joins the links of its conditions, each comparison is correlated by the link of
its condition exactly if no other link takes the alias. -/
theorem comparisons_correlated_iff {s : Select} {conditions : List Condition}
    {keys : List (ColumnRef × Option Link)} (hkeys : Resolves schema model base conditions keys)
    (htable : s.table = base) (hlinks : s.joins = linkJoins model base keys []) :
    List.Forall₂ (fun condition p => ∀ link, linkFor schema model condition.column = some link →
        (Correlated s (keyRef model base.aliasName) link p
          ↔ Unrivalled base (conditions.filterMap fun c => linkFor schema model c.column) link))
      conditions (comparisons model base storage conditions keys) := by
  rw [← links_of_resolves hkeys]
  -- a condition, its resolved key and its comparison stand at the same place
  refine (comparisons_of_resolves hkeys).imp ?_
  intro condition p hcomparison link hlink
  obtain ⟨key, hmem, hkey, rfl⟩ := hcomparison
  obtain ⟨hfollows, hcolumn⟩ := followsLink_resolveKey hkey
  rw [hlink] at hfollows
  refine correlated_iff_unrivalled ?_ htable (List.mem_filterMap.mpr ⟨key, hmem, hfollows⟩) ?_
  · rw [hlinks, joinUnder?_linkJoins]
    rfl
  · rw [predicate_eq]
    exact hcolumn link hfollows

/-- A select that joins stored tables only has its conditions itself. -/
theorem filtering?_of_joinsTables {s : Select} (h : JoinsTables s.joins) :
    filtering? (.select s) = some s := by
  unfold filtering?
  dsimp only
  split
  · -- the first join is of a stored table, not of a derived one
    rename_i hcons
    rw [hcons] at h
    exact absurd (h _ List.mem_cons_self) nofun
  · rfl

/-- Whether relations are loaded or not, the select with the conditions has the tables and
comparisons of the plain one. -/
theorem filtering?_selectWith {columns : List String} {plain select : Select} {loading : Loading}
    (hplain : JoinsTables plain.joins)
    (h : selectWith model base columns plain loading = .ok select) :
    ∃ filtering, filtering? (.select select) = some filtering
      ∧ filtering.table = plain.table ∧ filtering.joins = plain.joins
      ∧ filtering.predicates = plain.predicates := by
  rcases selectWith_eq_ok h with ⟨-, rfl⟩ | ⟨-, rfl⟩
  · exact ⟨select, filtering?_of_joinsTables hplain, rfl, rfl, rfl⟩
  · exact ⟨keySelect model base plain, rfl, rfl, rfl, rfl⟩

/-- A query that asks for no joins has those that its conditions need. -/
theorem queryJoins_eq_linkJoins {query : Query} (keys : List (ColumnRef × Option Link))
    (hjoins : query.joins = []) :
    queryJoins schema model query keys = linkJoins model (baseTable model query) keys [] := by
  unfold queryJoins
  rw [hjoins, List.map_nil, List.append_nil]

/-- Without joins no key needs a link. -/
theorem link_eq_none_of_linkJoins {keys : List (ColumnRef × Option Link)}
    (h : linkJoins model base keys [] = []) {key : ColumnRef × Option Link} (hkey : key ∈ keys) :
    key.2 = none := by
  cases hlink : key.2 with
  | none => rfl
  | some link =>
    -- of the links under this alias the first one would be joined
    have hjoin := @joinUnder?_linkJoins model base keys [] link.table.aliasName
    rw [h] at hjoin
    have hnone : linkUnder? (keys.filterMap (·.2)) link.table.aliasName = none :=
      Option.map_eq_none_iff.mp hjoin.symm
    have hmem : link ∈ keys.filterMap (·.2) := List.mem_filterMap.mpr ⟨key, hkey, hlink⟩
    exact absurd (beq_self_eq_true _) (List.find?_eq_none.mp hnone link hmem)

/-- A query whose resolved keys need no joins has no condition that needs a link. -/
theorem linkFor_eq_none_of_queryJoins {query : Query} {keys : List (ColumnRef × Option Link)}
    (hkeys : Resolves schema model (baseTable model query) query.conditions keys)
    (h : queryJoins schema model query keys = []) :
    ∀ condition ∈ query.conditions, linkFor schema model condition.column = none := by
  have hlinks := links_of_resolves hkeys
  have hnone : keys.filterMap (·.2) = [] := by
    refine List.filterMap_eq_nil_iff.mpr fun key hkey => ?_
    exact link_eq_none_of_linkJoins (List.append_eq_nil_iff.mp h).1 hkey
  rw [hnone] at hlinks
  exact List.filterMap_eq_nil_iff.mp hlinks.symm

/-- **When relation filters are correlated by their own relation.** Take a query that asks for no
joins. An update or a removal is refused if one of its conditions needs a table besides its own. In
a select no alias is joined twice, and the comparison for a condition on a relation to many is made
on the relation's own table, joined by the relation's own key, exactly if the alias of this table is
not the one of the query's table and the first condition that needs the alias needs this very table
by this very key. -/
theorem correlated_iff {query : Query} {expansion : Expansion} (hjoins : query.joins = [])
    (h : ofQuery schema storage model query = .ok expansion) :
    (query.kind = .select → ∃ filtering, filtering? expansion.tree = some filtering
      ∧ DistinctAliases filtering.joins
      ∧ List.Forall₂ (fun condition p => ∀ link, linkFor schema model condition.column = some link →
          (Correlated filtering (keyRef model (baseTable model query).aliasName) link p
            ↔ Unrivalled (baseTable model query)
              (query.conditions.filterMap fun c => linkFor schema model c.column) link))
        query.conditions filtering.predicates)
    ∧ (query.kind = .update ∨ query.kind = .delete →
      ∀ condition ∈ query.conditions, linkFor schema model condition.column = none) := by
  constructor
  · intro hkind
    obtain ⟨keys, loading, select, hkeys, -, hselect, rfl⟩ := ofQuery_select hkind h
    obtain ⟨filtering, hfiltering, htable, hlinks, hpredicates⟩ :=
      filtering?_selectWith (joinsTables_queryJoins query keys) hselect
    replace hlinks : filtering.joins = linkJoins model (baseTable model query) keys [] :=
      hlinks.trans (queryJoins_eq_linkJoins keys hjoins)
    refine ⟨filtering, hfiltering, ?_, ?_⟩
    · rw [hlinks]
      exact distinctAliases_linkJoins keys List.nodup_nil
    · rw [hpredicates]
      exact comparisons_correlated_iff hkeys htable hlinks
  · intro hkind
    rcases hkind with hkind | hkind
    · obtain ⟨keys, hkeys, hnone, -⟩ := ofQuery_update hkind h
      exact linkFor_eq_none_of_queryJoins hkeys hnone
    · obtain ⟨keys, hkeys, hnone, -⟩ := ofQuery_delete hkind h
      exact linkFor_eq_none_of_queryJoins hkeys hnone

/-- Users, who are members of groups or were invited to them; one table of memberships tells
both. -/
def memberships : Schema where
  models := [("Group", ⟨"Group", some "groups", "id", []⟩),
    ("Membership", ⟨"Membership", some "memberships", "id", []⟩),
    ("User", ⟨"User", some "users", "id", []⟩)]
  relations := ⟨[
    ⟨.hasMany, "groups", "User", "Group", "member_id",
      some ⟨"Membership", "memberships", "group_id"⟩⟩,
    ⟨.hasMany, "invitations", "User", "Group", "inviter_id",
      some ⟨"Membership", "memberships", "group_id"⟩⟩], []⟩

/-- The query for the users of one group who were invited to another one. -/
def invitedMembers : Query :=
  { Query.empty .select with
    conditions := [.equal "groups" (.int 1), .equal "invitations" (.int 2)] }

/-- The second condition is on the wrong key: the table of memberships is joined only once. -/
theorem correlated_iff_invitedMembers : ∃ expansion filtering p q,
    ofQuery memberships .epoch ⟨"User", some "users", "id", []⟩ invitedMembers = .ok expansion
      ∧ invitedMembers.kind = .select ∧ invitedMembers.joins = []
      ∧ filtering? expansion.tree = some filtering
      ∧ filtering.predicates = [p, q]
      ∧ Correlated filtering ⟨"users", "id"⟩
        ⟨.plain "memberships" (some "Membership"), "member_id"⟩ p
      ∧ ¬ Correlated filtering ⟨"users", "id"⟩
        ⟨.plain "memberships" (some "Membership"), "inviter_id"⟩ q := by
  have hexpansion : ofQuery memberships .epoch ⟨"User", some "users", "id", []⟩ invitedMembers
      = .ok _ := rfl
  obtain ⟨filtering, hfiltering, -, hplaces⟩ := (correlated_iff rfl hexpansion).1 rfl
  cases hpredicates : filtering.predicates with
  | nil => rw [hpredicates] at hplaces; exact absurd hplaces nofun
  | cons p rest =>
    rw [hpredicates] at hplaces
    obtain ⟨hp, hrest⟩ := List.forall₂_cons.mp hplaces
    cases rest with
    | nil => exact absurd hrest nofun
    | cons q rest =>
      obtain ⟨hq, hrest⟩ := List.forall₂_cons.mp hrest
      rw [List.forall₂_nil_left_iff.mp hrest] at hpredicates
      refine ⟨_, filtering, p, q, hexpansion, rfl, rfl, hfiltering, hpredicates,
        (hp _ rfl).mpr ⟨by decide, ?_⟩, fun h => ?_⟩
      · rintro _ ⟨⟩
        decide
      · have hkey := (((hq _ rfl).mp h).first _ rfl).2
        exact absurd hkey (by decide)

end RecordMapping.Expansion
