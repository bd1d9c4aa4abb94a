import Mathlib.Data.Sym.Sym2
import RecordMapping.Proofs.Relation.Plans

/-!
# Pairs of models and their junctions

A declaration in both directions may leave the junction to the registry, which makes one under a
name that is put together from the names of the two models, and uses it again under this name.

* `manyToMany_again`: a declaration that went well can be repeated, from either side, and then
  changes nothing;
* `Joined`, `Joined.append_singleton`: the junctions that a registry has after some declarations,
  and what goes through them;
* `junctions_identify_iff`: different pairs have different junctions exactly if their names do not
  come to the same when they are put together.
-/

namespace RecordMapping

/-- The choices of a declaration in both directions as they are made from the other side. -/
def ManyToManyOptions.swapped (options : ManyToManyOptions) : ManyToManyOptions :=
  ⟨options.inverseAlias?, options.alias?, options.toKey?, options.fromKey?, options.through?⟩

namespace Registry

variable {registry : Registry} {first second : Model} {options : ManyToManyOptions}

/-! ## Names of junctions -/

theorem sortedPair_comm (first second : Model) :
    sortedPair first second = sortedPair second first := by
  unfold sortedPair
  split
  · rename_i hle
    split
    · rename_i hge
      rw [String.le_antisymm hle hge]
    · rfl
  · rename_i hle
    rw [if_pos ((String.le_total _ _).resolve_left hle)]

theorem junctionName_comm (first second : Model) :
    junctionName first second = junctionName second first := by
  unfold junctionName
  rw [sortedPair_comm]

/-! ## Declaring again -/

/-- A pair whose junction and relations are there is declared without a trace. -/
theorem run_pair_of_known {junction : Model} {fromKey toKey : String} (hnamed : registry.Named)
    (hsorted : registry.junctions.Sorted) (hthrough : options.through? = none)
    (hfromKey : options.fromKey?.getD (keyFor first) = fromKey)
    (htoKey : options.toKey?.getD (keyFor second) = toKey) (hkeys : fromKey ≠ toKey)
    (hknown : registry.junction? (junctionName first second) = some junction)
    (hfrom : junction.hasAttribute fromKey = true) (hto : junction.hasAttribute toKey = true)
    (hdeclares : registry.Declares (pairRelations first second junction fromKey toKey options)) :
    (declareManyToMany first second none options).run.run registry = (.ok (), registry) := by
  subst hfromKey htoKey
  have hsame : registry.withJunction junction = registry := by
    refine withJunction_eq_self hsorted ?_
    rw [hnamed _ junction hknown, hknown]
  have hplan : (Declaration.manyToMany first second none options).plan registry = .ok _ :=
    plan_pair_eq_ok.mpr ⟨hkeys, hthrough, rfl⟩
  rw [pairJunction_of_known hknown hfrom hto] at hplan
  have hends : Ends (Declaration.manyToMany first second none options).step registry
      (fun _ later => later = registry) fun _ => False := by
    rw [ends_step hnamed, hplan]
    show Ends _ (registry.withJunction junction) _ _
    rw [hsame]
    exact ends_known hdeclares rfl
  exact hends.run_eq

/-- **A declaration in both directions can be repeated.** If a declaration that leaves the junction
to the registry goes well, then it goes well again, with the same choices or from the other side
with the choices exchanged, and the registry stays as it is: its relations, and its junctions with
their attributes. -/
theorem manyToMany_again (ds : List Declaration) {declared : Registry}
    (h : (declareManyToMany first second none options).run.run (empty.afterAll ds)
      = (.ok (), declared)) :
    (declareManyToMany first second none options).run.run declared = (.ok (), declared)
      ∧ (declareManyToMany second first none options.swapped).run.run declared
        = (.ok (), declared) := by
  let d : Declaration := .manyToMany first second none options
  have hok : (d.step.run.run (empty.afterAll ds)).1 = .ok () := congrArg Prod.fst h
  obtain rfl : (empty.afterAll ds).after d = declared := congrArg Prod.snd h
  obtain ⟨plan, hplan, hgrows, hdeclares⟩ := exists_plan_of_ok (named_afterAll ds) hok
  obtain ⟨hkeys, hthrough, rfl⟩ := plan_pair_eq_ok.mp hplan
  -- the junction stays under the name of the pair, with both keys
  generalize hjunction : (empty.afterAll ds).pairJunction first second _ _ = junction
    at hgrows hdeclares
  have hname : junction.name = junctionName first second := by
    rw [← hjunction, name_pairJunction (named_afterAll ds)]
  have hfrom : junction.hasAttribute (options.fromKey?.getD (keyFor first)) = true := by
    rw [← hjunction]
    exact hasAttribute_pairJunction _ (.inl rfl)
  have hto : junction.hasAttribute (options.toKey?.getD (keyFor second)) = true := by
    rw [← hjunction]
    exact hasAttribute_pairJunction _ (.inr rfl)
  have hknown := hgrows.junction?_of_start rfl (junctionName first second)
  rw [if_pos hname] at hknown
  have hnamed := named_afterAll (ds ++ [d])
  have hsorted := sorted_afterAll (ds ++ [d])
  rw [afterAll_append_singleton] at hnamed hsorted
  generalize (empty.afterAll ds).after d = declared at *
  have hagain : declared.Declares (pairRelations second first junction
      (options.toKey?.getD (keyFor second)) (options.fromKey?.getD (keyFor first))
      options.swapped) := by
    -- from the other side the same four relations are added in another order
    simp only [Declares, pairRelations, List.forall_mem_cons] at hdeclares ⊢
    obtain ⟨hfirst, hsecond, hthere, hback, hnil⟩ := hdeclares
    exact ⟨hsecond, hfirst, hback, hthere, hnil⟩
  constructor
  · exact run_pair_of_known hnamed hsorted hthrough rfl rfl hkeys hknown hfrom hto hdeclares
  · rw [junctionName_comm] at hknown
    exact run_pair_of_known hnamed hsorted hthrough rfl rfl hkeys.symm hknown hto hfrom hagain

/-- Posts that are tagged, and tags that are about posts. -/
def tagged : ManyToManyOptions := ⟨none, some "about", none, some "tag", none⟩

theorem manyToMany_again_tagged :
    let post := Model.empty "Post"
    let tag := Model.empty "Tag"
    ∃ declared,
      (declareManyToMany post tag none tagged).run.run
          (empty.afterAll [.hasMany tag post none ⟨none, some "tag_id", none, none⟩])
        = (.ok (), declared)
      ∧ declared.relations.length = 5
      ∧ (declareManyToMany tag post none ⟨some "about", none, some "tag", none, none⟩).run.run
          declared = (.ok (), declared) := by
  intro post tag
  have hok : (declareManyToMany post tag none tagged).run.run
      (empty.afterAll [.hasMany tag post none ⟨none, some "tag_id", none, none⟩]) = (.ok (), _) :=
    run_eq_of_isOk (by decide +kernel)
  exact ⟨_, hok, by decide +kernel, (manyToMany_again _ hok).2⟩

/-! ## Declarations one after the other -/

/-- Whether all of some declarations go well, one after the other. -/
def allSucceed (registry : Registry) : List Declaration → Bool
  | [] => true
  | d :: ds => (d.step.run.run registry).1.isOk && allSucceed (registry.after d) ds

theorem allSucceed_append_singleton {ds : List Declaration} {d : Declaration}
    (h : registry.allSucceed (ds ++ [d]) = true) :
    registry.allSucceed ds = true ∧ (d.step.run.run (registry.afterAll ds)).1 = .ok () := by
  induction ds generalizing registry with
  | nil =>
    have hok : (d.step.run.run registry).1.isOk = true := (Bool.and_eq_true_iff.mp h).1
    exact ⟨rfl, congrArg Prod.fst (run_eq_of_isOk hok)⟩
  | cons other ds ih =>
    obtain ⟨hother, hrest⟩ := Bool.and_eq_true_iff.mp h
    obtain ⟨hds, hd⟩ := ih hrest
    exact ⟨Bool.and_eq_true_iff.mpr ⟨hother, hds⟩, hd⟩

/-- A declaration in both directions that leaves the junction to the registry. -/
structure Pairing where
  first : Model
  second : Model
  options : ManyToManyOptions

namespace Pairing

/-- The declaration. -/
def declaration (p : Pairing) : Declaration := .manyToMany p.first p.second none p.options

/-- The names of the two models, without regard to which one goes first. -/
def names (p : Pairing) : Sym2 String := s(p.first.name, p.second.name)

/-- The junction's column for the first model. -/
def fromKey (p : Pairing) : String := p.options.fromKey?.getD (keyFor p.first)

/-- The junction's column for the second model. -/
def toKey (p : Pairing) : String := p.options.toKey?.getD (keyFor p.second)

/-- The junction through which a registry leads from the first model to the second. -/
def there? (p : Pairing) (registry : Registry) : Option Junction :=
  (registry.get? p.first.name (p.options.alias?.getD (pluralAlias p.second))).bind (·.junction?)

/-- The junction through which a registry leads from the second model to the first. -/
def back? (p : Pairing) (registry : Registry) : Option Junction :=
  (registry.get? p.second.name (p.options.inverseAlias?.getD (pluralAlias p.first))).bind
    (·.junction?)

/-- The name that is put together from those of the two models. -/
def joinedName (p : Pairing) : String := junctionName p.first p.second

/-- The table that is named after the two models. -/
def joinedTable (p : Pairing) : String := junctionTable p.first p.second

end Pairing

/-- The table of the first pair whose names come to a given one. -/
def firstTable? (ps : List Pairing) (name : String) : Option String :=
  (ps.find? (·.joinedName == name)).map (·.joinedTable)

/-- The junctions of a registry are those of some pairs, and each pair goes through its own. -/
structure Joined (ps : List Pairing) (registry : Registry) : Prop where
  tables : ∀ name, (registry.junction? name).map (·.table) = firstTable? ps name
  through : ∀ p ∈ ps, ∃ table, firstTable? ps p.joinedName = some table
    ∧ p.there? registry = some ⟨p.joinedName, table, p.toKey⟩
    ∧ p.back? registry = some ⟨p.joinedName, table, p.fromKey⟩

variable {ps : List Pairing} {p : Pairing}

theorem firstTable?_append_singleton (name : String) :
    firstTable? (ps ++ [p]) name
      = (firstTable? ps name).or (if p.joinedName = name then some p.joinedTable else none) := by
  unfold firstTable?
  rw [List.find?_append, Option.map_or, List.find?_singleton]
  by_cases hname : p.joinedName = name <;> simp [hname]

theorem isSome_firstTable? (hp : p ∈ ps) : ∃ table, firstTable? ps p.joinedName = some table := by
  unfold firstTable?
  rw [← Option.isSome_iff_exists, Option.isSome_map, List.find?_isSome]
  exact ⟨p, hp, BEq.rfl⟩

/-- What leads through a junction does so from then on. -/
theorem Grows.bind_junction? {later : Registry} (h : registry.Grows later)
    {model aliasName : String} {j : Junction}
    (hfound : (registry.get? model aliasName).bind (·.junction?) = some j) :
    (later.get? model aliasName).bind (·.junction?) = some j := by
  obtain ⟨r, hr, hj⟩ := Option.bind_eq_some_iff.mp hfound
  rw [h.get? hr]
  exact hj

theorem Joined.append_singleton (h : Joined ps registry) (hnamed : registry.Named)
    (hok : (p.declaration.step.run.run registry).1 = .ok ()) :
    Joined (ps ++ [p]) (registry.after p.declaration) := by
  obtain ⟨plan, hplan, hgrows, hdeclares⟩ := exists_plan_of_ok hnamed hok
  obtain ⟨-, -, rfl⟩ := plan_pair_eq_ok.mp hplan
  generalize hjunction : registry.pairJunction p.first p.second _ _ = junction at hgrows hdeclares
  have hname : junction.name = p.joinedName := by
    rw [← hjunction, name_pairJunction hnamed]
    rfl
  have htable : firstTable? (ps ++ [p]) p.joinedName = some junction.table := by
    rw [← hjunction, table_pairJunction, firstTable?_append_singleton, if_pos rfl]
    show _ = some (((registry.junction? p.joinedName).map (·.table)).getD p.joinedTable)
    rw [h.tables]
    cases firstTable? ps p.joinedName <;> rfl
  constructor
  · intro name
    rw [hgrows.junction?_of_start rfl, hname]
    by_cases hsame : p.joinedName = name
    · rw [if_pos hsame, ← hsame, htable]
      rfl
    · rw [if_neg hsame, firstTable?_append_singleton, if_neg hsame, Option.or_none, h.tables]
  · intro q hq
    rcases List.mem_append.mp hq with hq | hq
    · obtain ⟨table, hfirst, hthere, hback⟩ := h.through q hq
      refine ⟨table, ?_, hgrows.bind_junction? hthere, hgrows.bind_junction? hback⟩
      rw [firstTable?_append_singleton, hfirst]
      rfl
    · obtain rfl := List.mem_singleton.mp hq
      simp only [Declares, pairRelations, List.forall_mem_cons] at hdeclares
      obtain ⟨-, -, hthere, hback, -⟩ := hdeclares
      refine ⟨junction.table, htable, ?_, ?_⟩
      · rw [Pairing.there?, hthere, ← hname]
        rfl
      · rw [Pairing.back?, hback, ← hname]
        rfl

/-- Pairs that are declared one after the other go through the junctions that are made for them. -/
theorem joined_afterAll (h : empty.allSucceed (ps.map Pairing.declaration) = true) :
    Joined ps (empty.afterAll (ps.map Pairing.declaration)) := by
  induction ps using List.reverseRecOn with
  | nil => exact ⟨fun _ => rfl, fun _ hp => absurd hp List.not_mem_nil⟩
  | append_singleton ps p ih =>
    rw [List.map_append, List.map_singleton] at h ⊢
    obtain ⟨hps, hp⟩ := allSucceed_append_singleton h
    rw [afterAll_append_singleton]
    exact (ih hps).append_singleton (named_afterAll _) hp

/-! ## Junctions and pairs -/

/-- What is put together does not depend on which of the two models goes first. -/
theorem Pairing.joined_of_names {q : Pairing} (h : p.names = q.names) :
    p.joinedName = q.joinedName ∧ p.joinedTable = q.joinedTable := by
  have hpair : sortedPair p.first p.second = sortedPair q.first q.second := by
    rcases Sym2.eq_iff.mp h with ⟨hfirst, hsecond⟩ | ⟨hfirst, hsecond⟩
    · simp only [sortedPair, hfirst, hsecond]
    · rw [sortedPair_comm]
      simp only [sortedPair, hfirst, hsecond]
  constructor
  · simp only [joinedName, junctionName, hpair]
  · simp only [joinedTable, junctionTable, hpair]

/-- Two pairs go through one junction if their names come to the same. -/
theorem Joined.model_eq_iff {q : Pairing} (h : Joined ps registry) (hp : p ∈ ps) (hq : q ∈ ps) :
    (p.there? registry).map (·.model) = (q.there? registry).map (·.model)
      ↔ p.joinedName = q.joinedName := by
  obtain ⟨_, -, hthere, -⟩ := h.through p hp
  obtain ⟨_, -, hthere', -⟩ := h.through q hq
  rw [hthere, hthere']
  exact Option.some_inj

/-- The table of a pair is that of the first one with the same name. -/
theorem Joined.table_eq (h : Joined ps registry) (hp : p ∈ ps) :
    (p.there? registry).map (·.table) = firstTable? ps p.joinedName := by
  obtain ⟨table, hfirst, hthere, -⟩ := h.through p hp
  rw [hthere, hfirst]
  rfl

/-- The table of a pair is named after the two models if no pair of other models has the name of
its junction. -/
theorem firstTable?_eq (hp : p ∈ ps)
    (hunique : ∀ p ∈ ps, ∀ q ∈ ps, p.joinedName = q.joinedName → p.names = q.names) :
    firstTable? ps p.joinedName = some p.joinedTable := by
  obtain ⟨table, htable⟩ := isSome_firstTable? hp
  obtain ⟨q, hfind, rfl⟩ := Option.map_eq_some_iff.mp htable
  have hname : q.joinedName = p.joinedName := by simpa using List.find?_some hfind
  have hnames := hunique q (List.mem_of_find?_eq_some hfind) p hp hname
  rw [htable, (Pairing.joined_of_names hnames).2]

/-- If their names tell pairs apart, two pairs have one table if their tables are named alike. -/
theorem Joined.table_eq_iff {q : Pairing} (h : Joined ps registry)
    (hunique : ∀ p ∈ ps, ∀ q ∈ ps, p.joinedName = q.joinedName → p.names = q.names) (hp : p ∈ ps)
    (hq : q ∈ ps) :
    (p.there? registry).map (·.table) = (q.there? registry).map (·.table)
      ↔ p.joinedTable = q.joinedTable := by
  rw [h.table_eq hp, h.table_eq hq, firstTable?_eq hp hunique, firstTable?_eq hq hunique]
  exact Option.some_inj

/-- Of some pairs, those that have one junction, or one table of a junction, are those of the same
two models. -/
def Identifies (registry : Registry) (ps : List Pairing) : Prop :=
  ∀ p ∈ ps, ∀ q ∈ ps,
    ((p.there? registry).map (·.model) = (q.there? registry).map (·.model) ↔ p.names = q.names)
    ∧ ((p.there? registry).map (·.table) = (q.there? registry).map (·.table) ↔ p.names = q.names)

/-- **Junctions identify pairs of models exactly if no two pairs are put together to the same.**
When pairs are declared one after the other without a fault, both relations of each pair go through
one junction that was made, and pairs of the same two models have the same one. Pairs of other
models have other junctions in other tables if and only if the names of their models, put together
for the junction and for its table, are different. -/
theorem junctions_identify_iff (h : empty.allSucceed (ps.map Pairing.declaration) = true) :
    let registry := empty.afterAll (ps.map Pairing.declaration)
    (∀ p ∈ ps, ∃ made, registry.junction? made.name = some made
        ∧ p.there? registry = some ⟨made.name, made.table, p.toKey⟩
        ∧ p.back? registry = some ⟨made.name, made.table, p.fromKey⟩)
      ∧ (∀ p ∈ ps, ∀ q ∈ ps, p.names = q.names →
          (p.there? registry).map (·.model) = (q.there? registry).map (·.model)
          ∧ (p.there? registry).map (·.table) = (q.there? registry).map (·.table))
      ∧ (registry.Identifies ps ↔ ∀ p ∈ ps, ∀ q ∈ ps, p.names ≠ q.names →
          p.joinedName ≠ q.joinedName ∧ p.joinedTable ≠ q.joinedTable) := by
  intro registry
  have hjoined : Joined ps registry := joined_afterAll h
  have hnamed : registry.Named := named_afterAll _
  have hsame : ∀ p ∈ ps, ∀ q ∈ ps, p.names = q.names →
      (p.there? registry).map (·.model) = (q.there? registry).map (·.model)
      ∧ (p.there? registry).map (·.table) = (q.there? registry).map (·.table) := by
    intro p hp q hq hnames
    have hname := (Pairing.joined_of_names hnames).1
    exact ⟨(hjoined.model_eq_iff hp hq).mpr hname,
      by rw [hjoined.table_eq hp, hjoined.table_eq hq, hname]⟩
  refine ⟨fun p hp => ?_, hsame, fun hidentifies => ?_, fun hdistinct p hp q hq => ?_⟩
  · obtain ⟨table, hfirst, hthere, hback⟩ := hjoined.through p hp
    obtain ⟨made, hmade, rfl⟩ := Option.map_eq_some_iff.mp ((hjoined.tables _).trans hfirst)
    have hname : p.joinedName = made.name := (hnamed _ made hmade).symm
    rw [hname] at hmade hthere hback
    exact ⟨made, hmade, hthere, hback⟩
  · have hunique : ∀ p ∈ ps, ∀ q ∈ ps, p.joinedName = q.joinedName → p.names = q.names :=
      fun p hp q hq hname =>
        (hidentifies p hp q hq).1.mp ((hjoined.model_eq_iff hp hq).mpr hname)
    intro p hp q hq hnames
    exact ⟨fun hname => hnames (hunique p hp q hq hname), fun htable =>
      hnames ((hidentifies p hp q hq).2.mp ((hjoined.table_eq_iff hunique hp hq).mpr htable))⟩
  · have hunique : ∀ p ∈ ps, ∀ q ∈ ps, p.joinedName = q.joinedName → p.names = q.names :=
      fun p hp q hq hname => not_imp_not.mp (fun hnames => (hdistinct p hp q hq hnames).1) hname
    refine ⟨⟨fun hmodel => hunique p hp q hq ((hjoined.model_eq_iff hp hq).mp hmodel),
      fun hnames => (hsame p hp q hq hnames).1⟩, ⟨fun htable => ?_,
      fun hnames => (hsame p hp q hq hnames).2⟩⟩
    have hname := (hjoined.table_eq_iff hunique hp hq).mp htable
    exact not_imp_not.mp (fun hnames => (hdistinct p hp q hq hnames).2) hname

/-- A pair of models without attributes and without choices. -/
def Pairing.between (first second : String) : Pairing :=
  ⟨.empty first, .empty second, ⟨none, none, none, none, none⟩⟩

/-- Arts with their work tags, and art works with their tags: two pairs whose names come to the
same. -/
def artWorks : List Pairing := [.between "Art" "WorkTag", .between "ArtWork" "Tag"]

theorem junctions_identify_iff_artWorks :
    empty.allSucceed (artWorks.map Pairing.declaration) = true
      ∧ ¬ (empty.afterAll (artWorks.map Pairing.declaration)).Identifies artWorks := by
  have hok : empty.allSucceed (artWorks.map Pairing.declaration) = true := by decide +kernel
  refine ⟨hok, fun hidentifies => ?_⟩
  have hdistinct := (junctions_identify_iff hok).2.2.mp hidentifies
    (.between "Art" "WorkTag") (by simp [artWorks]) (.between "ArtWork" "Tag") (by simp [artWorks])
    (by decide)
  exact hdistinct.1 (by decide +kernel)

end Registry

end RecordMapping
