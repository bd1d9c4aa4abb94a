import RecordMapping.Proofs.Relation.Pairing

/-!
# Which pairs are accepted

A declaration in both directions adds the two relations that it is asked for, and before them two
relations of the junction to the sides. The aliases of these cannot be chosen: they are the
singulars of the models' names. So a pair can be refused although its keys differ and its own
aliases are free.

* `ok_registerAll_iff`: relations are added to the last exactly if none of them is refused, and no
  two of them need one alias;
* `pair_accepted_iff`: which pairs are accepted. A model is never accepted with itself, whatever
  keys and aliases are chosen.
-/

namespace RecordMapping.Registry

variable {registry : Registry} {r s : Relation} {rs : List Relation}

/-! ## Relations under one alias -/

/-- Two relations can be declared in one registry: if they have one alias, they are the same. -/
def Compatible (r s : Relation) : Prop := r.owner = s.owner → r.aliasName = s.aliasName → r = s

theorem compatible_iff_of_ne (hne : r ≠ s) :
    Compatible r s ↔ (r.owner = s.owner → r.aliasName ≠ s.aliasName) :=
  forall_congr' fun _ => ⟨fun h halias => hne (h halias), fun h halias => absurd halias h⟩

/-- A new relation is found under its alias if this is free, and changes no other one. -/
theorem get?_add_eq (r : Relation) (model aliasName : String) :
    (registry.add r).get? model aliasName
      = (registry.get? model aliasName).or
        (if r.owner = model ∧ r.aliasName = aliasName then some r else none) := by
  show ((registry.relations ++ [r]).filter (·.owner == model)).find? _ = _
  rw [List.filter_append, List.find?_append]
  by_cases howner : r.owner = model <;> by_cases halias : r.aliasName = aliasName <;>
    simp [howner, halias, get?, ownedBy]

theorem refuses_iff_of_found (hfound : registry.get? r.owner r.aliasName = some r)
    (howner : r.owner = s.owner) (halias : r.aliasName = s.aliasName) :
    registry.Refuses s ↔ r ≠ s := by
  unfold Refuses
  rw [← howner, ← halias, hfound]
  simp

/-- What is refused once a relation was added: what was refused before, and what needs its alias. -/
theorem refuses_add_iff (hfree : registry.get? r.owner r.aliasName = none) :
    (registry.add r).Refuses s ↔ registry.Refuses s ∨ ¬ Compatible r s := by
  by_cases hsame : r.owner = s.owner ∧ r.aliasName = s.aliasName
  · have hnone : ¬ registry.Refuses s := by
      unfold Refuses
      rw [← hsame.1, ← hsame.2, hfree]
      simp
    rw [refuses_iff_of_found (get?_add hfree) hsame.1 hsame.2]
    simp [Compatible, hsame, hnone]
  · have hcompatible : Compatible r s := fun howner halias => absurd ⟨howner, halias⟩ hsame
    unfold Refuses
    rw [get?_add_eq, if_neg hsame, Option.or_none]
    simp [hcompatible]

/-- Relations are added one after the other, and the first that is refused is the last one. -/
theorem run_registerAll_cons :
    (forM (r :: rs) register).run.run registry = match registry.get? r.owner r.aliasName with
      | some other =>
        if other = r then (forM rs register).run.run registry
        else (.error (.configuration (.aliasTaken r.aliasName r.owner)), registry)
      | none => (forM rs register).run.run (registry.add r) := by
  rw [List.forM_cons, ExceptT.run_bind, StateT.run_bind, run_register]
  cases registry.get? r.owner r.aliasName with
  | none => rfl
  | some other =>
    dsimp only
    split <;> rfl

/-- All of some relations are added exactly if none is refused and no two need one alias. -/
theorem ok_registerAll_iff :
    ((forM rs register).run.run registry).1 = .ok ()
      ↔ (∀ r ∈ rs, ¬ registry.Refuses r) ∧ rs.Pairwise Compatible := by
  induction rs generalizing registry with
  | nil => exact ⟨fun _ => ⟨nofun, .nil⟩, fun _ => rfl⟩
  | cons r rs ih =>
    rw [run_registerAll_cons, List.forall_mem_cons, List.pairwise_cons]
    cases hfound : registry.get? r.owner r.aliasName with
    | none =>
      have hfree : ¬ registry.Refuses r := by
        simp [Refuses, hfound]
      dsimp only
      rw [ih]
      simp only [refuses_add_iff hfound, not_or, not_not, forall_and, hfree, not_false_eq_true,
        true_and]
      exact and_assoc
    | some other =>
      dsimp only
      by_cases hsame : other = r
      · -- what needs the alias of a relation that is there is refused already
        subst hsame
        have hadmitted : ¬ registry.Refuses other := by
          simp [Refuses, hfound]
        have hcompatible : (∀ s ∈ rs, ¬ registry.Refuses s) → ∀ s ∈ rs, Compatible other s := by
          intro h s hs howner halias
          by_contra hne
          exact h s hs ((refuses_iff_of_found hfound howner halias).mpr hne)
        rw [if_pos rfl, ih]
        constructor
        · rintro ⟨hrs, hpairs⟩
          exact ⟨⟨hadmitted, hrs⟩, hcompatible hrs, hpairs⟩
        · rintro ⟨⟨-, hrs⟩, -, hpairs⟩
          exact ⟨hrs, hpairs⟩
      · rw [if_neg hsame]
        constructor
        · exact nofun
        · intro h
          exact absurd ⟨other, hfound, hsame⟩ h.1.1

/-- Of two different relations under one alias the second one is refused, unless the first one was.
Either way the alias is reported. -/
theorem error_registerAll_of_same (howner : r.owner = s.owner) (halias : r.aliasName = s.aliasName)
    (hne : r ≠ s) :
    ((forM (r :: s :: rs) register).run.run registry).1
      = .error (.configuration (.aliasTaken r.aliasName r.owner)) := by
  have hsecond {registry : Registry} (hfound : registry.get? r.owner r.aliasName = some r) :
      ((forM (s :: rs) register).run.run registry).1
        = .error (.configuration (.aliasTaken r.aliasName r.owner)) := by
    rw [run_registerAll_cons, ← howner, ← halias, hfound]
    dsimp only
    rw [if_neg hne]
  rw [run_registerAll_cons]
  cases hfound : registry.get? r.owner r.aliasName with
  | none => exact hsecond (get?_add hfound)
  | some other =>
    dsimp only
    by_cases hsame : other = r
    · rw [if_pos hsame]
      exact hsecond (hsame ▸ hfound)
    · rw [if_neg hsame]

/-! ## Pairs -/

namespace Pairing

variable (p : Pairing)

/-- The alias of the second model's records with the first model. -/
def thereAlias : String := p.options.alias?.getD (pluralAlias p.second)

/-- The alias of the first model's records with the second model. -/
def backAlias : String := p.options.inverseAlias?.getD (pluralAlias p.first)

/-- The relation of the junction to the first model. -/
def toFirst : Relation :=
  ⟨.belongsTo, singularAlias p.first, p.joinedName, p.first.name, p.fromKey, none⟩

/-- The relation of the junction to the second model. -/
def toSecond : Relation :=
  ⟨.belongsTo, singularAlias p.second, p.joinedName, p.second.name, p.toKey, none⟩

/-- The relation of the first model to the second, through a junction. -/
def there (junction : Model) : Relation :=
  ⟨.manyToMany, p.thereAlias, p.first.name, p.second.name, p.fromKey,
    some ⟨junction.name, junction.table, p.toKey⟩⟩

/-- The relation of the second model to the first, with the two keys exchanged. -/
def back (junction : Model) : Relation :=
  ⟨.manyToMany, p.backAlias, p.second.name, p.first.name, p.toKey,
    some ⟨junction.name, junction.table, p.fromKey⟩⟩

/-- A pair asks for a junction of its own, with two keys, and for two aliases that are free. -/
structure Free (registry : Registry) : Prop where
  through : p.options.through? = none
  keys : p.fromKey ≠ p.toKey
  there : registry.get? p.first.name p.thereAlias = none
  back : registry.get? p.second.name p.backAlias = none
  apart : p.first.name = p.second.name → p.thereAlias ≠ p.backAlias

/-- The junction's relations have different aliases. No other relations of a model of its name have
them; nor are they asked for, if the junction has the name of one side. -/
structure Fits (registry : Registry) : Prop where
  singulars : singularAlias p.first ≠ singularAlias p.second
  first : ¬ registry.Refuses p.toFirst
  second : ¬ registry.Refuses p.toSecond
  there : p.joinedName = p.first.name →
    singularAlias p.first ≠ p.thereAlias ∧ singularAlias p.second ≠ p.thereAlias
  back : p.joinedName = p.second.name →
    singularAlias p.first ≠ p.backAlias ∧ singularAlias p.second ≠ p.backAlias

/-- Both directions go through one junction, which has both keys. -/
def Wired (registry : Registry) : Prop :=
  ∃ junction, registry.junction? p.joinedName = some junction
    ∧ junction.name = p.joinedName
    ∧ junction.hasAttribute p.fromKey = true ∧ junction.hasAttribute p.toKey = true
    ∧ registry.get? p.first.name p.thereAlias = some (p.there junction)
    ∧ registry.get? p.second.name p.backAlias = some (p.back junction)

variable {p}

/-- When the four relations of a pair can be declared together. -/
theorem pairwise_compatible_iff (hfree : p.Free registry) (junction : Model) :
    [p.toFirst, p.toSecond, p.there junction, p.back junction].Pairwise Compatible
      ↔ singularAlias p.first ≠ singularAlias p.second
        ∧ (p.joinedName = p.first.name →
          singularAlias p.first ≠ p.thereAlias ∧ singularAlias p.second ≠ p.thereAlias)
        ∧ (p.joinedName = p.second.name →
          singularAlias p.first ≠ p.backAlias ∧ singularAlias p.second ≠ p.backAlias) := by
  have hsides : p.toFirst ≠ p.toSecond := fun h => hfree.keys (congrArg Relation.foreignKey h)
  -- one relation of the junction and one between the sides are of different kinds
  have hkinds {r s : Relation} (hr : r.kind = .belongsTo) (hs : s.kind = .manyToMany) : r ≠ s := by
    intro h
    rw [h, hs] at hr
    exact absurd hr nofun
  have hacross : Compatible (p.there junction) (p.back junction) :=
    fun hnames haliases => absurd haliases (hfree.apart hnames)
  simp only [List.pairwise_cons, List.forall_mem_cons, List.not_mem_nil, false_implies,
    implies_true, and_true, List.Pairwise.nil, hacross, compatible_iff_of_ne hsides,
    compatible_iff_of_ne (@hkinds p.toFirst (p.there junction) rfl rfl),
    compatible_iff_of_ne (@hkinds p.toFirst (p.back junction) rfl rfl),
    compatible_iff_of_ne (@hkinds p.toSecond (p.there junction) rfl rfl),
    compatible_iff_of_ne (@hkinds p.toSecond (p.back junction) rfl rfl)]
  constructor
  · rintro ⟨⟨hsingulars, hfirstThere, hfirstBack⟩, hsecondThere, hsecondBack⟩
    exact ⟨hsingulars rfl, fun h => ⟨hfirstThere h, hsecondThere h⟩,
      fun h => ⟨hfirstBack h, hsecondBack h⟩⟩
  · rintro ⟨hsingulars, hthere, hback⟩
    exact ⟨⟨fun _ => hsingulars, fun h => (hthere h).1, fun h => (hback h).1⟩,
      fun h => (hthere h).2, fun h => (hback h).2⟩

theorem pairRelations_eq {junction : Model} (hname : junction.name = p.joinedName) :
    pairRelations p.first p.second junction p.fromKey p.toKey p.options
      = [p.toFirst, p.toSecond, p.there junction, p.back junction] := by
  unfold toFirst toSecond
  rw [← hname]
  rfl

/-- The relations that are asked for find their aliases free. -/
theorem fits_iff (hfree : p.Free registry) (junction : Model) :
    p.Fits registry
      ↔ (∀ r ∈ [p.toFirst, p.toSecond, p.there junction, p.back junction], ¬ registry.Refuses r)
        ∧ [p.toFirst, p.toSecond, p.there junction, p.back junction].Pairwise Compatible := by
  have hthere : ¬ registry.Refuses (p.there junction) := by
    rintro ⟨other, hother, -⟩
    exact absurd (hother.symm.trans hfree.there) nofun
  have hback : ¬ registry.Refuses (p.back junction) := by
    rintro ⟨other, hother, -⟩
    exact absurd (hother.symm.trans hfree.back) nofun
  rw [pairwise_compatible_iff hfree junction]
  simp only [List.forall_mem_cons, List.not_mem_nil, false_implies, implies_true, and_true, hthere,
    hback, not_false_eq_true]
  constructor
  · intro h
    exact ⟨⟨h.first, h.second⟩, h.singulars, h.there, h.back⟩
  · rintro ⟨⟨hfirst, hsecond⟩, hsingulars, hthere, hback⟩
    exact ⟨hsingulars, hfirst, hsecond, hthere, hback⟩

/-- The declaration of a pair that asks for two keys keeps a junction and adds four relations. -/
theorem run_pair_eq (hnamed : registry.Named) (hfree : p.Free registry) :
    let junction := registry.pairJunction p.first p.second p.fromKey p.toKey
    (declareManyToMany p.first p.second none p.options).run.run registry
      = (forM [p.toFirst, p.toSecond, p.there junction, p.back junction] register).run.run
          (registry.withJunction junction) := by
  intro junction
  have hplan : p.declaration.plan registry = .ok _ :=
    plan_pair_eq_ok.mpr ⟨hfree.keys, hfree.through, rfl⟩
  have hstep := run_step hnamed p.declaration
  rw [hplan] at hstep
  rw [← pairRelations_eq (name_pairJunction hnamed)]
  exact hstep

/-- If all four relations are there, both directions go through the junction. -/
theorem wired_of_declares {later : Registry} (hnamed : registry.Named) {junction : Model}
    (hjunction : registry.pairJunction p.first p.second p.fromKey p.toKey = junction)
    (hgrows : (registry.withJunction junction).Grows later)
    (hdeclares : later.Declares [p.toFirst, p.toSecond, p.there junction, p.back junction]) :
    p.Wired later := by
  have hname : junction.name = p.joinedName := by
    rw [← hjunction]
    exact name_pairJunction hnamed
  have hkeys : ∀ key, key = p.fromKey ∨ key = p.toKey → junction.hasAttribute key = true := by
    rw [← hjunction]
    exact hasAttribute_pairJunction
  refine ⟨junction, ?_, hname, hkeys _ (.inl rfl), hkeys _ (.inr rfl), ?_, ?_⟩
  · rw [junction?, hgrows.junctions]
    exact (junction?_withJunction registry junction p.joinedName).trans (if_pos hname)
  · exact hdeclares (p.there junction) (by simp)
  · exact hdeclares (p.back junction) (by simp)

end Pairing

/-- **Which pairs are accepted.** A pair asks for two keys and two free aliases, and leaves the
junction to the registry. It is accepted exactly if the two relations that the junction gets besides
have different aliases, which nothing else has. Then both directions go through one junction, with
the keys exchanged. But these aliases are the singulars of the models' names: two models with one
singular are refused whatever is asked for, and so is a model with itself. -/
theorem pair_accepted_iff (ds : List Declaration) {p : Pairing}
    (hfree : p.Free (empty.afterAll ds)) :
    let run := (declareManyToMany p.first p.second none p.options).run.run (empty.afterAll ds)
    (run.1 = .ok () ↔ p.Fits (empty.afterAll ds))
      ∧ (run.1 = .ok () → p.Wired run.2)
      ∧ (singularAlias p.first = singularAlias p.second →
        run.1 = .error (.configuration (.aliasTaken (singularAlias p.first) p.joinedName)))
      ∧ (p.first.name = p.second.name → run.1 ≠ .ok ()) := by
  intro run
  have hnamed : (empty.afterAll ds).Named := named_afterAll ds
  have hrun : run = _ := Pairing.run_pair_eq hnamed hfree
  have hok : run.1 = .ok () ↔ p.Fits (empty.afterAll ds) := by
    rw [hrun, ok_registerAll_iff, Pairing.fits_iff hfree]
    exact Iff.rfl
  refine ⟨hok, fun haccepted => ?_, fun hsingulars => ?_, fun hnames haccepted => ?_⟩
  · rw [hrun] at haccepted ⊢
    obtain ⟨hgrows, hdeclares⟩ := (ends_registerAll_parts _ _).of_ok haccepted
    exact Pairing.wired_of_declares hnamed rfl hgrows hdeclares
  · rw [hrun]
    refine error_registerAll_of_same rfl hsingulars ?_
    exact fun h => hfree.keys (congrArg Relation.foreignKey h)
  · refine (hok.mp haccepted).singulars ?_
    unfold singularAlias
    rw [hnames]

/-- Users and their friends, who are users as well, with two keys and two aliases. -/
def friends : Pairing :=
  ⟨.empty "User", .empty "User",
    ⟨some "friends", some "friend_of", some "user_id", some "friend_id", none⟩⟩

/-- Posts and tags are accepted. Friends are not, although they ask for nothing that is taken. -/
theorem pair_accepted_iff_friends :
    let posts : Pairing := ⟨.empty "Post", .empty "Tag", tagged⟩
    posts.Free empty ∧ friends.Free empty
      ∧ posts.Wired
        ((declareManyToMany posts.first posts.second none posts.options).run.run empty).2
      ∧ ((declareManyToMany friends.first friends.second none friends.options).run.run empty).1
        = .error (.configuration (.aliasTaken "user" "UserUser")) := by
  intro posts
  have hposts : posts.Free empty :=
    ⟨rfl, by decide +kernel, rfl, rfl, fun h => absurd h (by decide)⟩
  have hfriends : friends.Free empty := ⟨rfl, by decide, rfl, rfl, fun _ => by decide⟩
  have hok : (posts.declaration.step.run.run empty).1.isOk = true := by decide +kernel
  refine ⟨hposts, hfriends, ?_, ?_⟩
  · exact (pair_accepted_iff [] hposts).2.1 (congrArg Prod.fst (run_eq_of_isOk hok))
  · have hsingular : singularAlias friends.first = "user" := by decide +kernel
    have hjunction : friends.joinedName = "UserUser" := by decide +kernel
    have hrefused := (pair_accepted_iff [] hfriends).2.2.1 rfl
    rwa [hsingular, hjunction] at hrefused

end RecordMapping.Registry
