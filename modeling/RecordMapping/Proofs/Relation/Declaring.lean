import RecordMapping.Relation.Registry

/-!
# Declarations

A declaration may fail, and then keeps the parts that went through before. So a property of
registries that every part keeps holds after any declarations, whether they went well or not.

* `Ends`: how a change of a state ends, well or in a failure;
* `declareManyToMany_eq`: a declaration in both directions finds its junction and then adds four
  relations one after the other;
* `Kept`: a property that new relations between given models keep, and new junctions;
* `Declaration.keeps`, `afterAll_keeps`: it is kept by a declaration, and by any number of them.
-/

namespace RecordMapping

variable {σ α β : Type}

/-! ## Changes of a state -/

/-- A change of the state `s` ends well, with a result and a state that are `good`, or it fails in a
state that is `bad`. -/
def Ends (x : ExceptT Error (StateM σ) α) (s : σ) (good : α → σ → Prop) (bad : σ → Prop) : Prop :=
  match x.run.run s with
  | (.ok a, s') => good a s'
  | (.error _, s') => bad s'

section

variable {x : ExceptT Error (StateM σ) α} {f : α → ExceptT Error (StateM σ) β} {s : σ}
  {good : α → σ → Prop} {bad : σ → Prop}

theorem ends_pure (a : α) : Ends (pure a) s good bad ↔ good a s := Iff.rfl

theorem ends_throw (e : Error) :
    Ends (throw e : ExceptT Error (StateM σ) α) s good bad ↔ bad s := Iff.rfl

theorem ends_get {f : σ → ExceptT Error (StateM σ) α} :
    Ends (get >>= f) s good bad ↔ Ends (f s) s good bad := Iff.rfl

theorem ends_set {good : Unit → σ → Prop} (s' : σ) :
    Ends (set s' : ExceptT Error (StateM σ) Unit) s good bad ↔ good () s' := Iff.rfl

/-- A result that is known beforehand leaves the state as it is. -/
theorem ends_lift {result : Result α} (hok : ∀ a, result = .ok a → good a s)
    (herror : ∀ e, result = .error e → bad s) :
    Ends (liftM result : ExceptT Error (StateM σ) α) s good bad := by
  cases result with
  | ok a => exact hok a rfl
  | error e => exact herror e rfl

/-- A second change sets out from where the first one ended, if that went well. -/
theorem ends_bind {good : β → σ → Prop} :
    Ends (x >>= f) s good bad ↔ Ends x s (fun a s' => Ends (f a) s' good bad) bad := by
  unfold Ends
  rw [ExceptT.run_bind, StateT.run_bind]
  cases x.run.run s with
  | mk result s' => cases result <;> rfl

theorem Ends.mono {good' : α → σ → Prop} {bad' : σ → Prop} (h : Ends x s good bad)
    (hgood : ∀ a s', good a s' → good' a s') (hbad : ∀ s', bad s' → bad' s') :
    Ends x s good' bad' := by
  unfold Ends at h ⊢
  cases hrun : x.run.run s with
  | mk result s' =>
    rw [hrun] at h
    cases result with
    | ok a => exact hgood a s' h
    | error e => exact hbad s' h

/-- What holds however a change ends holds in the state that it leaves. -/
theorem Ends.state {P : σ → Prop} (h : Ends x s (fun _ => P) P) : P (x.run.run s).2 := by
  unfold Ends at h
  cases hrun : x.run.run s with
  | mk result s' =>
    rw [hrun] at h
    cases result <;> exact h

end

/-! ## Relations between models -/

namespace Relation

/-- A relation between given models: the names in it are those of some of them, and the table of its
junction is that of the model. -/
structure Among (models : Model → Prop) (r : Relation) : Prop where
  owner : ∃ m, models m ∧ r.owner = m.name
  target : ∃ m, models m ∧ r.target = m.name
  junction : ∀ j, r.junction? = some j → ∃ m, models m ∧ j.model = m.name ∧ j.table = m.table

theorem Among.mono {models others : Model → Prop} {r : Relation} (h : r.Among models)
    (hmodels : ∀ m, models m → others m) : r.Among others := by
  obtain ⟨⟨owner, howner, hownerName⟩, ⟨target, htarget, htargetName⟩, hthrough⟩ := h
  refine ⟨⟨owner, hmodels owner howner, hownerName⟩, ⟨target, hmodels target htarget,
    htargetName⟩, fun j hj => ?_⟩
  obtain ⟨m, hm, hnames⟩ := hthrough j hj
  exact ⟨m, hmodels m hm, hnames⟩

end Relation

namespace Registry

variable {registry : Registry} {first second : Model} {junction? : Option Model}

/-! ## Adding relations -/

/-- The registry with one more relation. -/
def add (registry : Registry) (r : Relation) : Registry :=
  { registry with relations := registry.relations ++ [r] }

/-- The registry with a junction under its name, in place of an earlier one. -/
def withJunction (registry : Registry) (junction : Model) : Registry :=
  { registry with junctions := registry.junctions.insert junction.name junction }

/-- A relation is added if its alias is free, and refused if the alias means another one. -/
theorem run_register (r : Relation) (registry : Registry) :
    (register r).run.run registry = match registry.get? r.owner r.aliasName with
      | some other =>
        if other = r then (.ok (), registry)
        else (.error (.configuration (.aliasTaken r.aliasName r.owner)), registry)
      | none => (.ok (), registry.add r) := by
  show (match registry.get? r.owner r.aliasName with
    | some existing =>
      if existing = r then pure ()
      else throw (.configuration (.aliasTaken r.aliasName r.owner))
    | none => set (registry.add r) : Declaring Unit).run.run registry = _
  cases registry.get? r.owner r.aliasName with
  | none => rfl
  | some other =>
    dsimp only
    split <;> rfl

/-- A step that adds a relation ends in one of these ways. -/
theorem ends_register {r : Relation} {good : Unit → Registry → Prop} {bad : Registry → Prop}
    (hsame : registry.get? r.owner r.aliasName = some r → good () registry)
    (htaken : ∀ other, registry.get? r.owner r.aliasName = some other → other ≠ r → bad registry)
    (hfree : registry.get? r.owner r.aliasName = none → good () (registry.add r)) :
    Ends (register r) registry good bad := by
  unfold Ends
  rw [run_register]
  cases hfound : registry.get? r.owner r.aliasName with
  | none => exact hfree hfound
  | some other =>
    dsimp only
    by_cases heq : other = r
    · rw [if_pos heq]
      exact hsame (heq ▸ hfound)
    · rw [if_neg heq]
      exact htaken other hfound heq

/-- A property that each of some relations keeps when it is added. -/
theorem ends_registerAll {P : Registry → Prop} {rs : List Relation} (h : P registry)
    (hadd : ∀ registry, ∀ r ∈ rs, P registry → registry.get? r.owner r.aliasName = none →
      P (registry.add r)) :
    Ends (forM rs register) registry (fun _ => P) P := by
  induction rs generalizing registry with
  | nil => exact (ends_pure _).mpr h
  | cons r rs ih =>
    rw [List.forM_cons, ends_bind]
    have hnext {registry : Registry} (h : P registry) :
        Ends (forM rs register) registry (fun _ => P) P :=
      ih h fun registry r hr => hadd registry r (List.mem_cons_of_mem _ hr)
    exact ends_register (fun _ => hnext h) (fun _ _ _ => h)
      fun hfree => hnext (hadd registry r List.mem_cons_self h hfree)

/-! ## The parts of a declaration -/

/-- The relations that a declaration in both directions adds: those of the junction to either side,
and those of the sides to each other. -/
def pairRelations (first second junction : Model) (fromKey toKey : String)
    (options : ManyToManyOptions) : List Relation :=
  [⟨.belongsTo, singularAlias first, junction.name, first.name, fromKey, none⟩,
    ⟨.belongsTo, singularAlias second, junction.name, second.name, toKey, none⟩,
    ⟨.manyToMany, options.alias?.getD (pluralAlias second), first.name, second.name, fromKey,
      some ⟨junction.name, junction.table, toKey⟩⟩,
    ⟨.manyToMany, options.inverseAlias?.getD (pluralAlias first), second.name, first.name, toKey,
      some ⟨junction.name, junction.table, fromKey⟩⟩]

/-- The junction that a declaration in both directions uses: a given one, or one for the pair. -/
def chooseJunction (first second : Model) (fromKey toKey : String) :
    Option Model → Declaring Model
  | some junction => pure junction
  | none => ensureJunction first second fromKey toKey

theorem declareManyToMany_eq (options : ManyToManyOptions) :
    let fromKey := options.fromKey?.getD (keyFor first)
    let toKey := options.toKey?.getD (keyFor second)
    declareManyToMany first second junction? options
      = if fromKey = toKey then
          throw (.configuration (.sameJunctionKeys first.name second.name fromKey))
        else (do
          let junction? ← resolved? (.unknownJunction "manyToMany" first.name "<->" second.name)
            junction? options.through?
          let junction ← chooseJunction first second fromKey toKey junction?
          forM (pairRelations first second junction fromKey toKey options) register) := by
  intro fromKey toKey
  unfold declareManyToMany
  dsimp only
  split
  · rfl
  · refine congrArg _ (funext fun junction? => ?_)
    have hforM (junction : Model) :
        forM (pairRelations first second junction fromKey toKey options) register = (do
          declareBelongsTo junction first ⟨some (singularAlias first), some fromKey⟩
          declareBelongsTo junction second ⟨some (singularAlias second), some toKey⟩
          register ⟨.manyToMany, options.alias?.getD (pluralAlias second), first.name, second.name,
            fromKey, some ⟨junction.name, junction.table, toKey⟩⟩
          register ⟨.manyToMany, options.inverseAlias?.getD (pluralAlias first), second.name,
            first.name, toKey, some ⟨junction.name, junction.table, fromKey⟩⟩) := by
      simp only [pairRelations, List.forM_cons, List.forM_nil, bind_pure_unit]
      rfl
    cases junction? with
    | some junction => exact (hforM junction).symm
    | none =>
      simp only [chooseJunction, hforM]
      rfl

theorem among_pairRelations {models : Model → Prop} {junction : Model} {fromKey toKey : String}
    {options : ManyToManyOptions} (hfirst : models first) (hsecond : models second)
    (hjunction : models junction) :
    ∀ r ∈ pairRelations first second junction fromKey toKey options, r.Among models := by
  have hthrough (key : String) (j : Junction)
      (h : some ⟨junction.name, junction.table, key⟩ = some j) :
      ∃ m, models m ∧ j.model = m.name ∧ j.table = m.table := by
    obtain rfl := Option.some.inj h
    exact ⟨junction, hjunction, rfl, rfl⟩
  simp only [pairRelations, List.forall_mem_cons]
  refine ⟨⟨⟨junction, hjunction, rfl⟩, ⟨first, hfirst, rfl⟩, nofun⟩,
    ⟨⟨junction, hjunction, rfl⟩, ⟨second, hsecond, rfl⟩, nofun⟩,
    ⟨⟨first, hfirst, rfl⟩, ⟨second, hsecond, rfl⟩, hthrough toKey⟩,
    ⟨⟨second, hsecond, rfl⟩, ⟨first, hfirst, rfl⟩, hthrough fromKey⟩, nofun⟩

/-- Whether every junction has the name under which it is kept. -/
def Named (registry : Registry) : Prop :=
  ∀ name junction, registry.junction? name = some junction → junction.name = name

theorem junction?_withJunction (registry : Registry) (junction : Model) (name : String) :
    (registry.withJunction junction).junction? name
      = if junction.name = name then some junction else registry.junction? name :=
  Fields.get?_insert _ _ _ _

theorem Named.withJunction (h : registry.Named) (junction : Model) :
    (registry.withJunction junction).Named := by
  intro name other hother
  rw [junction?_withJunction] at hother
  split at hother
  · rename_i hname
    rw [← Option.some.inj hother, hname]
  · exact h name other hother

/-- A key changes neither the name of a model nor its table. -/
theorem withKey_same (model : Model) (key : String) :
    (withKey model key).name = model.name ∧ (withKey model key).table = model.table := by
  unfold withKey
  split <;> exact ⟨rfl, rfl⟩

/-- The junction for a pair is kept under its name. It has the table of the one that was there. -/
theorem ends_ensureJunction {fromKey toKey : String} {good : Model → Registry → Prop}
    {bad : Registry → Prop} (hnamed : registry.Named)
    (h : ∀ junction, junction.name = junctionName first second →
      (∀ known, registry.junction? junction.name = some known → junction.table = known.table) →
      good junction (registry.withJunction junction)) :
    Ends (ensureJunction first second fromKey toKey) registry good bad := by
  let known := (registry.junction? (junctionName first second)).getD
    { Model.empty (junctionName first second) with table? := some (junctionTable first second) }
  let junction := withKey (withKey known fromKey) toKey
  have hname : junction.name = known.name :=
    (withKey_same _ toKey).1.trans (withKey_same known fromKey).1
  have htable : junction.table = known.table :=
    (withKey_same _ toKey).2.trans (withKey_same known fromKey).2
  have hknown : known.name = junctionName first second := by
    cases hfound : registry.junction? (junctionName first second) with
    | none => simp [known, hfound, Model.empty]
    | some other => simpa [known, hfound] using hnamed _ other hfound
  have hmade := h junction (hname.trans hknown) fun other hother => by
    rw [hname, hknown] at hother
    rw [htable]
    simp only [known, hother, Option.getD_some]
  -- it is put under the name of the pair, which is its own
  rw [withJunction, hname, hknown] at hmade
  unfold ensureJunction
  rw [ends_get]
  exact ends_bind.mpr ((ends_set _).mpr ((ends_pure _).mpr hmade))

/-! ## Declarations -/

/-- A declaration between models. -/
inductive Declaration where
  | hasMany (owner target : Model) (junction? : Option Model) (options : HasManyOptions)
  | belongsTo (owner target : Model) (options : BelongsToOptions)
  | manyToMany (first second : Model) (junction? : Option Model) (options : ManyToManyOptions)

namespace Declaration

/-- What a declaration does. -/
def step : Declaration → Declaring Unit
  | hasMany owner target junction? options => declareHasMany owner target junction? options
  | belongsTo owner target options => declareBelongsTo owner target options
  | manyToMany first second junction? options => declareManyToMany first second junction? options

/-- The models that a declaration is given. -/
def models : Declaration → List Model
  | hasMany owner target junction? _ => owner :: target :: junction?.toList
  | belongsTo owner target _ => [owner, target]
  | manyToMany first second junction? _ => first :: second :: junction?.toList

end Declaration

/-- The registry after a declaration, which may have failed. -/
def after (registry : Registry) (d : Declaration) : Registry := (d.step.run.run registry).2

/-- The registry after some declarations, one after the other. -/
def afterAll (registry : Registry) (ds : List Declaration) : Registry := ds.foldl after registry

/-- A property that registries keep with every new relation between given models or junctions, and
with every junction that is made or extended. -/
structure Kept (models : Model → Prop) (P : Registry → Prop) : Prop where
  add : ∀ registry r, P registry →
    r.Among (fun m => models m ∨ registry.junction? m.name = some m) →
    registry.get? r.owner r.aliasName = none → P (registry.add r)
  junction : ∀ registry junction, P registry →
    (∀ known, registry.junction? junction.name = some known → junction.table = known.table) →
    P (registry.withJunction junction)

variable {models : Model → Prop} {P : Registry → Prop}

theorem resolved?_eq_ok {fault : String → ConfigurationFault} {name? : Option String}
    {found? : Option Model} (h : resolved? fault junction? name? = .ok found?) :
    found? = junction? := by
  cases junction? with
  | some junction => exact (Except.ok.inj h).symm
  | none =>
    cases name? with
    | none => exact (Except.ok.inj h).symm
    | some name => exact absurd h nofun

/-- New relations between models of which one may be a junction of the registry. -/
theorem Kept.ends_registerAll (hkept : Kept models P) {junction : Model} {rs : List Relation}
    (hrs : ∀ r ∈ rs, r.Among fun m => models m ∨ m = junction) (hnamed : registry.Named)
    (h : P registry)
    (hjunction : models junction ∨ registry.junction? junction.name = some junction) :
    Ends (forM rs register) registry (fun _ registry => registry.Named ∧ P registry)
      fun registry => registry.Named ∧ P registry := by
  -- no relation changes the junctions, so the one that is named stays where it is
  have hall : Ends (forM rs register) registry
      (fun _ registry' => registry'.junctions = registry.junctions ∧ P registry')
      fun registry' => registry'.junctions = registry.junctions ∧ P registry' := by
    refine Registry.ends_registerAll ⟨rfl, h⟩ ?_
    intro registry' r hr h' hfree
    refine ⟨h'.1, hkept.add registry' r h'.2 ((hrs r hr).mono fun m hm => ?_) hfree⟩
    rcases hm with hm | rfl
    · exact .inl hm
    · rwa [junction?, h'.1]
  have hsame (registry' : Registry) (h' : registry'.junctions = registry.junctions ∧ P registry') :
      registry'.Named ∧ P registry' := by
    refine ⟨fun name other hother => ?_, h'.2⟩
    rw [junction?, h'.1] at hother
    exact hnamed name other hother
  exact hall.mono (fun _ => hsame) hsame

/-- A new relation between given models. -/
theorem Kept.ends_register (hkept : Kept models P) {r : Relation} (hr : r.Among models)
    (hnamed : registry.Named) (h : P registry) :
    Ends (register r) registry (fun _ registry => registry.Named ∧ P registry)
      fun registry => registry.Named ∧ P registry :=
  Registry.ends_register (fun _ => ⟨hnamed, h⟩) (fun _ _ _ => ⟨hnamed, h⟩)
    fun hfree => ⟨hnamed, hkept.add registry r h (hr.mono fun _ => .inl) hfree⟩

/-- The junction of a declaration in both directions is given, or it is one of the registry. -/
theorem Kept.ends_chooseJunction (hkept : Kept models P) {fromKey toKey : String}
    (hjunction : ∀ junction, junction? = some junction → models junction)
    (hnamed : registry.Named) (h : P registry) :
    Ends (chooseJunction first second fromKey toKey junction?) registry
      (fun junction registry => registry.Named ∧ P registry
        ∧ (models junction ∨ registry.junction? junction.name = some junction))
      fun registry => registry.Named ∧ P registry := by
  cases junction? with
  | some junction => exact (ends_pure _).mpr ⟨hnamed, h, .inl (hjunction junction rfl)⟩
  | none =>
    refine ends_ensureJunction hnamed fun junction _ htable => ?_
    refine ⟨hnamed.withJunction junction, hkept.junction registry junction h htable, .inr ?_⟩
    rw [junction?_withJunction, if_pos rfl]

/-- What is kept with every part of a declaration is kept by the declaration, also by one that
fails. -/
theorem Declaration.keeps (d : Declaration) (hkept : Kept (· ∈ d.models) P)
    (hnamed : registry.Named) (h : P registry) :
    (registry.after d).Named ∧ P (registry.after d) := by
  refine Ends.state (P := fun registry => registry.Named ∧ P registry) (x := d.step) ?_
  cases d with
  | hasMany owner target junction? options =>
    show Ends (declareHasMany owner target junction? options) _ _ _
    unfold declareHasMany
    cases options.foreignKey? with
    | none => exact (ends_throw _).mpr ⟨hnamed, h⟩
    | some foreignKey =>
      refine ends_bind.mpr (ends_lift (fun found? hfound => ?_) fun _ _ => ⟨hnamed, h⟩)
      obtain rfl := resolved?_eq_ok hfound
      refine hkept.ends_register ?_ hnamed h
      refine ⟨⟨owner, by simp [models], rfl⟩, ⟨target, by simp [models], rfl⟩, fun j hj => ?_⟩
      obtain ⟨junction, hjunction, rfl⟩ := Option.map_eq_some_iff.mp hj
      exact ⟨junction, by simp [models, hjunction], rfl, rfl⟩
  | belongsTo owner target options =>
    show Ends (declareBelongsTo owner target options) _ _ _
    unfold declareBelongsTo
    cases options.foreignKey? with
    | none => exact (ends_throw _).mpr ⟨hnamed, h⟩
    | some foreignKey =>
      exact hkept.ends_register
        ⟨⟨owner, by simp [models], rfl⟩, ⟨target, by simp [models], rfl⟩, nofun⟩ hnamed h
  | manyToMany first second junction? options =>
    show Ends (declareManyToMany first second junction? options) _ _ _
    rw [declareManyToMany_eq]
    split
    · exact (ends_throw _).mpr ⟨hnamed, h⟩
    · refine ends_bind.mpr (ends_lift (fun found? hfound => ?_) fun _ _ => ⟨hnamed, h⟩)
      obtain rfl := resolved?_eq_ok hfound
      refine ends_bind.mpr ((hkept.ends_chooseJunction ?_ hnamed h).mono ?_ fun _ h => h)
      · intro junction hjunction
        simp [models, hjunction]
      · intro junction registry' h'
        exact hkept.ends_registerAll (among_pairRelations (.inl (by simp [models]))
          (.inl (by simp [models])) (.inr rfl)) h'.1 h'.2.1 h'.2.2

theorem named_empty : empty.Named := fun _ _ h => absurd h nofun

/-- What is kept by new relations and junctions between any models is kept by any declarations. -/
theorem afterAll_keeps (ds : List Declaration) (hkept : Kept (fun _ => True) P)
    (hnamed : registry.Named) (h : P registry) :
    (registry.afterAll ds).Named ∧ P (registry.afterAll ds) := by
  induction ds generalizing registry with
  | nil => exact ⟨hnamed, h⟩
  | cons d ds ih =>
    have hd : Kept (· ∈ d.models) P :=
      ⟨fun registry r h hr => hkept.add registry r h (hr.mono fun _ _ => .inl trivial),
        hkept.junction⟩
    obtain ⟨hnamed', h'⟩ := d.keeps hd hnamed h
    exact ih hnamed' h'

end Registry

end RecordMapping
