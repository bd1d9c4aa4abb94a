import RecordMapping.Proofs.Model.Columns
import RecordMapping.Proofs.Relation.Indexes

/-!
# What a declaration does

A declaration checks its choices first. Then it makes a junction or extends one, if it needs that,
and adds its relations one after the other until one is refused.

* `run_step`: a declaration carries out its `plan`, if there is one;
* `ends_registerAll_parts`: how far a list of relations is added;
* `ends_known`, `ends_refused`: relations that are declared already change nothing, also when the
  one behind them is refused.
-/

namespace RecordMapping

/-! ## Results of a change -/

section

variable {σ α : Type} {x : ExceptT Error (StateM σ) α} {s : σ} {good : α → σ → Prop}
  {bad : σ → Prop}

/-- Where a change ends that goes well. -/
theorem Ends.of_ok (h : Ends x s good bad) {a : α} (hok : (x.run.run s).1 = .ok a) :
    good a (x.run.run s).2 := by
  unfold Ends at h
  cases hrun : x.run.run s with
  | mk result s' =>
    rw [hrun] at h hok
    obtain rfl : result = .ok a := hok
    exact h

theorem run_eq_of_isOk {x : ExceptT Error (StateM σ) Unit} (h : (x.run.run s).1.isOk = true) :
    x.run.run s = (.ok (), (x.run.run s).2) := by
  cases hrun : x.run.run s with
  | mk result s' =>
    rw [hrun] at h
    cases result with
    | ok _ => rfl
    | error e => exact absurd h nofun

/-- A change that can only go well, and only in one state. -/
theorem Ends.run_eq {x : ExceptT Error (StateM σ) Unit} {s' : σ}
    (h : Ends x s (fun _ later => later = s') fun _ => False) : x.run.run s = (.ok (), s') := by
  unfold Ends at h
  cases hrun : x.run.run s with
  | mk result later =>
    rw [hrun] at h
    cases result with
    | ok _ => exact congrArg _ h
    | error e => exact h.elim

/-- Where a change ends that fails. -/
theorem Ends.of_error (h : Ends x s good bad) {e : Error} (herror : (x.run.run s).1 = .error e) :
    bad (x.run.run s).2 := by
  unfold Ends at h
  cases hrun : x.run.run s with
  | mk result s' =>
    rw [hrun] at h herror
    obtain rfl : result = .error e := herror
    exact h

end

namespace Registry

variable {registry later : Registry} {rs : List Relation} {first second : Model}
  {fromKey toKey : String}

/-! ## Adding relations -/

/-- Each of some relations is found under its alias. -/
def Declares (registry : Registry) (rs : List Relation) : Prop :=
  ∀ r ∈ rs, registry.get? r.owner r.aliasName = some r

/-- Another relation has the alias of a given one. -/
def Refuses (registry : Registry) (r : Relation) : Prop :=
  ∃ other, registry.get? r.owner r.aliasName = some other ∧ other ≠ r

/-- Relations were added behind those that were there, and the junctions stayed. -/
structure Grows (registry later : Registry) : Prop where
  relations : registry.relations <+: later.relations
  junctions : later.junctions = registry.junctions

theorem Grows.refl (registry : Registry) : registry.Grows registry := ⟨List.prefix_refl _, rfl⟩

theorem Grows.of_add {r : Relation} (h : (registry.add r).Grows later) : registry.Grows later :=
  ⟨(List.prefix_append _ _).trans h.relations, h.junctions⟩

/-- What an alias means it means from then on. -/
theorem Grows.get? (h : registry.Grows later) {model aliasName : String} {r : Relation}
    (hfound : registry.get? model aliasName = some r) : later.get? model aliasName = some r :=
  get?_of_prefix h.relations hfound

theorem get?_add {r : Relation} (hfree : registry.get? r.owner r.aliasName = none) :
    (registry.add r).get? r.owner r.aliasName = some r := by
  show ((registry.relations ++ [r]).filter (·.owner == r.owner)).find? _ = some r
  rw [List.filter_append, List.find?_append]
  show (registry.get? r.owner r.aliasName).or _ = _
  rw [hfree]
  simp

/-- Relations are added up to the first one that is refused. -/
theorem ends_registerAll_parts (rs : List Relation) (registry : Registry) :
    Ends (forM rs register) registry (fun _ later => registry.Grows later ∧ later.Declares rs)
      fun later => registry.Grows later ∧ ∃ done refused rest, rs = done ++ refused :: rest
        ∧ later.Declares done ∧ later.Refuses refused := by
  induction rs generalizing registry with
  | nil => exact (ends_pure _).mpr ⟨.refl registry, nofun⟩
  | cons r rs ih =>
    rw [List.forM_cons, ends_bind]
    -- in both ways to go on, the relation is found under its alias from then on
    have hnext {middle : Registry} (hmiddle : middle.get? r.owner r.aliasName = some r)
        (hgrows : ∀ later, middle.Grows later → registry.Grows later) :
        Ends (forM rs register) middle
          (fun _ later => registry.Grows later ∧ later.Declares (r :: rs))
          fun later => registry.Grows later ∧ ∃ done refused rest, r :: rs = done ++ refused :: rest
            ∧ later.Declares done ∧ later.Refuses refused := by
      refine (ih middle).mono ?_ ?_
      · rintro - later ⟨hlater, hrs⟩
        exact ⟨hgrows later hlater, List.forall_mem_cons.mpr ⟨hlater.get? hmiddle, hrs⟩⟩
      · rintro later ⟨hlater, done, refused, rest, rfl, hdone, hrefused⟩
        exact ⟨hgrows later hlater, r :: done, refused, rest, rfl,
          List.forall_mem_cons.mpr ⟨hlater.get? hmiddle, hdone⟩, hrefused⟩
    refine ends_register (fun hsame => hnext hsame fun _ => id) (fun other hfound hne => ?_)
      fun hfree => hnext (get?_add hfree) fun _ => Grows.of_add
    exact ⟨.refl registry, [], r, rs, rfl, nofun, other, hfound, hne⟩

/-- Relations that are declared already change nothing. -/
theorem ends_known (h : registry.Declares rs) {good : Unit → Registry → Prop}
    {bad : Registry → Prop} (hgood : good () registry) :
    Ends (forM rs register) registry good bad := by
  induction rs with
  | nil => exact (ends_pure _).mpr hgood
  | cons r rs ih =>
    obtain ⟨hr, hrs⟩ := List.forall_mem_cons.mp h
    rw [List.forM_cons, ends_bind]
    refine ends_register (fun _ => ih hrs) (fun other hfound hne => ?_) fun hfree => ?_
    · exact absurd (Option.some.inj (hfound.symm.trans hr)) hne
    · rw [hr] at hfree
      exact absurd hfree nofun

/-- Nor do they if the relation behind them is refused. -/
theorem ends_refused {done rest : List Relation} {refused : Relation} (h : registry.Declares done)
    (hrefused : registry.Refuses refused) {good : Unit → Registry → Prop} {bad : Registry → Prop}
    (hbad : bad registry) :
    Ends (forM (done ++ refused :: rest) register) registry good bad := by
  rw [List.forM_append, ends_bind]
  refine ends_known h ?_
  rw [List.forM_cons, ends_bind]
  obtain ⟨other, hother, hne⟩ := hrefused
  refine ends_register (fun hsame => ?_) (fun _ _ _ => hbad) fun hfree => ?_
  · exact absurd (Option.some.inj (hother.symm.trans hsame)) hne
  · rw [hother] at hfree
    exact absurd hfree nofun

/-! ## Junctions of pairs -/

theorem hasAttribute_withKey (model : Model) (key name : String) :
    (withKey model key).hasAttribute name = true
      ↔ name = key ∨ model.hasAttribute name = true := by
  have hmem (model : Model) :
      model.hasAttribute name = true ↔ name ∈ model.attributes.map (·.name) := by
    simp [Model.hasAttribute, Model.attribute?]
  unfold withKey
  split
  · rename_i hkey
    exact ⟨.inr, fun h => h.elim (· ▸ hkey) id⟩
  · rw [hmem, hmem]
    exact Model.mem_names_insertAttribute _ _ _

/-- A key that is there changes nothing. -/
theorem withKey_of_hasAttribute {model : Model} {key : String}
    (h : model.hasAttribute key = true) : withKey model key = model := if_pos h

/-- The junction for a pair of models: the one that is there, or else a new one, with the two
keys. -/
def pairJunction (registry : Registry) (first second : Model) (fromKey toKey : String) : Model :=
  withKey (withKey ((registry.junction? (junctionName first second)).getD
    { Model.empty (junctionName first second) with table? := some (junctionTable first second) })
    fromKey) toKey

theorem name_pairJunction (hnamed : registry.Named) :
    (registry.pairJunction first second fromKey toKey).name = junctionName first second := by
  unfold pairJunction
  rw [(withKey_same _ toKey).1, (withKey_same _ fromKey).1]
  cases hfound : registry.junction? (junctionName first second) with
  | none => rfl
  | some known => exact hnamed _ known hfound

/-- The table of the junction for a pair is that of the one that is there, or else it is named after
the two models. -/
theorem table_pairJunction :
    (registry.pairJunction first second fromKey toKey).table
      = ((registry.junction? (junctionName first second)).map (·.table)).getD
          (junctionTable first second) := by
  unfold pairJunction
  rw [(withKey_same _ toKey).2, (withKey_same _ fromKey).2]
  cases registry.junction? (junctionName first second) <;> rfl

theorem hasAttribute_pairJunction (key : String) (h : key = fromKey ∨ key = toKey) :
    (registry.pairJunction first second fromKey toKey).hasAttribute key = true := by
  unfold pairJunction
  rw [hasAttribute_withKey, hasAttribute_withKey]
  exact h.elim (fun h => .inr (.inl h)) .inl

/-- A junction that is there with both keys stays as it is. -/
theorem pairJunction_of_known {known : Model}
    (hknown : registry.junction? (junctionName first second) = some known)
    (hfrom : known.hasAttribute fromKey = true) (hto : known.hasAttribute toKey = true) :
    registry.pairJunction first second fromKey toKey = known := by
  unfold pairJunction
  rw [hknown, Option.getD_some, withKey_of_hasAttribute hfrom, withKey_of_hasAttribute hto]

/-! ## Plans -/

/-- What a declaration is about to do once its choices are checked. -/
structure Plan where
  /-- The junction to be kept. -/
  junction? : Option Model
  /-- The relations to be added. -/
  relations : List Relation

/-- The registry from which the relations of a plan are added. -/
def Plan.start (plan : Plan) (registry : Registry) : Registry :=
  match plan.junction? with
  | some junction => registry.withJunction junction
  | none => registry

/-- What a declaration is about to do, unless its choices are refused. -/
def Declaration.plan (registry : Registry) : Declaration → Result Plan
  | hasMany owner target junction? options => do
    let some foreignKey := options.foreignKey?
      | .error (.configuration (.missingForeignKey "hasMany" owner.name target.name))
    let junction? ← resolved? (.unknownJunction "hasMany" owner.name "->" target.name) junction?
      options.through?
    .ok ⟨none, [⟨.hasMany, options.alias?.getD (pluralAlias target), owner.name, target.name,
      foreignKey, junction?.map fun j =>
        ⟨j.name, j.table, options.throughKey?.getD (keyFor target)⟩⟩]⟩
  | belongsTo owner target options => do
    let some foreignKey := options.foreignKey?
      | .error (.configuration (.missingForeignKey "belongsTo" owner.name target.name))
    .ok ⟨none, [⟨.belongsTo, options.alias?.getD (singularAlias target), owner.name, target.name,
      foreignKey, none⟩]⟩
  | manyToMany first second junction? options => do
    let fromKey := options.fromKey?.getD (keyFor first)
    let toKey := options.toKey?.getD (keyFor second)
    if fromKey = toKey then
      .error (.configuration (.sameJunctionKeys first.name second.name fromKey))
    else
      match ← resolved? (.unknownJunction "manyToMany" first.name "<->" second.name) junction?
          options.through? with
      | some junction => .ok ⟨none, pairRelations first second junction fromKey toKey options⟩
      | none =>
        let junction := registry.pairJunction first second fromKey toKey
        .ok ⟨some junction, pairRelations first second junction fromKey toKey options⟩

/-- The choices that a pair needs: two keys, and no junction of another name. -/
theorem plan_pair_eq_ok {plan : Plan} {options : ManyToManyOptions} :
    (Declaration.manyToMany first second none options).plan registry = .ok plan
      ↔ let fromKey := options.fromKey?.getD (keyFor first)
        let toKey := options.toKey?.getD (keyFor second)
        let junction := registry.pairJunction first second fromKey toKey
        fromKey ≠ toKey ∧ options.through? = none
          ∧ plan = ⟨some junction, pairRelations first second junction fromKey toKey options⟩ := by
  unfold Declaration.plan
  dsimp only
  split
  · rename_i hkeys
    exact ⟨nofun, fun h => absurd hkeys h.1⟩
  · rename_i hkeys
    cases hthrough : options.through? with
    | some name => exact ⟨nofun, fun h => absurd h.2.1 nofun⟩
    | none =>
      refine ⟨fun h => ⟨hkeys, rfl, (Except.ok.inj h).symm⟩, fun h => ?_⟩
      rw [h.2.2]
      rfl

/-- A declaration whose choices are refused leaves the registry as it is. Any other one carries out
its plan. -/
theorem run_step (hnamed : registry.Named) (d : Declaration) :
    d.step.run.run registry = match d.plan registry with
      | .ok plan => (forM plan.relations register).run.run (plan.start registry)
      | .error e => (.error e, registry) := by
  have hforM (r : Relation) : forM [r] register = register r := by
    rw [List.forM_cons, List.forM_nil, bind_pure_unit]
  cases d with
  | hasMany owner target junction? options =>
    show (declareHasMany owner target junction? options).run.run registry = _
    unfold declareHasMany Declaration.plan
    dsimp only
    cases options.foreignKey? with
    | none => rfl
    | some foreignKey =>
      dsimp only
      cases resolved? _ junction? options.through? with
      | error e => rfl
      | ok found? =>
        show _ = (forM [_] register).run.run _
        rw [hforM]
        rfl
  | belongsTo owner target options =>
    show (declareBelongsTo owner target options).run.run registry = _
    unfold declareBelongsTo Declaration.plan
    dsimp only
    cases options.foreignKey? with
    | none => rfl
    | some foreignKey =>
      show _ = (forM [_] register).run.run _
      rw [hforM]
      rfl
  | manyToMany first second junction? options =>
    show (declareManyToMany first second junction? options).run.run registry = _
    rw [declareManyToMany_eq]
    unfold Declaration.plan
    dsimp only
    split
    · rfl
    · cases resolved? _ junction? options.through? with
      | error e => rfl
      | ok found? =>
        cases found? with
        | some junction => rfl
        | none =>
          -- the junction is put under the name of the pair, which is its own
          show _ = (forM _ register).run.run (registry.withJunction _)
          rw [withJunction, name_pairJunction hnamed]
          rfl

theorem ends_step (hnamed : registry.Named) (d : Declaration) {good : Unit → Registry → Prop}
    {bad : Registry → Prop} :
    Ends d.step registry good bad ↔ match d.plan registry with
      | .ok plan => Ends (forM plan.relations register) (plan.start registry) good bad
      | .error _ => bad registry := by
  unfold Ends
  rw [run_step hnamed]
  cases d.plan registry <;> exact Iff.rfl

variable {d : Declaration}

/-- Declarations keep the junctions in the order of their names. -/
theorem kept_sorted : Kept (fun _ => True) fun registry => registry.junctions.Sorted where
  add _ _ h _ _ := h
  junction _ _ h _ := h.insert _ _

theorem named_afterAll (ds : List Declaration) : (empty.afterAll ds).Named :=
  (afterAll_keeps ds kept_sorted named_empty List.Pairwise.nil).1

theorem sorted_afterAll (ds : List Declaration) : (empty.afterAll ds).junctions.Sorted :=
  (afterAll_keeps ds kept_sorted named_empty List.Pairwise.nil).2

theorem afterAll_append_singleton (ds : List Declaration) :
    registry.afterAll (ds ++ [d]) = (registry.afterAll ds).after d := List.foldl_append

/-- A junction that is there is kept without a trace. -/
theorem withJunction_eq_self (hsorted : registry.junctions.Sorted) {junction : Model}
    (h : registry.junction? junction.name = some junction) :
    registry.withJunction junction = registry := by
  show ({ registry with junctions := _ } : Registry) = registry
  rw [hsorted.insert_eq_self h]

/-- The junctions stay as the plan left them. -/
theorem Grows.junction?_of_start {plan : Plan} (h : (plan.start registry).Grows later)
    {junction : Model} (hjunction : plan.junction? = some junction) (name : String) :
    later.junction? name
      = if junction.name = name then some junction else registry.junction? name := by
  rw [Registry.junction?, h.junctions, Plan.start, hjunction]
  exact junction?_withJunction registry junction name

/-- What a declaration that went well leaves. -/
theorem exists_plan_of_ok (hnamed : registry.Named) (h : (d.step.run.run registry).1 = .ok ()) :
    ∃ plan, d.plan registry = .ok plan ∧ (plan.start registry).Grows (registry.after d)
      ∧ (registry.after d).Declares plan.relations := by
  cases hplan : d.plan registry with
  | error e =>
    have hends : Ends d.step registry (fun _ _ => False) fun _ => True := by
      rw [ends_step hnamed, hplan]
      trivial
    exact (hends.of_ok h).elim
  | ok plan =>
    have hends := ends_registerAll_parts plan.relations (plan.start registry)
    have hstep := (ends_step hnamed d).mpr (by rw [hplan]; exact hends)
    exact ⟨plan, rfl, hstep.of_ok h⟩

/-- What a declaration that failed leaves, if its choices were accepted. -/
theorem parts_of_error (hnamed : registry.Named) {plan : Plan} (hplan : d.plan registry = .ok plan)
    {e : Error} (h : (d.step.run.run registry).1 = .error e) :
    (plan.start registry).Grows (registry.after d) ∧ ∃ done refused rest,
      plan.relations = done ++ refused :: rest ∧ (registry.after d).Declares done
        ∧ (registry.after d).Refuses refused := by
  have hends := ends_registerAll_parts plan.relations (plan.start registry)
  have hstep := (ends_step hnamed d).mpr (by rw [hplan]; exact hends)
  exact hstep.of_error h

end Registry

end RecordMapping
