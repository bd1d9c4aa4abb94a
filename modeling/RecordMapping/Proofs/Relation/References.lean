import RecordMapping.Proofs.Relation.Declaring
import RecordMapping.Schema

/-!
# What the relations of a schema refer to

A relation names its owner, its target and perhaps a junction, with the table of the junction. While
a schema is put together each of these names is one of a model that was registered, or of a junction
that was made for a pair of models.

* `Builder.Holds`: a model of a given name and table is registered or was made;
* `Builder.Sound`, `Call.keeps`: relations are between such models, which every call keeps;
* `model?_build`: what a name means in the finished schema;
* `references_build`: so all names mean something there. But a junction may be made under the name
  of a registered model, which hides it: then the relations through it have another table.
-/

namespace RecordMapping.Schema

open Registry (Named Kept)

/-- A call by which a schema is put together. -/
inductive Call where
  | register (model : Model)
  | hasMany (owner target : String) (options : HasManyOptions)
  | belongsTo (child parent : String) (options : BelongsToOptions)
  | manyToMany (first second : String) (options : ManyToManyOptions)

/-- What a call does. -/
def Call.step : Call → Builder.Building Unit
  | register model => Builder.register model
  | hasMany owner target options => Builder.hasMany owner target options
  | belongsTo child parent options => Builder.belongsTo child parent options
  | manyToMany first second options => Builder.manyToMany first second options

namespace Builder

variable {builder : Builder} {m : Model} {name : String}

/-- The builder after a call, which may have failed. -/
def after (builder : Builder) (call : Call) : Builder := (call.step.run.run builder).2

/-- The builder after some calls, one after the other. -/
def afterAll (builder : Builder) (calls : List Call) : Builder := calls.foldl after builder

/-- Whether a model of this name and table is registered or was made. -/
def Holds (builder : Builder) (m : Model) : Prop :=
  ∃ held, (builder.models.get? m.name = some held ∨ builder.relations.junction? m.name = some held)
    ∧ held.table = m.table

/-- A schema so far: models stand under their names, and relations are between models. -/
structure Sound (builder : Builder) : Prop where
  registered : ∀ name m, builder.models.get? name = some m → m.name = name
  made : builder.relations.Named
  relations : ∀ r ∈ builder.relations.relations, r.Among builder.Holds

theorem sound_empty : empty.Sound where
  registered _ _ h := absurd h nofun
  made := Registry.named_empty
  relations _ h := absurd h List.not_mem_nil

/-! ## Calls -/

/-- A model that is registered or made stays with every new junction. -/
theorem Holds.withJunction (h : builder.Holds m) {junction : Model}
    (htable : ∀ known, builder.relations.junction? junction.name = some known →
      junction.table = known.table) :
    Holds { builder with relations := builder.relations.withJunction junction } m := by
  obtain ⟨held, hheld, hsame⟩ := h
  rcases hheld with hheld | hheld
  · exact ⟨held, .inl hheld, hsame⟩
  · by_cases hname : junction.name = m.name
    · refine ⟨junction, .inr ?_, ?_⟩
      · rw [Registry.junction?_withJunction, if_pos hname]
      · rw [← hsame]
        exact htable held (hname ▸ hheld)
    · refine ⟨held, .inr ?_, hsame⟩
      rwa [Registry.junction?_withJunction, if_neg hname]

/-- It also stays when another one is registered. -/
theorem Holds.register (h : builder.Holds m) {model : Model}
    (hnew : builder.models.contains model.name = false) :
    Holds { builder with models := builder.models.insert model.name model } m := by
  obtain ⟨held, hheld, hsame⟩ := h
  rcases hheld with hheld | hheld
  · refine ⟨held, .inl ?_, hsame⟩
    rw [Fields.get?_insert, if_neg]
    · exact hheld
    · intro hname
      rw [Fields.contains_eq_isSome, hname, hheld] at hnew
      exact absurd hnew nofun
  · exact ⟨held, .inr hheld, hsame⟩

/-- Relations between models that are registered or made stay so, whatever is declared between some
of these. -/
theorem kept_holds (models : Fields Model) (given : Model → Prop) :
    Kept given fun relations => (∀ m, given m → Holds ⟨models, relations⟩ m)
      ∧ ∀ r ∈ relations.relations, r.Among (Holds ⟨models, relations⟩) where
  add relations r h hr _ := by
    refine ⟨h.1, fun s hs => ?_⟩
    rcases List.mem_append.mp hs with hs | hs
    · exact h.2 s hs
    · rw [List.mem_singleton.mp hs]
      refine hr.mono fun m hm => ?_
      rcases hm with hm | hm
      · exact h.1 m hm
      · exact ⟨m, .inr hm, rfl⟩
  junction relations junction h htable := by
    have hstays (m : Model) (hm : Holds ⟨models, relations⟩ m) :
        Holds ⟨models, relations.withJunction junction⟩ m := hm.withJunction htable
    exact ⟨fun m hm => hstays m (h.1 m hm), fun r hr => (h.2 r hr).mono hstays⟩

/-- A declaration between models that are registered or made, whether it goes well or not. -/
theorem Sound.ends_declaring (h : builder.Sound) (d : Registry.Declaration)
    (hgiven : ∀ m ∈ d.models, builder.Holds m) :
    Ends (declaring d.step) builder (fun _ => Sound) Sound := by
  obtain ⟨hmade, -, hrelations⟩ := d.keeps (kept_holds builder.models (· ∈ d.models)) h.made
    ⟨hgiven, h.relations⟩
  have hafter : Sound { builder with relations := (d.step.run.run builder.relations).2 } :=
    ⟨h.registered, hmade, hrelations⟩
  unfold declaring
  rw [ends_get]
  cases hrun : d.step.run.run builder.relations with
  | mk result relations =>
    rw [hrun] at hafter
    cases result <;> exact hafter

/-- A name means a model that is registered or made, or it is refused. -/
theorem Sound.ends_resolve (h : builder.Sound) {good : Model → Builder → Prop}
    (hgood : ∀ m, builder.Holds m → good m builder) :
    Ends (resolve name) builder good Sound := by
  unfold resolve
  rw [ends_get]
  cases hfound : builder.model? name with
  | none => exact (ends_throw _).mpr h
  | some m =>
    refine (ends_pure _).mpr (hgood m ⟨m, ?_, rfl⟩)
    unfold model? at hfound
    cases hregistered : builder.models.get? name with
    | some other =>
      rw [hregistered] at hfound
      obtain rfl := Option.some.inj hfound
      exact .inl (h.registered name other hregistered ▸ hregistered)
    | none =>
      rw [hregistered] at hfound
      exact .inr (h.made name m hfound ▸ hfound)

theorem Sound.ends_resolveOption (h : builder.Sound) {name? : Option String}
    {good : Option Model → Builder → Prop}
    (hgood : ∀ m?, (∀ m ∈ m?.toList, builder.Holds m) → good m? builder) :
    Ends (resolveOption name?) builder good Sound := by
  cases name? with
  | none => exact (ends_pure _).mpr (hgood none nofun)
  | some name =>
    refine ends_bind.mpr (h.ends_resolve fun m hm => hgood (some m) ?_)
    simpa using hm

/-- Every call keeps relations between models that are registered or made. -/
theorem Sound.after (h : builder.Sound) (call : Call) : (builder.after call).Sound := by
  refine Ends.state (x := call.step) ?_
  cases call with
  | register model =>
    show Ends (register model) _ _ _
    unfold register
    rw [ends_get]
    split
    · exact (ends_throw _).mpr h
    · rename_i hnew
      rw [Bool.not_eq_true] at hnew
      refine (ends_set _).mpr ⟨fun name m hm => ?_, h.made, fun r hr =>
        (h.relations r hr).mono fun m hm => hm.register hnew⟩
      rw [Fields.get?_insert] at hm
      split at hm
      · rename_i hname
        rw [← Option.some.inj hm, hname]
      · exact h.registered name m hm
  | hasMany owner target options =>
    refine ends_bind.mpr (h.ends_resolve fun owner howner => ?_)
    refine ends_bind.mpr (h.ends_resolve fun target htarget => ?_)
    refine ends_bind.mpr (h.ends_resolveOption fun junction? hjunction => ?_)
    exact h.ends_declaring (.hasMany owner target junction? options)
      (List.forall_mem_cons.mpr ⟨howner, List.forall_mem_cons.mpr ⟨htarget, hjunction⟩⟩)
  | belongsTo child parent options =>
    refine ends_bind.mpr (h.ends_resolve fun child hchild => ?_)
    refine ends_bind.mpr (h.ends_resolve fun parent hparent => ?_)
    exact h.ends_declaring (.belongsTo child parent options)
      (List.forall_mem_cons.mpr ⟨hchild, List.forall_mem_singleton.mpr hparent⟩)
  | manyToMany first second options =>
    refine ends_bind.mpr (h.ends_resolve fun first hfirst => ?_)
    refine ends_bind.mpr (h.ends_resolve fun second hsecond => ?_)
    refine ends_bind.mpr (h.ends_resolveOption fun junction? hjunction => ?_)
    exact h.ends_declaring (.manyToMany first second junction? options)
      (List.forall_mem_cons.mpr ⟨hfirst, List.forall_mem_cons.mpr ⟨hsecond, hjunction⟩⟩)

theorem Sound.afterAll (h : builder.Sound) (calls : List Call) :
    (builder.afterAll calls).Sound := by
  induction calls generalizing builder with
  | nil => exact h
  | cons call calls ih => exact ih (h.after call)

/-! ## The finished schema -/

/-- Models to which others are added under new names. -/
theorem get?_foldl_insert (added models : Fields Model) (name : String) :
    Fields.get? (added.foldl (fun models entry =>
        if models.contains entry.1 then models else models.insert entry.1 entry.2) models) name
      = (models.get? name).or (added.get? name) := by
  induction added generalizing models with
  | nil => exact (Option.or_none).symm
  | cons entry added ih =>
    obtain ⟨key, m⟩ := entry
    rw [List.foldl_cons, ih, Fields.get?_cons]
    dsimp only
    rw [Fields.contains_eq_isSome]
    by_cases hkey : key = name
    · subst hkey
      cases hfound : models.get? key with
      | some other => simp [hfound]
      | none => simp [Fields.get?_insert]
    · split <;> simp [hkey, Fields.get?_insert]

/-- A name means the model registered under it, or else the junction that was made. -/
theorem model?_build (name : String) : builder.build.model? name = builder.model? name := by
  refine (get?_foldl_insert builder.relations.junctions builder.models name).trans ?_
  unfold model?
  cases builder.models.get? name with
  | some m => rfl
  | none => rfl

/-- What is registered or made means something in the finished schema. -/
theorem Holds.exists_model? (h : builder.Holds m) :
    ∃ meant, builder.build.model? m.name = some meant := by
  obtain ⟨held, hheld, -⟩ := h
  rw [model?_build, model?]
  rcases hheld with hheld | hheld
  · rw [hheld]
    exact ⟨held, rfl⟩
  · cases builder.models.get? m.name with
    | some other => exact ⟨other, rfl⟩
    | none => exact ⟨held, hheld⟩

/-- A junction was made for a pair under the name of a registered model, which has another table. -/
def Hides (builder : Builder) (j : Junction) : Prop :=
  ∃ registered made, builder.models.get? j.model = some registered
    ∧ builder.relations.junction? j.model = some made
    ∧ made.table = j.table ∧ registered.table ≠ j.table

/-- The table of a junction is that of its model, unless the model hides it. -/
theorem Holds.table_iff (h : builder.Holds m) {j : Junction} (hname : j.model = m.name)
    (htable : j.table = m.table) :
    (∃ meant, builder.build.model? j.model = some meant ∧ meant.table = j.table)
      ↔ ¬ builder.Hides j := by
  simp only [model?_build, model?]
  constructor
  · rintro ⟨meant, hmeant, hsame⟩ ⟨registered, made, hregistered, -, -, hother⟩
    rw [hregistered] at hmeant
    rw [← Option.some.inj hmeant] at hsame
    exact hother hsame
  · intro hhides
    obtain ⟨held, hheld, hsame⟩ := h
    rw [← hname] at hheld
    cases hregistered : builder.models.get? j.model with
    | none =>
      rw [hregistered] at hheld
      exact ⟨held, hheld.resolve_left nofun, hsame.trans htable.symm⟩
    | some registered =>
      refine ⟨registered, rfl, ?_⟩
      rcases hheld with hheld | hheld
      · rw [hregistered] at hheld
        rw [Option.some.inj hheld, hsame, htable]
      · refine Decidable.byContradiction fun hother => ?_
        exact hhides ⟨registered, held, hregistered, hheld, hsame.trans htable.symm, hother⟩

/-- **Every name in a relation means a model.** Whatever is registered and declared, in whatever
order and whether it goes well or not, the owner, the target and the junction of every relation are
models of the finished schema. The table of a junction is that of its model exactly if the junction
was not made under the name of a registered model with another table. -/
theorem references_build (calls : List Call) :
    ∀ r ∈ (empty.afterAll calls).build.relations.relations,
      (∃ owner, (empty.afterAll calls).build.model? r.owner = some owner)
        ∧ (∃ target, (empty.afterAll calls).build.model? r.target = some target)
        ∧ ∀ j, r.junction? = some j →
          (∃ junction, (empty.afterAll calls).build.model? j.model = some junction)
            ∧ ((∃ junction, (empty.afterAll calls).build.model? j.model = some junction
                ∧ junction.table = j.table)
              ↔ ¬ (empty.afterAll calls).Hides j) := by
  intro r hr
  obtain ⟨⟨owner, howner, hownerName⟩, ⟨target, htarget, htargetName⟩, hthrough⟩ :=
    (sound_empty.afterAll calls).relations r hr
  refine ⟨?_, ?_, fun j hj => ?_⟩
  · rw [hownerName]
    exact howner.exists_model?
  · rw [htargetName]
    exact htarget.exists_model?
  · obtain ⟨junction, hjunction, hname, htable⟩ := hthrough j hj
    refine ⟨?_, hjunction.table_iff hname htable⟩
    rw [hname]
    exact hjunction.exists_model?

/-- Posts and tags, and a model of the name that the junction of the two takes. -/
def taggings : List Call :=
  [.register { Model.empty "Post" with table? := some "posts" },
    .register { Model.empty "Tag" with table? := some "tags" },
    .register { Model.empty "PostTag" with table? := some "taggings" },
    .manyToMany "Post" "Tag" ⟨none, none, none, none, none⟩]

theorem references_build_taggings : ∃ r j junction,
    r ∈ (empty.afterAll taggings).build.relations.relations ∧ r.junction? = some j
      ∧ j.table = "post_tag"
      ∧ (empty.afterAll taggings).build.model? j.model = some junction
      ∧ junction.table = "taggings"
      ∧ ¬ ∃ junction, (empty.afterAll taggings).build.model? j.model = some junction
        ∧ junction.table = j.table := by
  have hmem : (⟨.manyToMany, "tags", "Post", "Tag", "post_id",
      some ⟨"PostTag", "post_tag", "tag_id"⟩⟩ : Relation)
      ∈ (empty.afterAll taggings).build.relations.relations := by decide +kernel
  obtain ⟨-, -, hjunction⟩ := references_build taggings _ hmem
  obtain ⟨-, htable⟩ := hjunction _ rfl
  refine ⟨_, _, _, hmem, rfl, rfl, rfl, rfl, fun hsame => htable.mp hsame ?_⟩
  exact ⟨_, _, rfl, rfl, by decide +kernel, by decide +kernel⟩

end Builder

end RecordMapping.Schema
