import RecordMapping.Proofs.Relation.Plans
import RecordMapping.Proofs.Result

/-!
# Declarations that fail

A declaration that is refused reports an error. What it did before stays: the junction that it made
or extended, and the relations in front of the refused one.

* `SameAnswers`: two registries that nobody can tell apart;
* `failed_same_iff`: a declaration in both directions that fails leaves no trace exactly if its
  junction and the relations in front of the refused one were there before. Any other declaration
  that fails never leaves one.
-/

namespace RecordMapping.Registry

variable {registry : Registry} {d : Declaration} {plan : Plan}

/-! ## Answers of a registry -/

/-- Two registries answer everything alike, also in the order of what they list. -/
structure SameAnswers (a b : Registry) : Prop where
  lookup : ∀ model key, a.lookup model key = b.lookup model key
  get? : ∀ model aliasName, a.get? model aliasName = b.get? model aliasName
  ownedBy : ∀ model, a.ownedBy model = b.ownedBy model
  junction? : ∀ name, a.junction? name = b.junction? name
  junctions : a.junctions.map (·.2) = b.junctions.map (·.2)

theorem SameAnswers.refl (registry : Registry) : SameAnswers registry registry :=
  ⟨fun _ _ => rfl, fun _ _ => rfl, fun _ => rfl, fun _ => rfl, rfl⟩

variable {a b : Registry}

theorem SameAnswers.declares (h : SameAnswers a b) {rs : List Relation} (hrs : a.Declares rs) :
    b.Declares rs := fun r hr => (h.get? _ _).symm.trans (hrs r hr)

theorem SameAnswers.refuses (h : SameAnswers a b) {r : Relation} (hr : a.Refuses r) :
    b.Refuses r := by
  obtain ⟨other, hother, hne⟩ := hr
  exact ⟨other, (h.get? _ _).symm.trans hother, hne⟩

/-! ## Plans without a trace -/

/-- A plan finds its junction and its relations in the registry, up to a relation that is
refused. -/
structure Plan.Traceless (plan : Plan) (registry : Registry) : Prop where
  junction : ∀ junction, plan.junction? = some junction →
    registry.junction? junction.name = some junction
  relations : ∃ done refused rest, plan.relations = done ++ refused :: rest
    ∧ registry.Declares done ∧ registry.Refuses refused

/-- The junction of such a plan is made without a trace. -/
theorem Plan.start_eq (hsorted : registry.junctions.Sorted) (h : plan.Traceless registry) :
    plan.start registry = registry := by
  unfold Plan.start
  cases hjunction : plan.junction? with
  | none => rfl
  | some junction => exact withJunction_eq_self hsorted (h.junction junction hjunction)

/-- Whether a declaration goes in both directions. -/
def Declaration.isMutual : Declaration → Bool
  | manyToMany .. => true
  | hasMany .. | belongsTo .. => false

/-- A declaration in one direction makes no junction and adds one relation. -/
theorem plan_of_not_isMutual (hmutual : d.isMutual = false) (hplan : d.plan registry = .ok plan) :
    plan.junction? = none ∧ ∃ r, plan.relations = [r] := by
  cases d with
  | hasMany owner target junction? options =>
    dsimp only [Declaration.plan] at hplan
    split at hplan
    · obtain ⟨found?, -, hplan⟩ := bind_eq_ok.mp hplan
      obtain rfl := Except.ok.inj hplan
      exact ⟨rfl, _, rfl⟩
    · exact absurd hplan nofun
  | belongsTo owner target options =>
    dsimp only [Declaration.plan] at hplan
    split at hplan
    · obtain rfl := Except.ok.inj hplan
      exact ⟨rfl, _, rfl⟩
    · exact absurd hplan nofun
  | manyToMany first second junction? options => exact absurd hmutual nofun

/-! ## Failures -/

/-- A declaration that fails leaves the registry as it is if its plan fails without a trace. -/
theorem after_eq (hnamed : registry.Named) {e : Error}
    (h : (d.step.run.run registry).1 = .error e)
    (hplans : ∀ plan, d.plan registry = .ok plan →
      Ends (forM plan.relations register) (plan.start registry) (fun _ _ => True) (· = registry)) :
    registry.after d = registry := by
  have hends : Ends d.step registry (fun _ _ => True) (· = registry) := by
    rw [ends_step hnamed]
    cases hplan : d.plan registry with
    | error e' => rfl
    | ok plan => exact hplans plan hplan
  exact hends.of_error h

/-- **What a declaration that fails leaves.** A declaration in one direction that fails leaves the
registry as it was. One in both directions that fails leaves a registry with the same answers if and
only if its choices were refused at once, or its junction and all of its relations in front of the
refused one were there before. -/
theorem failed_same_iff (ds : List Declaration) {e : Error}
    (h : (d.step.run.run (empty.afterAll ds)).1 = .error e) :
    let registry := empty.afterAll ds
    (d.isMutual = false → registry.after d = registry)
      ∧ ((registry.after d).SameAnswers registry
        ↔ ∀ plan, d.plan registry = .ok plan → plan.Traceless registry) := by
  intro registry
  have hnamed : registry.Named := named_afterAll ds
  refine ⟨fun hmutual => after_eq hnamed h fun plan hplan => ?_, fun hsame plan hplan => ?_,
    fun htraceless => ?_⟩
  · obtain ⟨hjunction, r, hr⟩ := plan_of_not_isMutual hmutual hplan
    rw [hr, Plan.start, hjunction, List.forM_cons, ends_bind]
    exact ends_register (fun _ => trivial) (fun _ _ _ => rfl) fun _ => trivial
  · obtain ⟨hgrows, done, refused, rest, hrelations, hdone, hrefused⟩ :=
      parts_of_error hnamed hplan h
    refine ⟨fun junction hjunction => ?_, done, refused, rest, hrelations, hsame.declares hdone,
      hsame.refuses hrefused⟩
    rw [← hsame.junction?, hgrows.junction?_of_start hjunction, if_pos rfl]
  · have heq : registry.after d = registry := after_eq hnamed h fun plan hplan => by
      obtain ⟨done, refused, rest, hrelations, hdone, hrefused⟩ := (htraceless plan hplan).relations
      rw [Plan.start_eq (sorted_afterAll ds) (htraceless plan hplan), hrelations]
      exact ends_refused hdone hrefused rfl
    rw [heq]
    exact .refl registry

/-- Posts and tags in both directions, although the posts of a tag are declared already. -/
theorem failed_same_iff_taggings :
    let post := Model.empty "Post"
    let tag := Model.empty "Tag"
    let registry := empty.afterAll [.hasMany tag post none ⟨none, some "tag_id", none, none⟩]
    let d : Declaration := .manyToMany post tag none ⟨none, none, none, none, none⟩
    (d.step.run.run registry).1.isOk = false ∧ ¬ (registry.after d).SameAnswers registry := by
  intro post tag registry d
  have hfails : (d.step.run.run registry).1.isOk = false := by decide +kernel
  refine ⟨hfails, fun hsame => ?_⟩
  cases hresult : (d.step.run.run registry).1 with
  | ok _ =>
    rw [hresult] at hfails
    exact absurd hfails nofun
  | error e =>
    have htraceless := (failed_same_iff _ hresult).2.mp hsame _
      (plan_pair_eq_ok.mpr ⟨by decide +kernel, rfl, rfl⟩)
    -- the junction of the pair was not there before
    have hnone : (registry.junction? "PostTag").isNone = true := by decide +kernel
    have hsome := htraceless.junction _ rfl
    rw [name_pairJunction (named_afterAll _)] at hsome
    rw [show registry.junction? "PostTag" = _ from hsome] at hnone
    exact absurd hnone nofun

end RecordMapping.Registry
