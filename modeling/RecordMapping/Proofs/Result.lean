import Mathlib.Data.List.Forall2

/-!
# Steps that may fail

How a computation in `Except` that went well is taken apart again: into its steps, or for a list
into one step for each element.
-/

namespace RecordMapping

variable {ε α β : Type}

/-- Two steps went well if the first one did and the second one did on its result. -/
theorem bind_eq_ok {x : Except ε α} {f : α → Except ε β} {b : β} :
    x >>= f = .ok b ↔ ∃ a, x = .ok a ∧ f a = .ok b := by
  constructor
  · intro h
    cases x with
    | error e => exact absurd h nofun
    | ok a => exact ⟨a, rfl, h⟩
  · intro h
    obtain ⟨a, rfl, hf⟩ := h
    exact hf

/-- What follows a step counts only for a result that the step gives. -/
theorem bind_congr_of_ok {x : Except ε α} {f g : α → Except ε β}
    (h : ∀ a, x = .ok a → f a = g a) : x >>= f = x >>= g := by
  cases x with
  | error e => rfl
  | ok a => exact h a rfl

/-- A step whose result was changed afterwards. -/
theorem map_eq_ok {x : Except ε α} {f : α → β} {b : β} :
    f <$> x = .ok b ↔ ∃ a, x = .ok a ∧ f a = b := by
  cases x with
  | error e => exact ⟨nofun, fun ⟨_, h, _⟩ => nomatch h⟩
  | ok a =>
    constructor
    · intro h
      exact ⟨a, rfl, Except.ok.inj h⟩
    · intro h
      obtain ⟨_, ⟨⟩, rfl⟩ := h
      rfl

/-- A list of steps went well if each one did; the results stand in the order of the steps. -/
theorem mapM_eq_ok {f : α → Except ε β} {xs : List α} {ys : List β} :
    xs.mapM f = .ok ys ↔ List.Forall₂ (fun x y => f x = .ok y) xs ys := by
  induction xs generalizing ys with
  | nil =>
    rw [List.forall₂_nil_left_iff]
    exact ⟨fun h => (Except.ok.inj h).symm, fun h => by rw [h]; rfl⟩
  | cons x xs ih =>
    rw [List.mapM_cons, bind_eq_ok, List.forall₂_cons_left_iff]
    constructor
    · intro h
      obtain ⟨y, hy, h⟩ := h
      obtain ⟨ys', hys', h⟩ := bind_eq_ok.mp h
      exact ⟨y, ys', hy, ih.mp hys', (Except.ok.inj h).symm⟩
    · intro h
      obtain ⟨y, ys', hy, hys', rfl⟩ := h
      exact ⟨y, hy, bind_eq_ok.mpr ⟨ys', ih.mpr hys', rfl⟩⟩

/-- Each result is that of the step for some element. -/
theorem exists_of_mem_mapM {f : α → Except ε β} {xs : List α} {ys : List β}
    (h : xs.mapM f = .ok ys) {y : β} (hy : y ∈ ys) : ∃ x ∈ xs, f x = .ok y := by
  have hsteps := mapM_eq_ok.mp h
  clear h
  induction hsteps with
  | nil => exact absurd hy List.not_mem_nil
  | @cons x _ xs _ hx _ ih =>
    rcases List.mem_cons.mp hy with rfl | hy
    · exact ⟨x, List.mem_cons_self, hx⟩
    · obtain ⟨x', hx', hstep⟩ := ih hy
      exact ⟨x', List.mem_cons_of_mem x hx', hstep⟩

/-- If a step gives what another one gives, but changed, then so does a list of such steps. -/
theorem mapM_eq_map {γ : Type} {f : α → Except ε β} {g : α → Except ε γ} {k : β → γ}
    (h : ∀ x, g x = k <$> f x) (xs : List α) : xs.mapM g = List.map k <$> xs.mapM f := by
  induction xs with
  | nil => rfl
  | cons x xs ih =>
    rw [List.mapM_cons, List.mapM_cons, h, ih]
    cases f x with
    | error e => rfl
    | ok y => cases xs.mapM f <;> rfl

/-- If a step on a changed element gives the changed result, then so does a list of such steps. -/
theorem mapM_map_eq {f : α → Except ε β} {g : α → α} {k : β → β} (h : ∀ x, f (g x) = k <$> f x)
    (xs : List α) : (xs.map g).mapM f = List.map k <$> xs.mapM f := by
  rw [List.mapM_map]
  exact mapM_eq_map h xs

/-- What a step keeps when it goes well is kept by a fold of steps that goes well. -/
theorem foldlM_invariant {P : β → Prop} {f : β → α → Except ε β}
    (hstep : ∀ x a y, P x → f x a = .ok y → P y) {as : List α} {x y : β} (hx : P x)
    (h : as.foldlM f x = .ok y) : P y := by
  induction as generalizing x with
  | nil => rwa [← Except.ok.inj h]
  | cons a as ih =>
    rw [List.foldlM_cons] at h
    obtain ⟨next, hnext, h⟩ := bind_eq_ok.mp h
    exact ih (hstep x a next hx hnext) h

/-- Two computations look the same if their first steps do and they go on alike from any results of
these that look the same. -/
theorem map_bind_congr {γ δ : Type} {look : α → γ} {look' : β → δ} {x y : Except ε α}
    {f g : α → Except ε β} (hxy : look <$> x = look <$> y)
    (hfg : ∀ a b, look a = look b → look' <$> f a = look' <$> g b) :
    look' <$> (x >>= f) = look' <$> (y >>= g) := by
  cases x with
  | error e =>
    cases y with
    | error e' => exact congrArg Except.error (Except.error.inj hxy)
    | ok b => exact absurd hxy nofun
  | ok a =>
    cases y with
    | error e' => exact absurd hxy nofun
    | ok b => exact hfg a b (Except.ok.inj hxy)

/-- Two computations fail with the same errors, if they fail. -/
def FailsLike (x : Except ε α) (y : Except ε β) : Prop := ∀ e, x = .error e ↔ y = .error e

theorem failsLike_ok (a : α) (b : β) : FailsLike (.ok a : Except ε α) (.ok b : Except ε β) :=
  fun _ => ⟨nofun, nofun⟩

/-- Two computations fail alike if their first steps do and what follows does, whatever the results
of these are. -/
theorem FailsLike.bind {γ δ : Type} {x : Except ε α} {y : Except ε β} {f : α → Except ε γ}
    {g : β → Except ε δ} (h : FailsLike x y) (hfg : ∀ a b, FailsLike (f a) (g b)) :
    FailsLike (x >>= f) (y >>= g) := by
  cases x with
  | error e =>
    obtain rfl : y = .error e := (h e).mp rfl
    exact fun other => ⟨fun hother => congrArg _ (Except.error.inj hother),
      fun hother => congrArg _ (Except.error.inj hother)⟩
  | ok a =>
    cases y with
    | error e => exact absurd ((h e).mpr rfl) nofun
    | ok b => exact hfg a b

/-- A last step that only changes the result does not fail. -/
theorem FailsLike.map {γ : Type} {x : Except ε α} {y : Except ε β} (h : FailsLike x y)
    (f : α → γ) : FailsLike (x >>= fun a => .ok (f a)) y := by
  cases x with
  | error e =>
    intro other
    rw [← h]
    exact ⟨fun hother => congrArg _ (Except.error.inj hother),
      fun hother => congrArg _ (Except.error.inj hother)⟩
  | ok a =>
    intro other
    rw [← h]
    exact ⟨nofun, nofun⟩

/-- Two steps for each element of a list are one. -/
theorem forall₂_comp {γ : Type} {R : α → β → Prop} {S : β → γ → Prop} {T : α → γ → Prop}
    (h : ∀ x y z, R x y → S y z → T x z) {xs : List α} {ys : List β} {zs : List γ}
    (hxs : List.Forall₂ R xs ys) (hys : List.Forall₂ S ys zs) : List.Forall₂ T xs zs := by
  induction hxs generalizing zs with
  | nil =>
    rw [List.forall₂_nil_left_iff.mp hys]
    exact .nil
  | cons hxy _ ih =>
    obtain ⟨z, rest, hyz, hrest, rfl⟩ := List.forall₂_cons_left_iff.mp hys
    exact .cons (h _ _ z hxy hyz) (ih hrest)

end RecordMapping
