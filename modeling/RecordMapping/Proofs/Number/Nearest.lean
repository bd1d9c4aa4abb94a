import RecordMapping.Proofs.Number.Floats

/-!
# The float nearest to a number

Between two neighbouring powers of two the floats lie on a grid. A number that is measured in the
unit of its grid and rounded to a natural number, a half to the even neighbour, gives the nearest
float; no float off the grid is as near.

* `IsNearest`: the float nearest to a number, ties going to the even significand;
* `InRange`: the numbers that are not rounded to an infinity;
* `Placed`: a number on the grid of the floats around it;
* `Placed.isNearest_iff`: the nearest float is the one with the rounded significand;
* `Placed.lt_infinityBits_iff`: it is finite exactly if the number is in range.
-/

namespace RecordMapping.Number

/-! ## Nearest floats -/

/-- The number that a fraction is. -/
def Dyadic.value (d : Dyadic) : ℚ := d.signed * 2 ^ d.exponent

/-- A number with a sign in front of it. -/
def withSign (negative : Bool) (q : ℚ) : ℚ := if negative then -q else q

/-- The float with the given sign that is nearest to `q`. Where another one is as near, the
significand is even. -/
def IsNearest (negative : Bool) (q : ℚ) (x : Float) : Prop :=
  ∃ d, Dyadic.ofFloat? x = some d ∧ d.negative = negative
    ∧ ∀ y d', Dyadic.ofFloat? y = some d' → |d.value - q| ≤ |d'.value - q|
      ∧ (|d'.value - q| = |d.value - q| → d'.value = d.value ∨ Even d.significand)

/-- The numbers within half a unit of the floats. The greatest float is `(2 ^ 53 - 1) · 2 ^ 971`,
and what is not nearer to it than to `2 ^ 1024` is rounded to an infinity. -/
def InRange (q : ℚ) : Prop := |q| < (2 ^ 54 - 1) * 2 ^ (970 : ℤ)

theorem two_zpow_pos (e : ℤ) : (0 : ℚ) < 2 ^ e := zpow_pos (by norm_num) e

theorem two_zpow_add (e f : ℤ) : (2 : ℚ) ^ (e + f) = 2 ^ e * 2 ^ f := zpow_add₀ (by norm_num) e f

@[simp] theorem abs_withSign (negative : Bool) (q : ℚ) : |withSign negative q| = |q| := by
  cases negative
  · rfl
  · exact abs_neg q

/-! ## Values of floats -/

namespace Dyadic

theorem signed_eq (d : Dyadic) : (d.signed : ℚ) = withSign d.negative d.significand := by
  unfold signed withSign
  split
  · rw [Int.cast_neg, Int.cast_natCast]
  · rfl

theorem value_eq (d : Dyadic) :
    d.value = withSign d.negative (d.significand * 2 ^ d.exponent) := by
  rw [value, signed_eq]
  unfold withSign
  split
  · rw [neg_mul]
  · rfl

theorem abs_signed (d : Dyadic) : |d.signed| = d.significand := by
  unfold signed
  split
  · rw [abs_neg, Nat.abs_cast]
  · exact Nat.abs_cast _

/-- A significand that has its hidden bit is not a smaller one in a smaller unit. -/
theorem Normal.exponent_le {d d' : Dyadic} (hd : d.Normal) (hd' : d'.Normal)
    (h : (d.significand : ℚ) * 2 ^ d.exponent = d'.significand * 2 ^ d'.exponent) :
    d'.exponent ≤ d.exponent := by
  by_contra hlt
  obtain ⟨n, hn⟩ := Int.eq_ofNat_of_zero_le (show 0 ≤ d'.exponent - d.exponent - 1 by omega)
  rw [show d'.exponent = ((n + 1 : ℕ) : ℤ) + d.exponent by omega, two_zpow_add, ← mul_assoc,
    mul_left_inj' (two_zpow_pos _).ne', zpow_natCast] at h
  have hsignificand : d.significand = d'.significand * 2 ^ (n + 1) := by exact_mod_cast h
  have hhidden := hd'.hidden.resolve_right fun heq => hlt (heq ▸ hd.exponent_ge)
  have htwo : 2 ≤ 2 ^ (n + 1) := Nat.le_self_pow (Nat.succ_ne_zero n) 2
  have hdouble : hiddenBit * 2 ≤ d.significand := hsignificand ▸ Nat.mul_le_mul hhidden htwo
  have hlt := hd.significand_lt
  omega

/-- The fraction that a float is, is known by its sign and its value. -/
theorem Normal.eq_of_value {d d' : Dyadic} (hd : d.Normal) (hd' : d'.Normal)
    (hsign : d.negative = d'.negative) (hvalue : d.value = d'.value) : d = d' := by
  have habs : (d.significand : ℚ) * 2 ^ d.exponent = d'.significand * 2 ^ d'.exponent := by
    rw [value_eq, value_eq, hsign] at hvalue
    unfold withSign at hvalue
    split at hvalue
    · exact neg_inj.mp hvalue
    · exact hvalue
  have hexponent : d.exponent = d'.exponent :=
    le_antisymm (hd'.exponent_le hd habs.symm) (hd.exponent_le hd' habs)
  rw [hexponent, mul_left_inj' (two_zpow_pos _).ne'] at habs
  obtain ⟨negative, significand, exponent⟩ := d
  exact Dyadic.mk.injEq .. |>.mpr ⟨hsign, by exact_mod_cast habs, hexponent⟩

end Dyadic

/-! ## Rounding to natural numbers -/

/-- A natural number that is nearest to `t`, and even if it is half a unit away. -/
structure RoundsTo (t : ℚ) (r : ℕ) : Prop where
  near : |(r : ℚ) - t| ≤ 1 / 2
  even : |(r : ℚ) - t| = 1 / 2 → Even r

namespace RoundsTo

variable {t : ℚ} {r : ℕ}

/-- No integer is nearer, and only an odd one may be as near. -/
theorem nearer (h : RoundsTo t r) (k : ℤ) : |(r : ℚ) - t| ≤ |(k : ℚ) - t|
    ∧ (|(k : ℚ) - t| = |(r : ℚ) - t| → k = r ∨ (Even r ∧ Odd k)) := by
  obtain rfl | hk := eq_or_ne k r
  · exact ⟨le_rfl, fun _ => .inl rfl⟩
  -- another integer is at least one unit away from the rounded one
  have hunit : (1 : ℚ) ≤ |(k : ℚ) - r| := by
    have h := Int.one_le_abs (sub_ne_zero.mpr hk)
    exact_mod_cast h
  have htriangle : |(k : ℚ) - r| ≤ |(k : ℚ) - t| + |(r : ℚ) - t| := by
    rw [abs_sub_comm (r : ℚ) t]
    exact abs_sub_le _ _ _
  have hnear := h.near
  refine ⟨by linarith, fun htie => .inr ?_⟩
  have hhalf : |(r : ℚ) - t| = 1 / 2 := by linarith
  have hone : |k - r| = 1 := by
    have hle : |(k : ℚ) - r| ≤ 1 := by linarith
    have hle : |k - r| ≤ 1 := by exact_mod_cast hle
    have hge : 1 ≤ |k - r| := by exact_mod_cast hunit
    omega
  have heven := h.even hhalf
  refine ⟨heven, ?_⟩
  rcases (abs_eq (by norm_num)).mp hone with hnext | hnext
  · rw [show k = r + 1 by omega]
    exact (Int.even_coe_nat r |>.mpr heven).add_one
  · rw [show k = r - 1 by omega]
    exact (Int.even_coe_nat r |>.mpr heven).sub_odd odd_one

theorem le_of_le (h : RoundsTo t r) {n : ℕ} (ht : t ≤ n) : r ≤ n := by
  have hnear := (abs_le.mp h.near).2
  have hlt : (r : ℚ) < n + 1 := by linarith
  exact Nat.lt_succ_iff.mp (by exact_mod_cast hlt)

theorem ge_of_le (h : RoundsTo t r) {n : ℕ} (ht : (n : ℚ) ≤ t) : n ≤ r := by
  have hnear := (abs_le.mp h.near).1
  have hlt : (n : ℚ) < r + 1 := by linarith
  exact Nat.lt_succ_iff.mp (by exact_mod_cast hlt)

/-- What is rounded below an even number was more than half a unit below it. -/
theorem lt_iff (h : RoundsTo t r) {n : ℕ} (hn : Even n) : r < n ↔ t < n - 1 / 2 := by
  obtain ⟨hlow, hhigh⟩ := abs_le.mp h.near
  constructor
  · intro hlt
    have hle : (r : ℚ) + 1 ≤ n := by exact_mod_cast hlt
    refine lt_of_le_of_ne (by linarith) fun htie => ?_
    have hr : (r : ℚ) + 1 = n := by linarith
    have hodd : Odd n := by
      rw [show n = r + 1 by exact_mod_cast hr.symm]
      exact (h.even (by rw [abs_eq (by norm_num)]; right; linarith)).add_one
    exact Nat.not_even_iff_odd.mpr hodd hn
  · intro hlt
    have hlt : (r : ℚ) < n := by linarith
    exact_mod_cast hlt

end RoundsTo

/-! ## The grid of floats -/

/-- A number between two neighbouring powers of two, or below the least of them, with the unit
`2 ^ e` of the floats there, and the number of units to which it is rounded. -/
structure Placed (q : ℚ) (e : ℤ) (r : ℕ) : Prop where
  exponent_ge : leastExponent ≤ e
  lt : q / 2 ^ e < (2 * hiddenBit : ℕ)
  hidden : e = leastExponent ∨ (hiddenBit : ℚ) ≤ q / 2 ^ e
  rounds : RoundsTo (q / 2 ^ e) r

/-- The bits of `r` units `2 ^ e`. If `r` reaches the next power of two, it carries into the field
of the exponent. -/
def gridBits (e : ℤ) (r : ℕ) : ℕ := (e - leastExponent).toNat * hiddenBit + r

namespace Placed

variable {q : ℚ} {e : ℤ} {r : ℕ}

theorem le_double (h : Placed q e r) : r ≤ 2 * hiddenBit := h.rounds.le_of_le h.lt.le

theorem hidden_le (h : Placed q e r) : e = leastExponent ∨ hiddenBit ≤ r :=
  h.hidden.imp_right h.rounds.ge_of_le

/-- A significand in a smaller unit is less than the hidden bit in the greater one. -/
theorem mul_zpow_lt_hiddenBit {k f : ℤ} (hk : |k| < (2 * hiddenBit : ℕ)) (hfe : f < e) :
    (k : ℚ) * 2 ^ (f - e) < hiddenBit := by
  have hhalf : (2 : ℚ) ^ (f - e) ≤ 1 / 2 := by
    rw [one_div, ← zpow_neg_one]
    exact zpow_le_zpow_right₀ (by norm_num) (by omega)
  have hk : |(k : ℚ)| < 2 * hiddenBit := by exact_mod_cast hk
  calc (k : ℚ) * 2 ^ (f - e) ≤ |(k : ℚ)| * 2 ^ (f - e) :=
        mul_le_mul_of_nonneg_right (le_abs_self _) (two_zpow_pos _).le
    _ ≤ |(k : ℚ)| * (1 / 2) := mul_le_mul_of_nonneg_left hhalf (abs_nonneg _)
    _ < hiddenBit := by linarith

/-- No float is nearer than the rounded number of units, and only one with an odd significand may be
as near. -/
theorem nearer (h : Placed q e r) {k f : ℤ} (hk : |k| < (2 * hiddenBit : ℕ))
    (hf : leastExponent ≤ f) : |(r : ℚ) * 2 ^ e - q| ≤ |(k : ℚ) * 2 ^ f - q|
      ∧ (|(k : ℚ) * 2 ^ f - q| = |(r : ℚ) * 2 ^ e - q|
        → (k : ℚ) * 2 ^ f = r * 2 ^ e ∨ (Even r ∧ Odd k)) := by
  have hunit := two_zpow_pos e
  -- all distances are measured in units
  have hscale (u : ℚ) : |u * 2 ^ e - q| = |u - q / 2 ^ e| * 2 ^ e := by
    rw [← abs_of_pos hunit, ← abs_mul, abs_of_pos hunit, sub_mul, div_mul_cancel₀ _ hunit.ne']
  have hsplit : (2 : ℚ) ^ f = 2 ^ (f - e) * 2 ^ e := by rw [← two_zpow_add, sub_add_cancel]
  rw [hsplit, ← mul_assoc, hscale, hscale, mul_le_mul_iff_left₀ hunit, mul_left_inj' hunit.ne',
    mul_left_inj' hunit.ne']
  rcases le_or_gt e f with hef | hfe
  · -- a float with a greater exponent lies on the grid
    obtain ⟨n, hn⟩ := Int.eq_ofNat_of_zero_le (sub_nonneg.mpr hef)
    have hcast : (k : ℚ) * 2 ^ (f - e) = ((k * 2 ^ n : ℤ) : ℚ) := by
      rw [hn]
      push_cast
      rfl
    rw [hcast]
    obtain ⟨hnear, htie⟩ := h.rounds.nearer (k * 2 ^ n)
    refine ⟨hnear, fun heq => (htie heq).imp (fun hk => ?_) (And.imp_right fun hodd => ?_)⟩
    · exact_mod_cast hk
    · exact Int.Odd.of_mul_left hodd
  · -- a float with a smaller exponent lies below the grid
    have hbelow := mul_zpow_lt_hiddenBit hk hfe
    have hhidden : (hiddenBit : ℚ) ≤ q / 2 ^ e := h.hidden.resolve_left (by omega)
    have hnear := (h.rounds.nearer hiddenBit).1
    rw [Int.cast_natCast, abs_of_nonpos (sub_nonpos.mpr hhidden)] at hnear
    have hfar : |(r : ℚ) - q / 2 ^ e| < |(k : ℚ) * 2 ^ (f - e) - q / 2 ^ e| := by
      rw [abs_of_neg (show (k : ℚ) * 2 ^ (f - e) - q / 2 ^ e < 0 by linarith)]
      linarith
    exact ⟨hfar.le, fun heq => absurd heq hfar.ne'⟩

/-- The float with the bits of `r` units. At the next power of two the significand starts again. -/
theorem ofBits_gridBits_eq (h : Placed q e r) (negative : Bool) :
    Dyadic.ofBits negative (gridBits e r) = ⟨negative, r, e⟩
      ∨ (r = 2 * hiddenBit
        ∧ Dyadic.ofBits negative (gridBits e r) = ⟨negative, hiddenBit, e + 1⟩) := by
  have hdouble := h.le_double
  have hleast := h.hidden_le
  have hge := h.exponent_ge
  obtain ⟨n, hn⟩ := Int.eq_ofNat_of_zero_le (sub_nonneg.mpr hge)
  have hunits : gridBits e r = n * hiddenBit + r := by
    rw [gridBits, hn]
    rfl
  unfold Dyadic.ofBits
  rw [hunits]
  unfold hiddenBit at *
  by_cases hr : r < 2 * 4503599627370496
  · left
    split
    · rw [Dyadic.mk.injEq]
      exact ⟨rfl, by omega, by omega⟩
    · rw [Dyadic.mk.injEq]
      exact ⟨rfl, by omega, by omega⟩
  · right
    refine ⟨by omega, ?_⟩
    rw [if_neg (by omega), Dyadic.mk.injEq]
    exact ⟨rfl, by omega, by omega⟩

/-- The rounded number of units is the value of the float with their bits. -/
theorem ofBits_gridBits (h : Placed q e r) (negative : Bool) :
    (Dyadic.ofBits negative (gridBits e r)).negative = negative
      ∧ (Dyadic.ofBits negative (gridBits e r)).value = withSign negative (r * 2 ^ e)
      ∧ (Even r → Even (Dyadic.ofBits negative (gridBits e r)).significand) := by
  rcases h.ofBits_gridBits_eq negative with heq | ⟨hr, heq⟩
  · rw [heq, Dyadic.value_eq]
    exact ⟨rfl, rfl, id⟩
  · rw [heq, Dyadic.value_eq, hr, two_zpow_add]
    refine ⟨rfl, ?_, fun _ => show Even hiddenBit by decide⟩
    congr 1
    push_cast
    ring

/-- No other float is nearer to the number with a sign, and only one with an odd significand may be
as near. -/
theorem nearer_value (h : Placed q e r) (negative : Bool) {d : Dyadic} (hd : d.Normal) :
    |withSign negative (r * 2 ^ e) - withSign negative q| ≤ |d.value - withSign negative q|
      ∧ (|d.value - withSign negative q| = |withSign negative (r * 2 ^ e) - withSign negative q|
        → d.value = withSign negative (r * 2 ^ e) ∨ (Even r ∧ Odd d.significand)) := by
  have hlt : |d.signed| < (2 * hiddenBit : ℕ) := by
    rw [d.abs_signed]
    exact_mod_cast hd.significand_lt
  have hodd (k : ℤ) (hk : |k| = d.significand) (hkodd : Odd k) : Odd d.significand := by
    rw [← Int.odd_coe_nat, ← hk]
    exact odd_abs.mpr hkodd
  cases negative
  · obtain ⟨hnear, htie⟩ := h.nearer hlt hd.exponent_ge
    exact ⟨hnear, fun heq => (htie heq).imp id (And.imp_right (hodd _ d.abs_signed))⟩
  · -- both numbers change their signs
    have hmirror (u v : ℚ) : |-u - -v| = |u - v| := by rw [neg_sub_neg, abs_sub_comm]
    have hvalue : d.value = -(((-d.signed : ℤ) : ℚ) * 2 ^ d.exponent) := by
      rw [Dyadic.value, Int.cast_neg, neg_mul, neg_neg]
    have habs : |-d.signed| = d.significand := (abs_neg _).trans d.abs_signed
    obtain ⟨hnear, htie⟩ := h.nearer ((abs_neg _).trans_lt hlt) hd.exponent_ge
    simp only [withSign, if_true]
    rw [hvalue, hmirror, hmirror, neg_inj]
    exact ⟨hnear, fun heq => (htie heq).imp id (And.imp_right (hodd _ habs))⟩

variable {negative : Bool} (hfinite : gridBits e r < infinityBits)
include hfinite

theorem isNearest (h : Placed q e r) :
    IsNearest negative (withSign negative q) (ofMagnitude negative (gridBits e r)) := by
  obtain ⟨hsign, hvalue, heven⟩ := h.ofBits_gridBits negative
  refine ⟨_, Dyadic.ofFloat?_ofMagnitude negative hfinite, hsign, fun y d hy => ?_⟩
  obtain ⟨hnear, htie⟩ := h.nearer_value negative (Dyadic.normal_of_ofFloat? hy)
  rw [hvalue]
  exact ⟨hnear, fun heq => (htie heq).imp id fun hodd => heven hodd.1⟩

/-- **The nearest float.** There is one nearest float with the sign of the number. -/
theorem isNearest_iff (h : Placed q e r) (x : Float) :
    IsNearest negative (withSign negative q) x ↔ x = ofMagnitude negative (gridBits e r) := by
  refine ⟨fun ⟨d, hd, hsign, hleast⟩ => ?_, fun heq => heq ▸ h.isNearest hfinite⟩
  have hgrid := Dyadic.ofFloat?_ofMagnitude negative hfinite
  obtain ⟨hgridSign, hgridValue, -⟩ := h.ofBits_gridBits negative
  have hnormal := Dyadic.normal_of_ofFloat? hd
  obtain ⟨hnear, htie⟩ := h.nearer_value negative hnormal
  obtain ⟨hnear', htie'⟩ := hleast _ _ hgrid
  rw [hgridValue] at hnear' htie'
  have hequal := le_antisymm hnear' hnear
  have hvalue : d.value = withSign negative (r * 2 ^ e) := by
    -- otherwise the significand would be odd by the one tie and even by the other
    by_contra hne
    have hodd := ((htie hequal).resolve_left hne).2
    exact Nat.not_even_iff_odd.mpr hodd ((htie' hequal.symm).resolve_left (Ne.symm hne))
  apply Dyadic.eq_of_ofFloat? hd
  rw [hgrid, hnormal.eq_of_value (Dyadic.normal_ofBits _ _) (hsign.trans hgridSign.symm)
    (hvalue.trans hgridValue.symm)]

omit hfinite in
/-- The nearest float is finite exactly if the number is in range. -/
theorem lt_infinityBits_iff (h : Placed q e r) (hq : 0 ≤ q) :
    gridBits e r < infinityBits ↔ InRange q := by
  have hunit := two_zpow_pos e
  have hscale : InRange q ↔ q / 2 ^ e < (2 ^ 54 - 1) * 2 ^ (970 - e) := by
    rw [InRange, abs_of_nonneg hq, div_lt_iff₀ hunit, mul_assoc, ← two_zpow_add, sub_add_cancel]
  rw [hscale]
  have hge := h.exponent_ge
  have hdouble := h.le_double
  have hhidden := h.hidden_le
  have hlt := h.lt
  have hle := h.hidden
  unfold gridBits infinityBits leastExponent hiddenBit at *
  rcases lt_trichotomy e 971 with hlow | rfl | hhigh
  · have hpow : (2 : ℚ) ^ (0 : ℤ) ≤ 2 ^ (970 - e) :=
      zpow_le_zpow_right₀ (by norm_num) (by omega)
    refine iff_of_true (by omega) ?_
    push_cast at hlt
    rw [zpow_zero] at hpow
    linarith
  · -- in the last binade the threshold is half a unit below the next power of two
    rw [show 2 ^ 54 - 1 = ((2 * 4503599627370496 : ℕ) - 1 / 2 : ℚ) * 2 by norm_num,
      show (2 : ℚ) ^ (970 - 971 : ℤ) = 1 / 2 by norm_num, mul_assoc,
      show (2 : ℚ) * (1 / 2) = 1 by norm_num, mul_one, ← h.rounds.lt_iff (by decide)]
    omega
  · have hpow : (2 : ℚ) ^ (970 - e) ≤ 2 ^ (-2 : ℤ) :=
      zpow_le_zpow_right₀ (by norm_num) (by omega)
    refine iff_of_false (by omega) (not_lt.mpr ?_)
    have hlarge := hle.resolve_left (by omega)
    norm_num at hpow hlarge ⊢
    linarith

end Placed

end RecordMapping.Number
