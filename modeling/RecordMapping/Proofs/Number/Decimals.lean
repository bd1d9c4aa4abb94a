import RecordMapping.Proofs.Number.Nearest

/-!
# Decimals as floats

A ratio of natural numbers is placed on the grid of the floats around it, and one division rounds it
there. So `ofDecimal` gives the float nearest to a decimal, whatever its digits and its exponent.

* `roundsTo_roundDiv`, `placed_ratio`: the division, and the unit in which it is made;
* `Rounded`: the bits to which a number is rounded, those of infinity included;
* `rounded_ofDecimal`: a decimal is rounded so, also where no digit needs to be looked at;
* `isFinite_ofDecimal_iff`, `isNearest_ofDecimal_iff`: the float nearest to a decimal.
-/

namespace RecordMapping.Number

/-! ## Rounding a ratio -/

/-- A quotient that is half a unit away from the exact one is even. -/
theorem even_roundDiv {num den : ℕ} (h : 0 < den)
    (htie : 2 * num = (2 * roundDiv num den + 1) * den
      ∨ 2 * roundDiv num den * den = 2 * num + den) : Even (roundDiv num den) := by
  have split : den * (num / den) + num % den = num := Nat.div_add_mod num den
  have small : num % den < den := Nat.mod_lt _ h
  revert htie
  unfold roundDiv
  dsimp only
  generalize num / den = q at *
  generalize num % den = r at *
  split
  · intro htie
    rcases htie with htie | htie <;> nlinarith
  · split
    · intro htie
      rcases htie with htie | htie <;> nlinarith
    · intro _
      rw [Nat.even_add]
      rcases Nat.mod_two_eq_zero_or_one q with hq | hq
      · simp [hq, Nat.even_iff]
      · simp [hq, Nat.even_iff]

theorem roundsTo_roundDiv (num : ℕ) {den : ℕ} (h : 0 < den) :
    RoundsTo (num / den : ℚ) (roundDiv num den) := by
  have hpos : (0 : ℚ) < den := by exact_mod_cast h
  have hquotient : (num / den : ℚ) * den = num := div_mul_cancel₀ _ hpos.ne'
  obtain ⟨hlow, hhigh⟩ := roundDiv_near num h
  have hlow : 2 * (num : ℚ) ≤ (2 * roundDiv num den + 1) * den := by exact_mod_cast hlow
  have hhigh : 2 * (roundDiv num den : ℚ) * den ≤ 2 * num + den := by exact_mod_cast hhigh
  generalize (num / den : ℚ) = t at hquotient
  constructor
  · rw [abs_le]
    constructor <;> refine le_of_mul_le_mul_right ?_ hpos <;> linarith
  · intro htie
    apply even_roundDiv h
    rcases (abs_eq (by norm_num)).mp htie with hhalf | hhalf
    · right
      have heq : 2 * (roundDiv num den : ℚ) * den = 2 * num + den := by
        rw [← hquotient, show (roundDiv num den : ℚ) = t + 1 / 2 by linarith]
        ring
      exact_mod_cast heq
    · left
      have heq : 2 * (num : ℚ) = (2 * roundDiv num den + 1) * den := by
        rw [← hquotient, show (roundDiv num den : ℚ) = t - 1 / 2 by linarith]
        ring
      exact_mod_cast heq

/-! ## The unit -/

/-- Scaling is division by a power of two. -/
theorem scaleBinary_spec (num : ℕ) {den : ℕ} (h : 0 < den) (e : ℤ) :
    0 < (scaleBinary num den e).2
      ∧ ((scaleBinary num den e).1 / (scaleBinary num den e).2 : ℚ) = num / den / 2 ^ e := by
  have hpow (n : ℕ) : 0 < Nat.pow 2 n := Nat.pow_pos (by decide)
  have hcast (n : ℕ) : ((Nat.pow 2 n : ℕ) : ℚ) = 2 ^ (n : ℤ) := by
    rw [Nat.pow_eq, Nat.cast_pow, zpow_natCast]
    rfl
  unfold scaleBinary
  split
  · rename_i he
    refine ⟨Nat.mul_pos h (hpow _), ?_⟩
    dsimp only
    rw [Nat.cast_mul, hcast, Int.toNat_of_nonneg he, div_div]
  · refine ⟨h, ?_⟩
    dsimp only
    rw [Nat.cast_mul, hcast, Int.toNat_of_nonneg (by omega), zpow_neg, div_div, mul_comm (den : ℚ),
      ← div_div, div_eq_mul_inv (num : ℚ)]

theorem two_zpow_log2 {n : ℕ} (h : 0 < n) :
    (2 : ℚ) ^ (n.log2 : ℤ) ≤ n ∧ (n : ℚ) < 2 ^ (n.log2 + 1 : ℤ) := by
  constructor
  · rw [zpow_natCast]
    exact_mod_cast Nat.log2_self_le h.ne'
  · rw [show (n.log2 + 1 : ℤ) = ((n.log2 + 1 : ℕ) : ℤ) by push_cast; rfl, zpow_natCast]
    exact_mod_cast Nat.lt_log2_self

section

variable {num den : ℕ} (hnum : 0 < num) (hden : 0 < den)
include hnum hden

/-- The lengths of numerator and denominator leave a choice of two units. -/
theorem guess_spec : (2 : ℚ) ^ (51 : ℤ) < num / den / 2 ^ ((num.log2 : ℤ) - den.log2 - 52)
    ∧ (num / den / 2 ^ ((num.log2 : ℤ) - den.log2 - 52) : ℚ) < 2 ^ (53 : ℤ) := by
  have hpos : (0 : ℚ) < den := by exact_mod_cast hden
  obtain ⟨hnumLow, hnumHigh⟩ := two_zpow_log2 hnum
  obtain ⟨hdenLow, hdenHigh⟩ := two_zpow_log2 hden
  have hunit := two_zpow_pos ((num.log2 : ℤ) - den.log2 - 52)
  rw [lt_div_iff₀ hunit, div_lt_iff₀ hunit, lt_div_iff₀ hpos, div_lt_iff₀ hpos, ← two_zpow_add,
    ← two_zpow_add]
  constructor
  · calc (2 : ℚ) ^ (51 + ((num.log2 : ℤ) - den.log2 - 52)) * den
        < 2 ^ (51 + ((num.log2 : ℤ) - den.log2 - 52)) * 2 ^ (den.log2 + 1 : ℤ) :=
          mul_lt_mul_of_pos_left hdenHigh (two_zpow_pos _)
      _ = 2 ^ (num.log2 : ℤ) := by rw [← two_zpow_add]; congr 1; ring
      _ ≤ num := hnumLow
  · calc (num : ℚ) < 2 ^ (num.log2 + 1 : ℤ) := hnumHigh
      _ = 2 ^ (53 + ((num.log2 : ℤ) - den.log2 - 52)) * 2 ^ (den.log2 : ℤ) := by
          rw [← two_zpow_add]; congr 1; ring
      _ ≤ 2 ^ (53 + ((num.log2 : ℤ) - den.log2 - 52)) * den :=
          mul_le_mul_of_nonneg_left hdenLow (two_zpow_pos _).le

/-- The whole units show which of the two it is. -/
theorem exists_unit : ∃ e : ℤ, unitExponent num den = max e leastExponent
    ∧ (hiddenBit : ℚ) ≤ num / den / 2 ^ e ∧ (num / den / 2 ^ e : ℚ) < (2 * hiddenBit : ℕ) := by
  obtain ⟨hlow, hhigh⟩ := guess_spec hnum hden
  unfold unitExponent
  dsimp only
  generalize (num.log2 : ℤ) - den.log2 - 52 = guess at *
  obtain ⟨hscaled, hvalue⟩ := scaleBinary_spec num hden guess
  have hscaled' : (0 : ℚ) < (scaleBinary num den guess).2 := by exact_mod_cast hscaled
  have hwhole : (scaleBinary num den guess).1 / (scaleBinary num den guess).2 < hiddenBit
      ↔ (num / den / 2 ^ guess : ℚ) < hiddenBit := by
    rw [Nat.div_lt_iff_lt_mul hscaled, ← hvalue, div_lt_iff₀ hscaled']
    exact_mod_cast Iff.rfl
  refine ⟨_, rfl, ?_⟩
  split
  · rename_i hlt
    have hlt := hwhole.mp hlt
    have hnext : (num / den / 2 ^ (guess - 1) : ℚ) = num / den / 2 ^ guess * 2 := by
      rw [zpow_sub_one₀ (by norm_num)]
      field_simp
    have hhalf : (hiddenBit : ℚ) = 2 ^ (51 : ℤ) * 2 := by norm_num [hiddenBit]
    have htwice : ((2 * hiddenBit : ℕ) : ℚ) = hiddenBit * 2 := by push_cast; ring
    rw [hnext, htwice]
    exact ⟨by rw [hhalf]; linarith, by linarith⟩
  · rename_i hge
    have hdouble : ((2 * hiddenBit : ℕ) : ℚ) = 2 ^ (53 : ℤ) := by norm_num [hiddenBit]
    rw [hdouble]
    exact ⟨not_lt.mp fun hlt => hge (hwhole.mpr hlt), hhigh⟩

theorem placed_ratio : Placed (num / den) (unitExponent num den)
    (roundDiv (scaleBinary num den (unitExponent num den)).1
      (scaleBinary num den (unitExponent num den)).2) := by
  obtain ⟨hscaled, hvalue⟩ := scaleBinary_spec num hden (unitExponent num den)
  obtain ⟨e, he, hlow, hhigh⟩ := exists_unit hnum hden
  have hrounds := hvalue ▸ roundsTo_roundDiv _ hscaled
  have hmax : leastExponent ≤ unitExponent num den ∧ e ≤ unitExponent num den := by
    rw [he]
    exact ⟨le_max_right _ _, le_max_left _ _⟩
  refine ⟨hmax.1, ?_, ?_, hrounds⟩
  · have hpos : (0 : ℚ) ≤ num / den := by positivity
    have hpow : (2 : ℚ) ^ e ≤ 2 ^ unitExponent num den :=
      zpow_le_zpow_right₀ (by norm_num) hmax.2
    exact (div_le_div_of_nonneg_left hpos (two_zpow_pos e) hpow).trans_lt hhigh
  · rcases max_choice e leastExponent with hmax | hmax
    · right
      rw [he, hmax]
      exact hlow
    · left
      rw [he, hmax]

end

/-! ## The nearest float -/

/-- The bits to which a number is rounded: those of infinity, if it is not in range. -/
inductive Rounded (q : ℚ) : ℕ → Prop
  | finite {e : ℤ} {r : ℕ} (h : Placed q e r) (hfinite : gridBits e r < infinityBits)
    (hrange : InRange q) : Rounded q (gridBits e r)
  | infinite (hrange : ¬ InRange q) : Rounded q infinityBits

namespace Rounded

variable {q : ℚ} {bits : ℕ}

theorem of_placed {e : ℤ} {r : ℕ} (h : Placed q e r) (hq : 0 ≤ q) :
    Rounded q (min (gridBits e r) infinityBits) := by
  have hiff := h.lt_infinityBits_iff hq
  by_cases hfinite : gridBits e r < infinityBits
  · rw [min_eq_left hfinite.le]
    exact .finite h hfinite (hiff.mp hfinite)
  · rw [min_eq_right (not_lt.mp hfinite)]
    exact .infinite fun hrange => hfinite (hiff.mpr hrange)

theorem isFinite_iff (h : Rounded q bits) (negative : Bool) :
    (ofMagnitude negative bits).isFinite = true ↔ InRange q := by
  cases h with
  | finite _ hfinite hrange =>
    exact iff_of_true ((isFinite_ofMagnitude_iff negative hfinite.le).mpr hfinite) hrange
  | infinite hrange =>
    refine iff_of_false (fun hfinite => ?_) hrange
    exact lt_irrefl _ ((isFinite_ofMagnitude_iff negative le_rfl).mp hfinite)

theorem isNearest_iff (h : Rounded q bits) (hrange : InRange q) (negative : Bool) (x : Float) :
    IsNearest negative (withSign negative q) x ↔ x = ofMagnitude negative bits := by
  cases h with
  | finite h hfinite _ => exact h.isNearest_iff hfinite x
  | infinite hrange' => exact absurd hrange hrange'

end Rounded

theorem rounded_nearestBits {num den : ℕ} (hnum : 0 < num) (hden : 0 < den) :
    Rounded (num / den) (nearestBits num den) :=
  .of_placed (placed_ratio hnum hden) (by positivity)

/-- What lies below half of the least float is rounded to zero. -/
theorem rounded_zero {q : ℚ} (hq : 0 ≤ q) (hsmall : q < 2 ^ (-1075 : ℤ)) : Rounded q 0 := by
  have hunits : q / 2 ^ leastExponent < 1 / 2 := by
    rw [div_lt_iff₀ (two_zpow_pos _)]
    refine hsmall.trans_le (le_of_eq ?_)
    rw [show (-1075 : ℤ) = -1 + leastExponent by decide, two_zpow_add]
    norm_num
  have hpos : 0 ≤ q / 2 ^ leastExponent := div_nonneg hq (two_zpow_pos _).le
  have habs : |((0 : ℕ) : ℚ) - q / 2 ^ leastExponent| = q / 2 ^ leastExponent := by
    rw [Nat.cast_zero, zero_sub, abs_neg, abs_of_nonneg hpos]
  have hplaced : Placed q leastExponent 0 :=
    ⟨le_rfl, by norm_num [hiddenBit]; linarith, .inl rfl,
      ⟨habs.trans_le hunits.le, fun htie => absurd (habs.symm.trans htie) hunits.ne⟩⟩
  exact Rounded.of_placed hplaced hq

/-- What has more than 400 places in front of the point is not in range. -/
theorem rounded_infinityBits {q : ℚ} (hlarge : (10 : ℚ) ^ (400 : ℤ) ≤ q) :
    Rounded q infinityBits := by
  refine .infinite (not_lt.mpr ?_)
  calc ((2 : ℚ) ^ 54 - 1) * 2 ^ (970 : ℤ) ≤ 2 ^ (54 : ℤ) * 2 ^ (970 : ℤ) :=
        mul_le_mul_of_nonneg_right (by norm_num) (two_zpow_pos _).le
    _ ≤ 2 ^ (3 * 400 : ℤ) := by
        rw [← two_zpow_add]
        exact zpow_le_zpow_right₀ (by norm_num) (by norm_num)
    _ = 8 ^ (400 : ℤ) := by
        rw [zpow_mul]
        norm_num only
    _ ≤ 10 ^ (400 : ℤ) := zpow_le_zpow_left₀ (by norm_num) (by norm_num) (by norm_num)
    _ ≤ |q| := hlarge.trans (le_abs_self q)

/-- A number lies between two powers of ten, by the count of its digits. -/
theorem ten_zpow_digits {m : ℕ} (h : 0 < m) :
    (10 : ℚ) ^ ((Nat.toDigits 10 m).length - 1 : ℤ) ≤ m
      ∧ (m : ℚ) < 10 ^ ((Nat.toDigits 10 m).length : ℤ) := by
  have hlength : 0 < (Nat.toDigits 10 m).length :=
    List.length_pos_iff.mpr Nat.toDigits_ne_nil
  constructor
  · obtain ⟨n, hn⟩ := Nat.exists_eq_succ_of_ne_zero hlength.ne'
    have hlow : 10 ^ n ≤ m := by
      by_contra hlt
      rcases Nat.eq_zero_or_pos n with rfl | hpos
      · exact hlt h
      · have hle := (Nat.length_toDigits_le_iff (by decide) hpos).mpr (not_le.mp hlt)
        omega
    rw [hn, show ((n.succ : ℕ) - 1 : ℤ) = n by push_cast; ring, zpow_natCast]
    exact_mod_cast hlow
  · rw [zpow_natCast]
    exact_mod_cast (Nat.length_toDigits_le_iff (by decide) hlength).mp le_rfl

/-- A decimal is rounded to the bits of which its float is made. -/
theorem rounded_ofDecimal (negative : Bool) (m : ℕ) (k : ℤ) : ∃ bits,
    ofDecimal negative m k = ofMagnitude negative bits ∧ Rounded (m * 10 ^ k) bits := by
  refine ⟨_, rfl, ?_⟩
  have hten (n : ℤ) : (0 : ℚ) < 10 ^ n := zpow_pos (by norm_num) n
  have hcast (n : ℕ) : ((Nat.pow 10 n : ℕ) : ℚ) = 10 ^ (n : ℤ) := by
    rw [Nat.pow_eq, Nat.cast_pow, zpow_natCast]
    rfl
  have hsplit (a b : ℤ) : (10 : ℚ) ^ (a + b) = 10 ^ a * 10 ^ b := zpow_add₀ (by norm_num) a b
  rcases Nat.eq_zero_or_pos m with rfl | hm
  · rw [if_pos (by simp)]
    simpa using rounded_zero (le_refl (0 : ℚ)) (two_zpow_pos _)
  obtain ⟨hlow, hhigh⟩ := ten_zpow_digits hm
  have hzero : (m == 0) = false := by simpa using hm.ne'
  rw [hzero, Bool.false_or]
  generalize ((Nat.toDigits 10 m).length : ℤ) = length at *
  split
  · -- the first digit stands more than 400 places behind the point
    rename_i hplaces
    have hplaces : length + k ≤ -401 := by
      have hlt := of_decide_eq_true hplaces
      omega
    refine rounded_zero (by positivity) ?_
    calc (m : ℚ) * 10 ^ k < 10 ^ length * 10 ^ k := mul_lt_mul_of_pos_right hhigh (hten k)
      _ ≤ 10 ^ (-401 : ℤ) := by
          rw [← hsplit]
          exact zpow_le_zpow_right₀ (by norm_num) hplaces
      _ ≤ 8 ^ (-401 : ℤ) := by
          rw [zpow_neg, zpow_neg]
          refine inv_anti₀ (by positivity) ?_
          exact zpow_le_zpow_left₀ (by norm_num) (by norm_num) (by norm_num)
      _ = 2 ^ (3 * -401 : ℤ) := by
          rw [zpow_mul]
          norm_num only
      _ ≤ 2 ^ (-1075 : ℤ) := zpow_le_zpow_right₀ (by norm_num) (by norm_num)
  split
  · rename_i hplaces
    apply rounded_infinityBits
    calc (10 : ℚ) ^ (400 : ℤ) ≤ 10 ^ (length - 1 + k) :=
          zpow_le_zpow_right₀ (by norm_num) (by omega)
      _ = 10 ^ (length - 1) * 10 ^ k := hsplit _ _
      _ ≤ m * 10 ^ k := mul_le_mul_of_nonneg_right hlow (hten k).le
  split
  · rename_i hk
    have hratio : (m : ℚ) * 10 ^ k = (m * Nat.pow 10 k.toNat : ℕ) / (1 : ℕ) := by
      rw [Nat.cast_mul, hcast, Int.toNat_of_nonneg hk, Nat.cast_one, div_one]
    rw [hratio]
    exact rounded_nearestBits (Nat.mul_pos hm (Nat.pow_pos (by decide))) Nat.one_pos
  · have hratio : (m : ℚ) * 10 ^ k = m / (Nat.pow 10 (-k).toNat : ℕ) := by
      rw [hcast, Int.toNat_of_nonneg (by omega), zpow_neg, div_inv_eq_mul]
    rw [hratio]
    exact rounded_nearestBits hm (Nat.pow_pos (by decide))

/-- A decimal has a finite float exactly if it is in range. -/
theorem isFinite_ofDecimal_iff (negative : Bool) (m : ℕ) (k : ℤ) :
    (ofDecimal negative m k).isFinite = true ↔ InRange (m * 10 ^ k) := by
  obtain ⟨bits, hbits, hrounded⟩ := rounded_ofDecimal negative m k
  rw [hbits, hrounded.isFinite_iff]

/-- **The float of a decimal** is the nearest one that has its sign. -/
theorem isNearest_ofDecimal_iff {negative : Bool} {m : ℕ} {k : ℤ} (h : InRange (m * 10 ^ k))
    (x : Float) : IsNearest negative (withSign negative (m * 10 ^ k)) x
      ↔ x = ofDecimal negative m k := by
  obtain ⟨bits, hbits, hrounded⟩ := rounded_ofDecimal negative m k
  rw [hbits, hrounded.isNearest_iff h]

end RecordMapping.Number
