import Mathlib
import RecordMapping.Number.Rounding

/-!
# Floats and their bits

A float is made of the bits of a magnitude and a sign. Below those of an infinity, the magnitude has
an exact value, and no two floats have the same value and the same sign.

* `toBits_ofMagnitude`, `isFinite_ofMagnitude_iff`: the float that has given bits;
* `ofFloat?_ofMagnitude`: its exact value;
* `Dyadic.Normal`, `normal_of_ofFloat?`: the significand of a float has its hidden bit, unless the
  exponent is the least one;
* `eq_of_ofFloat?`: a float is known by its exact value.
-/

namespace RecordMapping.Number

open Float.Model UnpackedFloat

/-! ## The bits of a float -/

/-- The bits of a magnitude with a sign in front of them. -/
def signedBits (negative : Bool) (bits : Nat) : Nat := if negative then signBit + bits else bits

theorem signedBits_lt {bits : Nat} (negative : Bool) (h : bits ≤ infinityBits) :
    signedBits negative bits < 18446744073709551616 := by
  unfold infinityBits hiddenBit at h
  unfold signedBits signBit
  split <;> omega

/-- The sign and the magnitude are found again. -/
theorem signedBits_parts {bits : Nat} (negative : Bool) (h : bits ≤ infinityBits) :
    (signedBits negative bits / signBit == 1) = negative
      ∧ signedBits negative bits / hiddenBit % 2048 = bits / hiddenBit
      ∧ signedBits negative bits % hiddenBit = bits % hiddenBit := by
  unfold infinityBits hiddenBit at h
  unfold signedBits signBit hiddenBit
  cases negative
  · rw [if_neg Bool.false_ne_true, beq_eq_false_iff_ne]
    omega
  · rw [if_pos rfl, beq_iff_eq]
    omega

theorem toNat_signedBits {bits : Nat} (negative : Bool) (h : bits ≤ infinityBits) :
    (UInt64.ofNat (signedBits negative bits)).toNat = signedBits negative bits :=
  UInt64.toNat_ofNat_of_lt' (signedBits_lt negative h)

/-- Only in infinities and NaN all bits of the exponent are set. -/
theorem unpackExponent_ne {w : UInt64} (h : w.toNat / hiddenBit % 2048 ≠ 2047) :
    @unpackExponent Format.binary64 w.toBitVec ≠ -1#11 := by
  intro hall
  have hnat := congrArg BitVec.toNat hall
  rw [unpackExponent_def, BitVec.extractLsb'_toNat, Nat.shiftRight_eq_div_pow] at hnat
  exact h hnat

/-- A float is made of the bits that it was given, unless they are those of a NaN. -/
theorem toBits_ofBits {w : UInt64} (h : w.toNat / hiddenBit % 2048 ≠ 2047) :
    (Float.ofBits w).toBits = w := by
  have hnan : @isNaNBits Format.binary64 w.toBitVec = false := by
    rw [isNaNBits, decide_eq_false_iff_not]
    exact fun hall => unpackExponent_ne h hall.1
  apply UInt64.toBitVec_inj.mp
  show UnpackedFloat.pack Format.binary64 (UnpackedFloat.unpack Format.binary64 w.toBitVec) = _
  rw [pack_unpack, hnan]
  rfl

theorem isFinite_ofBits {w : UInt64} (h : w.toNat / hiddenBit % 2048 ≠ 2047) :
    (Float.ofBits w).isFinite = true := by
  show (UnpackedFloat.unpack Format.binary64 (Float.ofBits w).toBits.toBitVec).isFinite = true
  rw [toBits_ofBits h]
  unfold UnpackedFloat.unpack
  dsimp only
  rw [if_neg (unpackExponent_ne h)]
  split
  · split <;> rfl
  · rfl

section

variable (negative : Bool) {bits : Nat}

theorem field_ne_of_lt (h : bits < infinityBits) :
    (UInt64.ofNat (signedBits negative bits)).toNat / hiddenBit % 2048 ≠ 2047 := by
  rw [toNat_signedBits negative h.le, (signedBits_parts negative h.le).2.1]
  unfold infinityBits hiddenBit at *
  omega

theorem toBits_ofMagnitude (h : bits < infinityBits) :
    (ofMagnitude negative bits).toBits.toNat = signedBits negative bits := by
  show (Float.ofBits (UInt64.ofNat (signedBits negative bits))).toBits.toNat = _
  rw [toBits_ofBits (field_ne_of_lt negative h), toNat_signedBits negative h.le]

/-- The floats below an infinity are the finite ones. -/
theorem isFinite_ofMagnitude_iff (h : bits ≤ infinityBits) :
    (ofMagnitude negative bits).isFinite = true ↔ bits < infinityBits := by
  refine ⟨fun hfinite => lt_of_le_of_ne h ?_, fun hlt =>
    isFinite_ofBits (field_ne_of_lt negative hlt)⟩
  rintro rfl
  have hinfinite : ∀ negative, (ofMagnitude negative infinityBits).isFinite = false := by
    decide +kernel
  exact Bool.false_ne_true ((hinfinite negative).symm.trans hfinite)

end

/-! ## Exact values -/

namespace Dyadic

/-- The exact value of the float that has given bits below those of infinity. -/
def ofBits (negative : Bool) (bits : Nat) : Dyadic :=
  if bits < hiddenBit then ⟨negative, bits, leastExponent⟩
  else ⟨negative, hiddenBit + bits % hiddenBit, leastExponent + (bits / hiddenBit : Nat) - 1⟩

theorem ofFloat?_ofMagnitude (negative : Bool) {bits : Nat} (h : bits < infinityBits) :
    ofFloat? (ofMagnitude negative bits) = some (ofBits negative bits) := by
  obtain ⟨hsign, hfield, hfraction⟩ := signedBits_parts negative h.le
  have hfinite : (bits / hiddenBit == 2047) = false := by
    rw [beq_eq_false_iff_ne]
    exact (Nat.div_lt_of_lt_mul (Nat.mul_comm 2047 _ ▸ h)).ne
  unfold ofFloat?
  rw [toBits_ofMagnitude negative h]
  simp only [hsign, hfield, hfraction, hfinite, Bool.false_eq_true, if_false]
  unfold ofBits
  by_cases hlt : bits < hiddenBit
  · rw [if_pos hlt, Nat.div_eq_of_lt hlt, Nat.mod_eq_of_lt hlt]
    rfl
  · have hpos : bits / hiddenBit ≠ 0 := (Nat.div_pos (not_lt.mp hlt) (by decide)).ne'
    rw [if_neg hlt, if_neg (by simpa using hpos)]

/-- Every float that has an exact value is made of such bits. -/
theorem exists_bits_of_ofFloat? {x : Float} {d : Dyadic} (h : ofFloat? x = some d) :
    ∃ negative bits, bits < infinityBits ∧ x = ofMagnitude negative bits := by
  have hfield : x.toBits.toNat / hiddenBit % 2048 ≠ 2047 := by
    intro hall
    unfold ofFloat? at h
    simp only [hall] at h
    cases h
  have hlt : x.toBits.toNat < 18446744073709551616 := x.toBits.toNat_lt
  have hbits : x.toBits.toNat % signBit < infinityBits := by
    unfold infinityBits hiddenBit signBit at *
    omega
  obtain ⟨negative, hsigned⟩ :
      ∃ negative, signedBits negative (x.toBits.toNat % signBit) = x.toBits.toNat := by
    by_cases hsign : signBit ≤ x.toBits.toNat
    · refine ⟨true, ?_⟩
      rw [signedBits, if_pos rfl]
      unfold signBit at *
      omega
    · exact ⟨false, Nat.mod_eq_of_lt (not_le.mp hsign)⟩
  refine ⟨negative, x.toBits.toNat % signBit, hbits, ?_⟩
  have hword : x.toBits = (ofMagnitude negative (x.toBits.toNat % signBit)).toBits := by
    apply UInt64.toNat_inj.mp
    rw [toBits_ofMagnitude negative hbits, hsigned]
  generalize ofMagnitude negative (x.toBits.toNat % signBit) = y at hword
  obtain ⟨⟨_, _⟩⟩ := x
  obtain ⟨⟨_, _⟩⟩ := y
  cases hword
  rfl

/-- The fractions that floats are. The significand has its hidden bit, unless the exponent is the
least one. -/
structure Normal (d : Dyadic) : Prop where
  significand_lt : d.significand < 2 * hiddenBit
  exponent_ge : leastExponent ≤ d.exponent
  hidden : hiddenBit ≤ d.significand ∨ d.exponent = leastExponent

theorem normal_ofBits (negative : Bool) (bits : Nat) : (ofBits negative bits).Normal := by
  have hfraction : bits % hiddenBit < hiddenBit := Nat.mod_lt _ (by decide)
  unfold ofBits
  split
  · exact ⟨by dsimp only; omega, le_rfl, .inr rfl⟩
  · rename_i hbits
    have hfield : 1 ≤ bits / hiddenBit := Nat.div_pos (not_lt.mp hbits) (by decide)
    exact ⟨by dsimp only; omega, by dsimp only; omega, .inl (Nat.le_add_right _ _)⟩

theorem normal_of_ofFloat? {x : Float} {d : Dyadic} (h : ofFloat? x = some d) : d.Normal := by
  obtain ⟨negative, bits, hbits, rfl⟩ := exists_bits_of_ofFloat? h
  rw [ofFloat?_ofMagnitude negative hbits] at h
  exact Option.some.inj h ▸ normal_ofBits negative bits

/-- Bits are known by the exact value. -/
theorem ofBits_inj {negative negative' : Bool} {bits bits' : Nat}
    (h : ofBits negative bits = ofBits negative' bits') :
    negative = negative' ∧ bits = bits' := by
  unfold ofBits at h
  split at h <;> split at h <;> simp only [Dyadic.mk.injEq] at h <;>
    unfold hiddenBit at * <;> refine ⟨h.1, ?_⟩ <;> omega

/-- A float is known by its exact value and its sign. -/
theorem eq_of_ofFloat? {x y : Float} {d : Dyadic} (hx : ofFloat? x = some d)
    (hy : ofFloat? y = some d) : x = y := by
  obtain ⟨negative, bits, hbits, rfl⟩ := exists_bits_of_ofFloat? hx
  obtain ⟨negative', bits', hbits', rfl⟩ := exists_bits_of_ofFloat? hy
  rw [ofFloat?_ofMagnitude _ hbits] at hx
  rw [ofFloat?_ofMagnitude _ hbits'] at hy
  obtain ⟨rfl, rfl⟩ := ofBits_inj (Option.some.inj (hx.trans hy.symm))
  rfl

end Dyadic

end RecordMapping.Number
