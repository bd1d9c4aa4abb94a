import RecordMapping.Number.Literal
import RecordMapping.Proofs.Calendar.Reading
import RecordMapping.Proofs.Number.Floats

/-!
# Unsigned words as text and as floats

The digits of a number are read as that number. An unsigned word with its highest bit set lies
beyond the signed words: the float nearest to it has 11 binary zeros behind its significand, so it
is an integer, and the signed word that stands for it is the greatest one.

* `read?_toString`, `readInt64?_toString`: the digits of a number as a literal and as a word;
* `integerPart?_ofDecimal_long`: the signed word for an unsigned word beyond the signed ones.
-/

namespace RecordMapping.Number

open Text

/-! ## Digits -/

theorem toList_toString (n : Nat) : (toString n).toList = Nat.toDigits 10 n := by
  simp [Nat.toString_eq_repr]

theorem isDigit_of_mem {n : Nat} {c : Char} (h : c ∈ Nat.toDigits 10 n) : isDigit c = true :=
  Calendar.isDigit_of_core (Nat.isDigit_of_mem_toDigits (by decide) (by decide) h)

theorem spanDigits_toDigits (n : Nat) :
    spanDigits (Nat.toDigits 10 n) = (Nat.toDigits 10 n, []) := by
  have htake : (Nat.toDigits 10 n).takeWhile isDigit = Nat.toDigits 10 n := by
    rw [List.takeWhile_eq_self_iff]
    exact fun c hc => isDigit_of_mem hc
  have hdrop : (Nat.toDigits 10 n).dropWhile isDigit = [] := by
    rw [List.dropWhile_eq_nil_iff]
    exact fun c hc => isDigit_of_mem hc
  rw [spanDigits, htake, hdrop]

/-- Digits have no sign. -/
theorem readSign_toDigits (n : Nat) :
    readSign (Nat.toDigits 10 n) = (false, Nat.toDigits 10 n) := by
  cases hdigits : Nat.toDigits 10 n with
  | nil => rfl
  | cons c rest =>
    have hc : isDigit c = true := isDigit_of_mem (by rw [hdigits]; exact List.mem_cons_self)
    unfold readSign
    split
    · simp_all [isDigit]
    · simp_all [isDigit]
    · rfl

theorem readInt64?_toString (n : Nat) : readInt64? (toString n) = int64? n := by
  have hread : readInt? (Nat.toDigits 10 n) = some (n : Int) := by
    have hdigits : (Nat.toDigits 10 n).all isDigit = true := by
      rw [List.all_eq_true]
      exact fun c hc => isDigit_of_mem hc
    have hvalue : ofDigits (Nat.toDigits 10 n) = n := Nat.ofDigitChars_ten_toDigits
    unfold readInt?
    simp only [readSign_toDigits, hdigits, hvalue]
    simp [Nat.toDigits_ne_nil]
  rw [readInt64?, toList_toString, hread]
  rfl

theorem read?_toString (n : Nat) :
    Literal.read? (toString n).toList = some ⟨false, Nat.toDigits 10 n, [], 0⟩ := by
  rw [toList_toString]
  unfold Literal.read?
  simp only [readSign_toDigits, spanDigits_toDigits]
  simp [Nat.toDigits_ne_nil, readExponent?]

/-- The digits of a number are rounded as the number is. -/
theorem toFloat_digits (n : Nat) :
    (⟨false, Nat.toDigits 10 n, [], 0⟩ : Literal).toFloat = ofDecimal false n 0 := by
  have hmantissa : (⟨false, Nat.toDigits 10 n, [], 0⟩ : Literal).mantissa = n := by
    unfold Literal.mantissa
    rw [List.append_nil]
    exact Nat.ofDigitChars_ten_toDigits
  rw [Literal.toFloat, hmantissa]
  rfl

/-! ## Beyond the signed words -/

/-- The greatest signed word stands for every integer beyond the words. -/
theorem saturate_of_le {n : Int} (h : Int64.maxValue.toInt ≤ n) : saturate n = Int64.maxValue := by
  have hends : Int64.minValue.toInt ≤ Int64.maxValue.toInt := by decide
  unfold saturate
  rw [Int.min_eq_right h, Int.max_eq_right hends, Int64.ofInt_toInt]

/-- A float of at least `2 ^ 63` is an integer beyond the signed words. -/
theorem integerPart?_ofMagnitude {bits : Nat} (hlow : 1086 * hiddenBit ≤ bits)
    (h : bits < infinityBits) : integerPart? (ofMagnitude false bits) = some Int64.maxValue := by
  let d : Dyadic :=
    ⟨false, hiddenBit + bits % hiddenBit, leastExponent + (bits / hiddenBit : Nat) - 1⟩
  have hvalue : Dyadic.ofFloat? (ofMagnitude false bits) = some d := by
    have hnormal : ¬ bits < hiddenBit := by omega
    rw [Dyadic.ofFloat?_ofMagnitude false h, Dyadic.ofBits, if_neg hnormal]
  have hexponent : 11 ≤ d.exponent := by
    have hfield : 1086 ≤ bits / hiddenBit := (Nat.le_div_iff_mul_le (by decide)).mpr hlow
    show 11 ≤ leastExponent + ((bits / hiddenBit : Nat) : Int) - 1
    unfold leastExponent
    omega
  have hinteger : d.isInteger = true := by
    unfold Dyadic.isInteger
    rw [decide_eq_true (by omega), Bool.true_or]
  have htruncate : d.truncate
      = ((hiddenBit + bits % hiddenBit) * Nat.pow 2 d.exponent.toNat : Nat) := by
    unfold Dyadic.truncate
    rw [if_pos (by omega), Int.natCast_mul]
    rfl
  have hlarge : signBit ≤ (hiddenBit + bits % hiddenBit) * Nat.pow 2 d.exponent.toNat :=
    Nat.mul_le_mul (Nat.le_add_right hiddenBit _)
      (@Nat.pow_le_pow_right 2 (by decide) 11 d.exponent.toNat (by omega))
  have hword : Int64.maxValue.toInt ≤ (signBit : Int) := by decide
  unfold integerPart?
  rw [hvalue]
  show (if d.isInteger = true then some (saturate d.truncate) else none) = _
  rw [if_pos hinteger, htruncate, saturate_of_le]
  exact Int.le_trans hword (Int.ofNat_le.mpr hlarge)

section

variable {n : Nat} (hlow : signBit ≤ n) (hhigh : n < UInt64.size)
include hlow hhigh

/-- The last place of the float is worth `2 ^ 11`. -/
theorem unitExponent_long : unitExponent n 1 = 11 := by
  have hlog : n.log2 = 63 := by
    unfold signBit at hlow
    unfold UInt64.size at hhigh
    refine (Nat.log2_eq_iff (by omega)).mpr ?_
    omega
  have hwhole : ¬ n / 2048 < hiddenBit := by
    unfold signBit at hlow
    unfold hiddenBit
    omega
  unfold unitExponent
  rw [hlog]
  show max (if n / 2048 < hiddenBit then (10 : Int) else 11) leastExponent = 11
  rw [if_neg hwhole]
  rfl

/-- The quotient is a significand, unless it is rounded up to the next power of two. -/
theorem roundDiv_long : hiddenBit ≤ roundDiv n 2048 ∧ roundDiv n 2048 ≤ 2 * hiddenBit := by
  have hnear := roundDiv_near n (show 0 < 2048 by decide)
  unfold signBit at hlow
  unfold UInt64.size at hhigh
  unfold hiddenBit
  omega

theorem nearestBits_long : nearestBits n 1 = 1085 * hiddenBit + roundDiv n 2048 := by
  have hround := roundDiv_long hlow hhigh
  unfold nearestBits
  rw [unitExponent_long hlow hhigh]
  show min (1085 * hiddenBit + roundDiv n 2048) infinityBits = _
  unfold infinityBits
  omega

theorem ofDecimal_long :
    ofDecimal false n 0 = ofMagnitude false (1085 * hiddenBit + roundDiv n 2048) := by
  have hplaces : (Nat.toDigits 10 n).length ≤ 20 := by
    refine (Nat.length_toDigits_le_iff (by decide) (by decide)).mpr ?_
    unfold UInt64.size at hhigh
    omega
  have hzero : (n == 0) = false := by
    unfold signBit at hlow
    simp only [beq_eq_false_iff_ne]
    omega
  unfold ofDecimal
  dsimp only
  rw [hzero, Bool.false_or, if_neg (by rw [decide_eq_true_eq]; omega), if_neg (by omega),
    if_pos (Int.le_refl 0)]
  show ofMagnitude false (nearestBits (n * 1) 1) = _
  rw [Nat.mul_one, nearestBits_long hlow hhigh]

/-- The float nearest to an unsigned word beyond the signed ones is finite and an integer, which the
greatest signed word stands for. -/
theorem integerPart?_ofDecimal_long :
    (ofDecimal false n 0).isFinite = true
      ∧ integerPart? (ofDecimal false n 0) = some Int64.maxValue := by
  obtain ⟨hleast, hmost⟩ := roundDiv_long hlow hhigh
  have hfinite : 1085 * hiddenBit + roundDiv n 2048 < infinityBits := by
    unfold infinityBits hiddenBit at *
    omega
  rw [ofDecimal_long hlow hhigh]
  exact ⟨(isFinite_ofMagnitude_iff false hfinite.le).mpr hfinite,
    integerPart?_ofMagnitude (by omega) hfinite⟩

theorem readFinite?_toString_long :
    readFinite? (toString n) = some (ofDecimal false n 0) := by
  have hfinite := (integerPart?_ofDecimal_long hlow hhigh).1
  unfold readFinite?
  rw [read?_toString]
  show (if Float.isFinite (Literal.toFloat _) = true then some (Literal.toFloat _) else none) = _
  rw [toFloat_digits, if_pos hfinite]

end

end RecordMapping.Number
