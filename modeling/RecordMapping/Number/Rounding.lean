import RecordMapping.Number.Dyadic

/-!
# Rounding to floats

The float nearest to a ratio of natural numbers, ties going to the even significand. The ratio is
scaled so that its integer part has the 53 bits of a significand, and one division decides.
-/

namespace RecordMapping.Number

/-- The integer nearest to `num / den`; a half goes to the even neighbour. -/
def roundDiv (num den : Nat) : Nat :=
  let q := num / den
  let r := num % den
  if 2 * r < den then q else if den < 2 * r then q + 1 else q + q % 2

/-- The ratio `num / den` divided by `2 ^ e`, as numerator and denominator. -/
def scaleBinary (num den : Nat) (e : Int) : Nat × Nat :=
  if 0 ≤ e then (num, den * Nat.pow 2 e.toNat) else (num * Nat.pow 2 (-e).toNat, den)

/-- The exponent of a float's last place near `num / den`: the one that leaves 53 bits before the
binary point, and never less than that of the least float. -/
def unitExponent (num den : Nat) : Int :=
  let guess : Int := (num.log2 : Int) - den.log2 - 52
  let (n, d) := scaleBinary num den guess
  max (if n / d < hiddenBit then guess - 1 else guess) leastExponent

/-- The bits of positive infinity. -/
def infinityBits : Nat := 2047 * hiddenBit

/-- The bits of the nonnegative float nearest to `num / den`. A significand that reaches its hidden
bit carries into the exponent field, and beyond the largest float stands infinity. -/
def nearestBits (num den : Nat) : Nat :=
  let e := unitExponent num den
  let (n, d) := scaleBinary num den e
  min ((e - leastExponent).toNat * hiddenBit + roundDiv n d) infinityBits

/-- The float whose magnitude has the given bits. -/
def ofMagnitude (negative : Bool) (bits : Nat) : Float :=
  Float.ofBits (UInt64.ofNat (if negative then signBit + bits else bits))

/-- The float nearest to `± mantissa · 10 ^ exponent`. Beyond 400 places on either side of the
point the value is past the largest or the least float, whatever its digits. -/
def ofDecimal (negative : Bool) (mantissa : Nat) (exponent : Int) : Float :=
  let places : Int := (Nat.toDigits 10 mantissa).length + exponent
  ofMagnitude negative <|
    if mantissa == 0 || places < -400 then 0
    else if 400 < places then infinityBits
    else if 0 ≤ exponent then nearestBits (mantissa * Nat.pow 10 exponent.toNat) 1
    else nearestBits mantissa (Nat.pow 10 (-exponent).toNat)

/-- The rounded quotient is within half a unit of the exact one. -/
theorem roundDiv_near (num : Nat) {den : Nat} (h : 0 < den) :
    2 * num ≤ (2 * roundDiv num den + 1) * den ∧ 2 * roundDiv num den * den ≤ 2 * num + den := by
  have split : den * (num / den) + num % den = num := Nat.div_add_mod num den
  have small : num % den < den := Nat.mod_lt _ h
  have comm : den * (num / den) = num / den * den := Nat.mul_comm _ _
  simp only [roundDiv]
  generalize num / den = q at *
  generalize num % den = r at *
  have even : q % 2 = 0 ∨ q % 2 = 1 := by omega
  split
  · constructor <;> simp only [Nat.add_mul, Nat.mul_assoc] <;> omega
  · split
    · constructor <;> simp only [Nat.add_mul, Nat.mul_add, Nat.mul_assoc] <;> omega
    · rcases even with e | e <;> rw [e] <;> constructor <;>
        simp only [Nat.add_mul, Nat.mul_add, Nat.mul_assoc] <;> omega

end RecordMapping.Number
