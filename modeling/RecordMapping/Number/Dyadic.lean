/-!
# Exact values of floats

A finite 64-bit float is a binary fraction `± significand · 2 ^ exponent`. The questions that have
an exact answer (is it an integer, which integers lie around it) are asked of the fraction, in exact
arithmetic.
-/

namespace RecordMapping.Number

/-- The binary fraction `± significand · 2 ^ exponent`. -/
structure Dyadic where
  negative : Bool
  significand : Nat
  exponent : Int
deriving DecidableEq, Repr

/-- The exponent of the least positive float, `2 ^ -1074`. -/
def leastExponent : Int := -1074

/-- The bit of a significand that the bits of a float leave out, `2 ^ 52`. -/
def hiddenBit : Nat := 4503599627370496

/-- The bit of a float that makes it negative, `2 ^ 63`. -/
def signBit : Nat := 9223372036854775808

namespace Dyadic

/-- The exact value of a finite float; an infinity or NaN has none. -/
def ofFloat? (x : Float) : Option Dyadic :=
  let bits : Nat := x.toBits.toNat
  let negative : Bool := bits / signBit == 1
  let field : Nat := bits / hiddenBit % 2048
  let fraction : Nat := bits % hiddenBit
  if field == 2047 then none
  else if field == 0 then some ⟨negative, fraction, leastExponent⟩
  else some ⟨negative, hiddenBit + fraction, leastExponent + (field : Int) - 1⟩

/-- The significand with the sign of the fraction. -/
def signed (d : Dyadic) : Int := if d.negative then -d.significand else d.significand

/-- The greatest integer that is not above the fraction. -/
def floor (d : Dyadic) : Int :=
  if 0 ≤ d.exponent then d.signed * (Nat.pow 2 d.exponent.toNat : Nat)
  else d.signed.fdiv (Nat.pow 2 (-d.exponent).toNat : Nat)

/-- The integer part, cut toward zero. -/
def truncate (d : Dyadic) : Int :=
  if 0 ≤ d.exponent then d.signed * (Nat.pow 2 d.exponent.toNat : Nat)
  else d.signed.tdiv (Nat.pow 2 (-d.exponent).toNat : Nat)

/-- Nothing stands behind the binary point. -/
def isInteger (d : Dyadic) : Bool :=
  0 ≤ d.exponent || d.significand % Nat.pow 2 (-d.exponent).toNat == 0

end Dyadic

/-- The integers that a 64-bit signed word holds. -/
def fitsInt64 (n : Int) : Bool := Int64.minValue.toInt ≤ n && n ≤ Int64.maxValue.toInt

/-- The 64-bit word that holds an integer, if one does. -/
def int64? (n : Int) : Option Int64 := if fitsInt64 n then some (Int64.ofInt n) else none

/-- The nearest 64-bit word to an integer. -/
def saturate (n : Int) : Int64 :=
  Int64.ofInt (max Int64.minValue.toInt (min n Int64.maxValue.toInt))

/-- The word for a float without fraction, the ends of the range standing in for what lies beyond.
A float with a fraction, an infinity or NaN has none. -/
def integerPart? (x : Float) : Option Int64 := do
  let d ← Dyadic.ofFloat? x
  if d.isInteger then some (saturate d.truncate) else none

theorem toInt_of_int64? {n : Int} {w : Int64} (h : int64? n = some w) : w.toInt = n := by
  simp only [int64?, fitsInt64, Bool.and_eq_true, decide_eq_true_eq, Option.ite_none_right_eq_some,
    Option.some.injEq] at h
  obtain ⟨⟨lo, hi⟩, rfl⟩ := h
  exact Int64.toInt_ofInt_of_le lo (Int.lt_of_le_sub_one hi)

theorem int64?_toInt (w : Int64) : int64? w.toInt = some w := by
  have lo : Int64.minValue.toInt ≤ w.toInt := w.le_toInt
  have hi : w.toInt ≤ Int64.maxValue.toInt := Int.le_sub_one_of_lt w.toInt_lt
  simp only [int64?, fitsInt64, Bool.and_eq_true, decide_eq_true_eq, lo, hi, and_self, if_true,
    Int64.ofInt_toInt]

end RecordMapping.Number
