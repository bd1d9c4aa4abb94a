import RecordMapping.Number.Dyadic

/-!
# Shortest decimals

The decimal with the fewest digits that is nearer to a given float than to any other, and the two
ways in which such a decimal is written out.

The numbers that round to a float fill an interval around it, whose ends belong to it when the
float's significand is even. On a grid of decimals with a given number of digits only the float's
two neighbours can be candidates, so the grids are tried from the coarsest on.
-/

namespace RecordMapping.Number

/-- The decimal `d₀.d₁d₂… · 10 ^ exponent`, without zeros at the end. -/
structure Decimal where
  digits : List Char
  exponent : Int
deriving DecidableEq, Repr

namespace Decimal

/-- The decimal `n · 10 ^ e`. -/
def ofNat (n : Nat) (e : Int) : Decimal :=
  let digits := Nat.toDigits 10 n
  ⟨(digits.reverse.dropWhile (· == '0')).reverse, e + digits.length - 1⟩

end Decimal

/-- `b ^ e` for a nonnegative exponent, and one otherwise. -/
def powOrOne (b : Nat) (e : Int) : Nat := if 0 ≤ e then Nat.pow b e.toNat else 1

/-- The exponent of the leading decimal digit of `m · 2 ^ q`, for `m` positive. The value is moved
by 400 places so that its integer part shows the digit. -/
def leadingExponent (m : Nat) (q : Int) : Int :=
  let moved := m * powOrOne 2 q * Nat.pow 10 400 / powOrOne 2 (-q)
  (Nat.toDigits 10 moved).length - 401

/-- The multiple of `10 ^ g` nearest to `m · 2 ^ q` among those that round to it. Lengths
are counted in quarters of the last place; below a power of two the next float is only half
as far away. -/
def gridHit? (m : Nat) (q : Int) (g : Int) : Option Nat :=
  let unit := powOrOne 2 (q - 2) * powOrOne 10 (-g)
  let grid := powOrOne 2 (2 - q) * powOrOne 10 g
  let value := 4 * m * unit
  let low := (if m == hiddenBit && leastExponent < q then 4 * m - 1 else 4 * m - 2) * unit
  let high := (4 * m + 2) * unit
  let inside (c : Nat) : Bool :=
    if m % 2 == 0 then low ≤ c * grid && c * grid ≤ high else low < c * grid && c * grid < high
  let below := value / grid
  let above := below + 1
  match inside below, inside above with
  | true, false => some below
  | false, true => some above
  | false, false => none
  | true, true =>
    let twice := 2 * value
    let middle := (below + above) * grid
    if twice < middle || (twice == middle && below % 2 == 0) then some below else some above

/-- The shortest decimal for `m · 2 ^ q`, for `m` positive. -/
def shortest (m : Nat) (q : Int) : Decimal :=
  let top := leadingExponent m q
  let attempt (i : Nat) : Option Decimal :=
    (gridHit? m q (top - i)).map fun c => Decimal.ofNat c (top - i)
  ((List.range 17).findSome? attempt).getD (Decimal.ofNat m q)

namespace Decimal

/-- `count` zeros. -/
def zeros (count : Nat) : List Char := List.replicate count '0'

/-- Digits around a point, with at least one on each side. -/
def positional (d : Decimal) : List Char :=
  if d.exponent < 0 then '0' :: '.' :: zeros (-d.exponent - 1).toNat ++ d.digits
  else
    let before := d.exponent.toNat + 1
    let whole := d.digits.take before ++ zeros (before - d.digits.length)
    let fraction := d.digits.drop before
    whole ++ '.' :: (if fraction.isEmpty then ['0'] else fraction)

/-- One digit, the others behind a point if there are any, and a signed exponent. -/
def scientific (d : Decimal) : List Char :=
  let mantissa := match d.digits with
    | first :: second :: rest => first :: '.' :: second :: rest
    | digits => digits
  mantissa ++ 'e' :: (if d.exponent < 0 then '-' else '+') :: Nat.toDigits 10 d.exponent.natAbs

end Decimal

/-- The text of a finite float, its magnitude written by `layout`; zero has a digit on each side of
the point, and a negative zero its sign. Infinities and NaN have no text. -/
def floatText? (layout : Decimal → List Char) (x : Float) : Option String := do
  let d ← Dyadic.ofFloat? x
  let magnitude := if d.significand == 0 then ['0', '.', '0']
    else layout (shortest d.significand d.exponent)
  some (String.ofList (if d.negative then '-' :: magnitude else magnitude))

end RecordMapping.Number
