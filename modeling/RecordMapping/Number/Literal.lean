import RecordMapping.Text.Digits
import RecordMapping.Number.Rounding

/-!
# Decimal literals

The texts that denote a number: an optional sign, digits with at most one point among them and at
least one digit, and an optional exponent. Signed digits alone denote an integer.
-/

namespace RecordMapping.Number

open Text

/-- A decimal literal, taken apart. -/
structure Literal where
  negative : Bool
  whole : List Char
  fraction : List Char
  exponent : Int
deriving DecidableEq, Repr

/-- A leading sign, and whether it is a minus. -/
def readSign : List Char → Bool × List Char
  | '-' :: rest => (true, rest)
  | '+' :: rest => (false, rest)
  | rest => (false, rest)

/-- The integer that signed digits denote; the whole text is used. -/
def readInt? (cs : List Char) : Option Int :=
  let (negative, digits) := readSign cs
  if digits.isEmpty || !digits.all isDigit then none
  else some (if negative then -ofDigits digits else ofDigits digits)

/-- The 64-bit integer that signed digits denote. -/
def readInt64? (s : String) : Option Int64 := readInt? s.toList >>= int64?

/-- The exponent at the end of a literal: nothing, or `e` and signed digits. -/
def readExponent? : List Char → Option Int
  | [] => some 0
  | c :: rest => if c == 'e' || c == 'E' then readInt? rest else none

namespace Literal

/-- Takes a literal apart; the whole text is used. -/
def read? (cs : List Char) : Option Literal := do
  let (negative, body) := readSign cs
  let (whole, rest) := spanDigits body
  let (fraction, rest) := match rest with
    | '.' :: rest => spanDigits rest
    | rest => ([], rest)
  if whole.isEmpty && fraction.isEmpty then none
  else some ⟨negative, whole, fraction, ← readExponent? rest⟩

/-- All digits of the literal, as one number. -/
def mantissa (l : Literal) : Nat := ofDigits (l.whole ++ l.fraction)

/-- The power of ten by which `mantissa` is scaled. -/
def scale (l : Literal) : Int := l.exponent - l.fraction.length

/-- The float nearest to what the literal denotes. -/
def toFloat (l : Literal) : Float := ofDecimal l.negative l.mantissa l.scale

end Literal

/-- The float nearest to what a text denotes, if that is within the range of floats. -/
def readFinite? (s : String) : Option Float := do
  let x := (← Literal.read? s.toList).toFloat
  if x.isFinite then some x else none

end RecordMapping.Number
