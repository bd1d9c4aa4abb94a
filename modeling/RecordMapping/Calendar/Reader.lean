import RecordMapping.Calendar.Instant
import RecordMapping.Text.Blank
import RecordMapping.Text.Digits

/-!
# Reading dates

An instant is read from the full form with an offset, which is strict, or from one of the looser
forms without offset, whose numbers may have blanks in front and fewer digits than usual.
-/

namespace RecordMapping.Calendar

open Text

/-- A reader takes a value from the front of a text and leaves the rest. -/
abbrev Reader (α : Type) := List Char → Option (α × List Char)

/-- Exactly `count` digits. -/
def digits? (count : Nat) : Reader Nat := fun cs =>
  let digits := cs.take count
  if digits.length == count && digits.all isDigit then some (ofDigits digits, cs.drop count)
  else none

/-- The given character. -/
def char? (expected : Char) : Reader Unit
  | c :: cs => if c == expected then some ((), cs) else none
  | [] => none

/-- One of the given characters. -/
def oneOf? (expected : List Char) : Reader Char
  | c :: cs => if expected.contains c then some (c, cs) else none
  | [] => none

/-- The nanoseconds that the digits after the point denote. Digits after the ninth do not count. -/
def fraction? : Reader Nat := fun cs =>
  let (digits, rest) := spanDigits cs
  if digits.isEmpty then none
  else
    let shown := digits.take 9
    some (ofDigits shown * Nat.pow 10 (9 - shown.length), rest)

/-- A point and a fraction, or nothing. -/
def optionalFraction? : Reader Nat
  | '.' :: cs => fraction? cs
  | cs => some (0, cs)

/-! ## The full form -/

/-- The offset from UTC at the end of the full form, in minutes. -/
def offset? (cs : List Char) : Option (Int × List Char) := do
  let (mark, cs) ← oneOf? ['Z', 'z', '+', '-', '−'] cs
  if mark == 'Z' || mark == 'z' then some (0, cs)
  else
    let (hours, cs) ← digits? 2 cs
    let (_, cs) ← char? ':' cs
    let (minutes, cs) ← digits? 2 cs
    if 23 < hours || 59 < minutes then none
    else
      let offset : Int := hours * 60 + minutes
      some (if mark == '+' then offset else -offset, cs)

/-- Reads the full form (RFC 3339); the whole text is used. -/
def readFull? (cs : List Char) : Option Instant := do
  let (year, cs) ← digits? 4 cs
  let (_, cs) ← char? '-' cs
  let (month, cs) ← digits? 2 cs
  let (_, cs) ← char? '-' cs
  let (day, cs) ← digits? 2 cs
  let (_, cs) ← oneOf? ['T', 't', ' '] cs
  let (hour, cs) ← digits? 2 cs
  let (_, cs) ← char? ':' cs
  let (minute, cs) ← digits? 2 cs
  let (_, cs) ← char? ':' cs
  let (second, cs) ← digits? 2 cs
  let (nanos, cs) ← optionalFraction? cs
  let (offset, cs) ← offset? cs
  if !cs.isEmpty then none
  else
    let here ← Instant.ofCivil? year month day hour minute second nanos
    Instant.of? (here.seconds - offset * 60) here.nanos

/-! ## Loose forms -/

/-- One to `most` digits, after any blanks. -/
def number? (most : Nat) : Reader Nat := fun cs =>
  let cs := dropBlanks cs
  let digits := (cs.take most).takeWhile isDigit
  if digits.isEmpty then none else some (ofDigits digits, cs.drop digits.length)

/-- A year after any blanks: up to four digits, or any number of them behind a sign. -/
def year? : Reader Int := fun cs =>
  match dropBlanks cs with
  | '-' :: cs => signed? (-1) cs
  | '+' :: cs => signed? 1 cs
  | cs => (number? 4 cs).map fun (n, rest) => ((n : Int), rest)
where
  signed? (sign : Int) : Reader Int := fun cs =>
    let (digits, rest) := spanDigits cs
    if digits.isEmpty then none else some (sign * ofDigits digits, rest)

/-- Year, month and day, joined by hyphens. -/
def date? : Reader (Int × Nat × Nat) := fun cs => do
  let (year, cs) ← year? cs
  let (_, cs) ← char? '-' cs
  let (month, cs) ← number? 2 cs
  let (_, cs) ← char? '-' cs
  let (day, cs) ← number? 2 cs
  some ((year, month, day), cs)

/-- Hours, minutes and seconds, joined by colons. -/
def clock? : Reader (Nat × Nat × Nat) := fun cs => do
  let (hour, cs) ← number? 2 cs
  let (_, cs) ← char? ':' cs
  let (minute, cs) ← number? 2 cs
  let (_, cs) ← char? ':' cs
  let (second, cs) ← number? 2 cs
  some ((hour, minute, second), cs)

/-- A date and a time of day, divided by blanks (or nothing) or by a `T`; only the former may have a
fraction. The whole text is used. -/
def readLoose? (cs : List Char) : Option Instant := do
  let ((year, month, day), cs) ← date? cs
  let (cs, mayHaveFraction) := match cs with
    | 'T' :: cs => (cs, false)
    | cs => (dropBlanks cs, true)
  let ((hour, minute, second), cs) ← clock? cs
  let (nanos, cs) ← if mayHaveFraction then optionalFraction? cs else some (0, cs)
  if cs.isEmpty then Instant.ofCivil? year month day hour minute second nanos else none

/-- A date alone, which stands for its midnight. The whole text is used. -/
def readDate? (cs : List Char) : Option Instant := do
  let ((year, month, day), cs) ← date? cs
  if cs.isEmpty then (Date.of? year month day).bind Instant.ofDate? else none

/-- Reads an instant from a text in any of the forms, blanks at its ends aside. -/
def readInstant? (s : String) : Option Instant :=
  let cs := trimChars s.toList
  readFull? cs <|> readLoose? cs <|> readDate? cs

end RecordMapping.Calendar
