import RecordMapping.Json.Basic
import RecordMapping.Number.Literal

/-!
# Reading JSON

The strict grammar of JSON texts. Blanks are space, tab and the two line ends; nesting is limited to
127 levels; half of a surrogate pair, a raw control character in a string and a number beyond the
floats are refused.

A float takes as many of its leading digits as fit 64 bits and is that integer times or over a power
of ten, each rounded once.
-/

namespace RecordMapping.Json

open Number Text

/-- The white space of JSON. -/
def isSpace (c : Char) : Bool := c == ' ' || c == '\t' || c == '\n' || c == '\r'

/-- The text without its leading white space. -/
def skipSpace (cs : List Char) : List Char := cs.dropWhile isSpace

/-! ## Numbers -/

/-- Appends digits to a number as long as it fits 64 bits; the digits left over come second. -/
def takeDigits (n : Nat) : List Char → Nat × List Char
  | [] => (n, [])
  | c :: cs =>
    let next := 10 * n + digitValue c
    if next < UInt64.size then takeDigits next cs else (n, c :: cs)

/-- `10 ^ k` as a float. -/
def powerOfTen (k : Nat) : Float := ofDecimal false 1 k

/-- `x · 10 ^ e`, if that is finite. The powers of ten among the floats end at `10 ^ 308`, so a
smaller scale is reached in steps. -/
def scaleByTen (x : Float) (e : Int) : Option Float :=
  if 0 ≤ e then
    if e ≤ 308 then
      let y := x * powerOfTen e.toNat
      if y.isInf then none else some y
    else if x == 0 then some x else none
  else if -308 ≤ e then some (x / powerOfTen (-e).toNat)
  else if x == 0 then some x
  else scaleByTen (x / powerOfTen 308) (e + 308)
termination_by (-e).toNat
decreasing_by omega

/-- The number written with the given digits before and after the point and the given exponent, if
it is within range. -/
def number? (negative : Bool) (whole : List Char) (fraction : Option (List Char))
    (exponent : Option Int) : Option Json :=
  let (significand, dropped) := takeDigits 0 whole
  let asFloat (significand : Nat) (e : Int) : Option Json := do
    let x ← scaleByTen (ofDecimal false significand 0) e
    some (float (if negative then -x else x))
  match fraction, exponent with
  | none, none =>
    if !dropped.isEmpty then asFloat significand dropped.length
    else if !negative then some (int significand)
    else if significand == 0 || signBit < significand then asFloat significand 0
    else some (int (-significand))
  | _, _ =>
    let fraction := fraction.getD []
    let (significand, unused) := takeDigits significand fraction
    let used : Int := fraction.length - unused.length
    asFloat significand (dropped.length - used + exponent.getD 0)

/-- A nonempty run of digits. -/
def readDigits? (cs : List Char) : Option (List Char × List Char) :=
  let (digits, rest) := spanDigits cs
  if digits.isEmpty then none else some (digits, rest)

/-- An optional sign, then digits. -/
def readExponent? (cs : List Char) : Option (Int × List Char) := do
  let (negative, cs) := readSign cs
  let (digits, rest) ← readDigits? cs
  some (if negative then -ofDigits digits else ofDigits digits, rest)

/-- The digits before the point: a zero stands alone. -/
def readWhole? : List Char → Option (List Char × List Char)
  | '0' :: rest => some (['0'], rest)
  | cs => readDigits? cs

/-- A number at the front of a text. -/
def readNumber? (cs : List Char) : Option (Json × List Char) := do
  let (negative, cs) := match cs with
    | '-' :: rest => (true, rest)
    | cs => (false, cs)
  let (whole, cs) ← readWhole? cs
  let (fraction, cs) ← match cs with
    | '.' :: rest => do
      let (digits, rest) ← readDigits? rest
      pure (some digits, rest)
    | cs => pure (none, cs)
  let (exponent, cs) ← match cs with
    | 'e' :: rest | 'E' :: rest => do
      let (e, rest) ← readExponent? rest
      pure (some e, rest)
    | cs => pure (none, cs)
  some (← number? negative whole fraction exponent, cs)

/-! ## Strings -/

/-- Four hexadecimal digits. -/
def readHex4? : List Char → Option (Nat × List Char)
  | a :: b :: c :: d :: rest => do
    let high := (← hexValue? a) * 16 + (← hexValue? b)
    some (high * 256 + (← hexValue? c) * 16 + (← hexValue? d), rest)
  | _ => none

/-- The first half of a surrogate pair. -/
def isHighSurrogate (n : Nat) : Bool := 0xD800 ≤ n && n < 0xDC00

/-- The second half of a surrogate pair. -/
def isLowSurrogate (n : Nat) : Bool := 0xDC00 ≤ n && n < 0xE000

/-- The character of a `\u` escape, whose digits come next; two escapes may form one character. -/
def readUnicode? (cs : List Char) : Option (Char × List Char) := do
  let (n, cs) ← readHex4? cs
  if isHighSurrogate n then
    match cs with
    | '\\' :: 'u' :: cs =>
      let (low, cs) ← readHex4? cs
      if isLowSurrogate low then
        some (Char.ofNat (0x10000 + (n - 0xD800) * 0x400 + (low - 0xDC00)), cs)
      else none
    | _ => none
  else if isLowSurrogate n then none
  else some (Char.ofNat n, cs)

/-- The character that follows a backslash. -/
def readEscape? : List Char → Option (Char × List Char)
  | '"' :: rest => some ('"', rest)
  | '\\' :: rest => some ('\\', rest)
  | '/' :: rest => some ('/', rest)
  | 'b' :: rest => some ('\x08', rest)
  | 'f' :: rest => some ('\x0c', rest)
  | 'n' :: rest => some ('\n', rest)
  | 'r' :: rest => some ('\r', rest)
  | 't' :: rest => some ('\t', rest)
  | 'u' :: rest => readUnicode? rest
  | _ => none

/-- The characters up to the closing quote, of which `done` are read already and held in reverse.
The number bounds the characters to be read. -/
def readString? (done : List Char) : Nat → List Char → Option (String × List Char)
  | 0, _ => none
  | _ + 1, [] => none
  | n + 1, c :: cs =>
    if c == '"' then some (String.ofList done.reverse, cs)
    else if c == '\\' then do
      let (c, cs) ← readEscape? cs
      readString? (c :: done) n cs
    else if c.toNat < 0x20 then none
    else readString? (c :: done) n cs

/-! ## Values -/

/-- Reads a word after its first letter. -/
def readWord? (word : List Char) (json : Json) (cs : List Char) : Option (Json × List Char) :=
  if word.isPrefixOf cs then some (json, cs.drop word.length) else none

mutual

/-- A value at the front of a text, with at most `depth` levels of nesting inside it. -/
def readValue? : Nat → Nat → List Char → Option (Json × List Char)
  | 0, _, _ => none
  | n + 1, depth, cs =>
    match skipSpace cs with
    | '"' :: cs => do
      let (s, cs) ← readString? [] (cs.length + 1) cs
      some (str s, cs)
    | '[' :: cs =>
      match depth, skipSpace cs with
      | 0, _ => none
      | _, ']' :: cs => some (arr [], cs)
      | depth + 1, cs => do
        let (items, cs) ← readItems? n depth cs
        some (arr items, cs)
    | '\x7b' :: cs =>
      match depth, skipSpace cs with
      | 0, _ => none
      | _, '\x7d' :: cs => some (obj [], cs)
      | depth + 1, cs => do
        let (fields, cs) ← readFields? n depth [] cs
        some (obj fields, cs)
    | 't' :: cs => readWord? "rue".toList (bool true) cs
    | 'f' :: cs => readWord? "alse".toList (bool false) cs
    | 'n' :: cs => readWord? "ull".toList null cs
    | cs => readNumber? cs

/-- Items up to the closing bracket. -/
def readItems? : Nat → Nat → List Char → Option (List Json × List Char)
  | 0, _, _ => none
  | n + 1, depth, cs => do
    let (item, cs) ← readValue? n depth cs
    match skipSpace cs with
    | ',' :: cs =>
      let (items, cs) ← readItems? n depth cs
      some (item :: items, cs)
    | ']' :: cs => some ([item], cs)
    | _ => none

/-- Fields up to the closing brace, added to those already read. -/
def readFields? : Nat → Nat → List (String × Json) → List Char →
    Option (List (String × Json) × List Char)
  | 0, _, _, _ => none
  | n + 1, depth, done, cs =>
    match skipSpace cs with
    | '"' :: cs => do
      let (name, cs) ← readString? [] (cs.length + 1) cs
      match skipSpace cs with
      | ':' :: cs =>
        let (value, cs) ← readValue? n depth cs
        let done := Fields.insert name value done
        match skipSpace cs with
        | ',' :: cs => readFields? n depth done cs
        | '\x7d' :: cs => some (done, cs)
        | _ => none
      | _ => none
    | _ => none

end

/-- The value that a whole text denotes. Each step of reading uses a character or enters a value, so
twice the length bounds the steps. -/
def read? (text : String) : Option Json := do
  let cs := text.toList
  let (json, rest) ← readValue? (2 * cs.length + 2) 127 cs
  if (skipSpace rest).isEmpty then some json else none

end RecordMapping.Json
