import RecordMapping.Json.Basic
import RecordMapping.Number.Shortest
import RecordMapping.Text.Digits

/-!
# Writing JSON

The canonical text of a JSON value: no blanks, the fields of an object in the order of their names,
and in strings only the quote, the backslash and control characters escaped.
-/

namespace RecordMapping.Json

open Number Text

/-- A float is written positionally from `0.00001` up to sixteen digits before the point, and with
an exponent beyond. -/
def floatLayout (d : Decimal) : List Char :=
  if -5 ≤ d.exponent && d.exponent < 16 then d.positional else d.scientific

/-- The text of a float; JSON has none for infinities and NaN and says `null`. -/
def floatText (x : Float) : String := (floatText? floatLayout x).getD "null"

/-- One character of a string. -/
def escapeChar (c : Char) : List Char :=
  if c == '"' then ['\\', '"']
  else if c == '\\' then ['\\', '\\']
  else if c == '\n' then ['\\', 'n']
  else if c == '\r' then ['\\', 'r']
  else if c == '\t' then ['\\', 't']
  else if c == '\x08' then ['\\', 'b']
  else if c == '\x0c' then ['\\', 'f']
  else if c.toNat < 0x20 then
    ['\\', 'u', '0', '0', hexDigit (c.toNat / 16), hexDigit (c.toNat % 16)]
  else [c]

/-- A string in quotes. -/
def quoted (s : String) : List Char := '"' :: s.toList.flatMap escapeChar ++ ['"']

mutual

/-- The characters of a value's canonical text. -/
def chars : Json → List Char
  | null => "null".toList
  | bool b => (if b then "true" else "false").toList
  | int n => (toString n).toList
  | float x => (floatText x).toList
  | str s => quoted s
  | arr [] => ['[', ']']
  | arr (item :: rest) => '[' :: chars item ++ itemChars rest
  | obj [] => ['\x7b', '\x7d']
  | obj ((name, value) :: rest) => '\x7b' :: quoted name ++ ':' :: chars value ++ fieldChars rest

/-- The items after the first one, and the closing bracket. -/
def itemChars : List Json → List Char
  | [] => [']']
  | item :: rest => ',' :: chars item ++ itemChars rest

/-- The fields after the first one, and the closing brace. -/
def fieldChars : List (String × Json) → List Char
  | [] => ['\x7d']
  | (name, value) :: rest => ',' :: quoted name ++ ':' :: chars value ++ fieldChars rest

end

/-- The canonical text of a value. -/
def text (json : Json) : String := String.ofList json.chars

instance : ToString Json := ⟨text⟩

end RecordMapping.Json
