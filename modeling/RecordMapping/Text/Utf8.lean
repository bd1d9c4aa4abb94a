/-!
# UTF-8

The bytes of a text, and the text of arbitrary bytes: what is not UTF-8 is replaced, piece by piece,
by the replacement character.
-/

namespace RecordMapping.Text

/-- The UTF-8 bytes of a text. -/
def utf8Bytes (cs : List Char) : List UInt8 := cs.flatMap String.utf8EncodeChar

/-- The character that stands for bytes which are not UTF-8. -/
def replacement : Char := '\uFFFD'

/-- A sequence of bytes whose end is awaited: how many bytes are missing, the bounds of the next
one, and the bits read so far. -/
structure Awaited where
  missing : Nat
  low : UInt8 := 0x80
  high : UInt8 := 0xBF
  bits : Nat

/-- The sequence that a byte beyond ASCII begins. The bounds leave out overlong forms, surrogates
and what lies beyond the last code point. -/
def Awaited.begin? (b : UInt8) : Option Awaited :=
  let n := b.toNat
  if n < 0xC2 then none
  else if n < 0xE0 then some { missing := 1, bits := n - 0xC0 }
  else if n == 0xE0 then some { missing := 2, low := 0xA0, bits := 0 }
  else if n == 0xED then some { missing := 2, high := 0x9F, bits := 0xD }
  else if n < 0xF0 then some { missing := 2, bits := n - 0xE0 }
  else if n == 0xF0 then some { missing := 3, low := 0x90, bits := 0 }
  else if n < 0xF4 then some { missing := 3, bits := n - 0xF0 }
  else if n == 0xF4 then some { missing := 3, high := 0x8F, bits := 4 }
  else none

/-- What a byte outside any sequence gives: a character at once, or a sequence to be awaited. -/
def utf8Start (b : UInt8) : List Char × Option Awaited :=
  if b < 0x80 then ([Char.ofNat b.toNat], none)
  else
    match Awaited.begin? b with
    | some awaited => ([], some awaited)
    | none => ([replacement], none)

/-- What a byte gives after the bytes of a sequence whose end is awaited. -/
def utf8Step (awaited? : Option Awaited) (b : UInt8) : List Char × Option Awaited :=
  match awaited? with
  | none => utf8Start b
  | some awaited =>
    if awaited.low ≤ b && b ≤ awaited.high then
      let bits := awaited.bits * 64 + (b.toNat - 0x80)
      if awaited.missing ≤ 1 then ([Char.ofNat bits], none)
      else ([], some { missing := awaited.missing - 1, bits })
    else
      let (written, next) := utf8Start b
      (replacement :: written, next)

/-- The text of a run of bytes after the bytes of a sequence whose end is awaited. -/
def utf8From (awaited? : Option Awaited) : List UInt8 → List Char
  | [] => if awaited?.isSome then [replacement] else []
  | b :: bytes =>
    let (written, next) := utf8Step awaited? b
    written ++ utf8From next bytes

/-- The text of bytes. Each longest piece that begins a character and does not finish it becomes one
replacement character, as does every other byte that begins none. -/
def ofUtf8 (bytes : List UInt8) : List Char := utf8From none bytes

end RecordMapping.Text
