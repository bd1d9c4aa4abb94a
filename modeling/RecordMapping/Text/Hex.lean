import RecordMapping.Text.Digits

/-!
# Hexadecimal text

Bytes as pairs of hexadecimal digits.
-/

namespace RecordMapping.Text

/-- The two lowercase digits of a byte. -/
def hexPair (b : UInt8) : List Char := [hexDigit (b.toNat / 16), hexDigit (b.toNat % 16)]

/-- Bytes as lowercase digits. -/
def hexOfBytes (bytes : List UInt8) : String := String.ofList (bytes.flatMap hexPair)

/-- The bytes of a run of digits; nothing if a digit is odd or missing. -/
def readHexPairs? : List Char → Option (List UInt8)
  | [] => some []
  | [_] => none
  | high :: low :: rest => do
    let byte := UInt8.ofNat (16 * (← hexValue? high) + (← hexValue? low))
    return byte :: (← readHexPairs? rest)

/-- The bytes that hexadecimal digits stand for. -/
def bytesOfHex? (s : String) : Option (List UInt8) := readHexPairs? s.toList

end RecordMapping.Text
