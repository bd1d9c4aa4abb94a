import RecordMapping.Text.Digits
import RecordMapping.Text.Utf8

/-!
# Percent-encoding

Characters that may not stand in a part of a URL are written as their UTF-8 bytes, each as `%` and
two hexadecimal digits. Which characters these are depends on the part.
-/

namespace RecordMapping.Url

open Text

/-- Controls and everything beyond ASCII. -/
def isControl (c : Char) : Bool := c.toNat < 0x20 || 0x7F ≤ c.toNat

/-- What is encoded in a path. -/
def isReservedInPath (c : Char) : Bool := isControl c || " \"#<>?\x60\x7b\x7d".toList.contains c

/-- What is encoded in the name and the password of a user. -/
def isReservedInUser (c : Char) : Bool := isReservedInPath c || "/:;=@[\\]^|".toList.contains c

/-- A byte as `%` and two hexadecimal digits. -/
def percentByte (b : UInt8) : List Char :=
  ['%', hexDigitUpper (b.toNat / 16), hexDigitUpper (b.toNat % 16)]

/-- The text with its reserved characters encoded. A `%` that stands in the text stays. -/
def percentEncode (reserved : Char → Bool) (cs : List Char) : List Char :=
  cs.flatMap fun c => if reserved c then (String.utf8EncodeChar c).flatMap percentByte else [c]

/-- The bytes of a percent-encoded text. A `%` without two hexadecimal digits after it stands for
itself. -/
def percentDecode : List Char → List UInt8
  | '%' :: high :: low :: rest =>
    match hexValue? high, hexValue? low with
    | some h, some l => UInt8.ofNat (16 * h + l) :: percentDecode rest
    | _, _ => 0x25 :: percentDecode (high :: low :: rest)
  | c :: cs => String.utf8EncodeChar c ++ percentDecode cs
  | [] => []

/-- The text of a component of a form: `+` stands for a space, the rest is percent-encoded. -/
def formDecode (cs : List Char) : List Char :=
  ofUtf8 (percentDecode (cs.map fun c => if c == '+' then ' ' else c))

/-- A text without reserved characters is its own encoding. -/
theorem percentEncode_eq_self {reserved : Char → Bool} {cs : List Char}
    (h : ∀ c ∈ cs, reserved c = false) : percentEncode reserved cs = cs := by
  induction cs with
  | nil => rfl
  | cons c cs ih =>
    have hc : reserved c = false := h c List.mem_cons_self
    have hcs := ih fun d hd => h d (List.mem_cons_of_mem _ hd)
    simpa [percentEncode, hc] using hcs

end RecordMapping.Url
