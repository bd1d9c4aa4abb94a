/-!
# Blank characters

The characters with the Unicode property `White_Space`, and the two operations on text that depend
on them: `trim` cuts blanks at both ends, `splitBlanks` cuts a text into its blank-free pieces.
-/

namespace RecordMapping.Text

/-- The 25 characters with the Unicode property `White_Space`. -/
def isBlank (c : Char) : Bool :=
  let n := c.toNat
  (9 ≤ n && n ≤ 13) || n == 0x20 || n == 0x85 || n == 0xA0 || n == 0x1680
    || (0x2000 ≤ n && n ≤ 0x200A) || n == 0x2028 || n == 0x2029 || n == 0x202F
    || n == 0x205F || n == 0x3000

/-- The text without its leading blanks. -/
def dropBlanks (cs : List Char) : List Char := cs.dropWhile isBlank

/-- The text without blanks at either end. -/
def trimChars (cs : List Char) : List Char :=
  (dropBlanks (dropBlanks cs).reverse).reverse

/-- The text without blanks at either end. -/
def trim (s : String) : String := String.ofList (trimChars s.toList)

/-- One step of `splitBlanks`, from the right: a blank closes the piece being built, any other
character extends it. -/
def splitStep (c : Char) : List Char × List (List Char) → List Char × List (List Char)
  | (piece, rest) =>
    if isBlank c then ([], if piece.isEmpty then rest else piece :: rest) else (c :: piece, rest)

/-- The maximal blank-free pieces of a text, in order. -/
def splitBlanks (s : String) : List String :=
  let (piece, rest) := s.toList.foldr splitStep ([], [])
  (if piece.isEmpty then rest else piece :: rest).map String.ofList

end RecordMapping.Text
