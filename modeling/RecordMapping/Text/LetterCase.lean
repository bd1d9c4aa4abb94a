import RecordMapping.Text.LetterCase.Table

/-!
# Letter case

Lowercasing of whole texts by the Unicode rules. Two letters need more than a table from character
to character: `İ` becomes two characters, and the capital sigma becomes `ς` at the end of a word and
`σ` elsewhere.
-/

namespace RecordMapping.Text

open LetterCase

/-- Whether a character lies in one of the ranges. -/
def inRanges (ranges : List (Nat × Nat)) (c : Char) : Bool :=
  ranges.any fun (first, last) => first ≤ c.toNat && c.toNat ≤ last

/-- A letter that has case and takes part in deciding whether a sigma ends a word. -/
def isCased (c : Char) : Bool := inRanges casedRanges c

/-- A character that is passed over when deciding whether a sigma ends a word. -/
def isCaseIgnorable (c : Char) : Bool := inRanges ignorableRanges c

/-- The first character that is not case-ignorable has case. -/
def startsCased (cs : List Char) : Bool :=
  match cs.dropWhile isCaseIgnorable with
  | [] => false
  | c :: _ => isCased c

/-- The simple lowercase mapping of one character. -/
def lowerSimple (c : Char) : Char :=
  if c.toNat < 128 then c.toLower
  else
    match lowerRuns.find? fun (first, last, step, _) =>
        first ≤ c.toNat && c.toNat ≤ last && (c.toNat - first) % step == 0 with
    | some (_, _, _, shift) => Char.ofNat (c.toNat + shift).toNat
    | none => c

/-- Lowercases the characters `cs` that follow `before`, which is held in reverse. -/
def lowerFrom (before : List Char) : List Char → List Char
  | [] => []
  | c :: cs =>
    let here :=
      if c == 'Σ' then [if startsCased before && !startsCased cs then 'ς' else 'σ']
      else if c == 'İ' then ['i', Char.ofNat 0x307]
      else [lowerSimple c]
    here ++ lowerFrom (c :: before) cs

/-- The text in lowercase. -/
def lower (s : String) : String := String.ofList (lowerFrom [] s.toList)

/-- An ASCII letter in uppercase; other characters stay. -/
def upperAscii (s : String) : String := String.ofList (s.toList.map Char.toUpper)

end RecordMapping.Text
