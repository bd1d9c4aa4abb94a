import RecordMapping.Text.Visible.Table

/-!
# Showing texts

The quoted form in which messages show a text: quotes and backslashes are escaped, and characters
that would not be visible are given by their code points.
-/

namespace RecordMapping.Text

/-- Whether a character leaves a mark of its own. -/
def isVisible (c : Char) : Bool :=
  if c.toNat < 128 then 32 ≤ c.toNat && c.toNat < 127
  else !Visible.hiddenRanges.any fun (first, last) => first ≤ c.toNat && c.toNat ≤ last

/-- One character of a shown text. -/
def showChar (c : Char) : List Char :=
  if c == '"' then ['\\', '"']
  else if c == '\\' then ['\\', '\\']
  else if c == '\t' then ['\\', 't']
  else if c == '\r' then ['\\', 'r']
  else if c == '\n' then ['\\', 'n']
  else if c.toNat == 0 then ['\\', '0']
  else if isVisible c then [c]
  else '\\' :: 'u' :: '\x7b' :: Nat.toDigits 16 c.toNat ++ ['\x7d']

/-- A text in quotes, with every character visible. -/
def shown (s : String) : String := String.ofList ('"' :: s.toList.flatMap showChar ++ ['"'])

end RecordMapping.Text
