import RecordMapping.Text.Blank

/-!
# Splitting texts

Cutting a text at every occurrence of a character, or at the first one.
-/

namespace RecordMapping.Text

/-- The pieces of a text between the occurrences of a character; there is always one more of them
than there are occurrences. -/
def splitChars (separator : Char) : List Char → List (List Char)
  | [] => [[]]
  | c :: cs =>
    if c == separator then [] :: splitChars separator cs
    else
      match splitChars separator cs with
      | [] => [[c]]
      | piece :: rest => (c :: piece) :: rest

/-- The names in a list divided by commas; blanks around a name and empty names do not count. -/
def splitNames (s : String) : List String :=
  ((splitChars ',' s.toList).map fun piece => String.ofList (trimChars piece)).filter (· != "")

/-- The parts before and after the first occurrence of a character. -/
def splitFirst? (separator : Char) (s : String) : Option (String × String) :=
  let cs := s.toList
  match cs.dropWhile (· != separator) with
  | _ :: rest => some (String.ofList (cs.takeWhile (· != separator)), String.ofList rest)
  | [] => none

end RecordMapping.Text
