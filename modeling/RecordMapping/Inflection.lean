import RecordMapping.Text.LetterCase

/-!
# Inflection

Plural and singular of English nouns by their endings, and the default names of keys. Aliases,
tables and junctions are named with them.
-/

namespace RecordMapping.Inflection

/-- Whether a word ends in one of the given ways. -/
def endsIn (endings : List String) (word : List Char) : Bool :=
  endings.any fun ending => ending.toList.isSuffixOf word

/-- The word without its last `count` letters. -/
def dropLast (count : Nat) (word : List Char) : List Char := word.take (word.length - count)

/-- The plural of a noun: `ies` for `y` after a consonant (or no vowel at all), `es` after a hissing
sound, `s` otherwise. -/
def pluralize (name : String) : String :=
  let word := name.toList
  String.ofList <|
    if endsIn ["y"] word && !endsIn ["ay", "ey", "iy", "oy", "uy"] word then
      dropLast 1 word ++ "ies".toList
    else if endsIn ["s", "sh", "ch", "x", "z"] word then word ++ "es".toList
    else word ++ ['s']

/-- The singular of a noun that ends like a plural; other nouns stay. -/
def singularize (name : String) : String :=
  let word := name.toList
  String.ofList <|
    if endsIn ["ies"] word && 3 < word.length then dropLast 3 word ++ ['y']
    else if endsIn ["sses", "ches", "shes", "xes", "zes"] word then dropLast 2 word
    else if endsIn ["s"] word && !endsIn ["ss"] word && 1 < word.length then dropLast 1 word
    else word

/-- The default name of a key that refers to a model: the names of the model and of its primary key,
joined by an underscore, in lowercase. -/
def foreignKeyFor (model primaryKey : String) : String := Text.lower (model ++ "_" ++ primaryKey)

end RecordMapping.Inflection
