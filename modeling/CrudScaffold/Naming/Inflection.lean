import CrudScaffold.Text.Case
import CrudScaffold.Naming.Words

/-!
# CrudScaffold.Naming.Inflection — plural and singular of a name's last word

Only the last word of a compound name is inflected, and its letter case is kept: `blogPost` gives `blogPosts`,
`sales_person` gives `sales_people`.  A word is first looked up in the table of irregular forms and the list of words
that have one form only; the other words go by their endings.
-/

namespace CrudScaffold.Naming

open CrudScaffold.Text

/-- Singular and plural of the irregular words. -/
def irregular : List (String × String) := [
  ("person", "people"), ("child", "children"), ("man", "men"), ("woman", "women"), ("mouse", "mice"),
  ("goose", "geese"), ("tooth", "teeth"), ("foot", "feet"), ("ox", "oxen"), ("datum", "data"),
  ("index", "indices"), ("matrix", "matrices"), ("vertex", "vertices"), ("axis", "axes"), ("crisis", "crises"),
  ("analysis", "analyses"), ("status", "statuses"), ("address", "addresses"), ("bus", "buses"), ("leaf", "leaves"),
  ("wolf", "wolves"), ("half", "halves"), ("shelf", "shelves"), ("thief", "thieves"), ("knife", "knives"),
  ("wife", "wives"), ("life", "lives"), ("hero", "heroes"), ("potato", "potatoes"), ("tomato", "tomatoes"),
  ("echo", "echoes"), ("shoe", "shoes"), ("movie", "movies"), ("toe", "toes"), ("quiz", "quizzes"),
  ("criterion", "criteria"), ("medium", "media"), ("alias", "aliases"), ("atlas", "atlases"), ("bias", "biases"),
  ("canvas", "canvases"), ("gas", "gases"), ("iris", "irises"), ("lens", "lenses"), ("pancreas", "pancreases")]

/-- Words with one form for both numbers. -/
def uncountable : List String := [
  "equipment", "information", "rice", "money", "species", "series", "fish", "sheep", "deer", "news", "metadata",
  "feedback", "software", "hardware", "staff", "audio"]

/-- The word ends in one of these. -/
def endsIn (endings : List String) (word : List Char) : Bool := endings.any fun e => e.toList.isSuffixOf word

/-- The word without its last `n` letters. -/
def dropEnd (n : Nat) (word : List Char) : List Char := word.take (word.length - n)

/-- The vowels. -/
def vowels : List Char := ['a', 'e', 'i', 'o', 'u']

/-- A letter that is no vowel stands before the last one. -/
def consonantBeforeLast (word : List Char) : Bool :=
  match word.reverse with
  | _ :: c :: _ => !vowels.contains c
  | _ => false

/-- The irregular word whose plural is `word`. -/
def irregularSingular? (word : List Char) : Option (List Char) :=
  (irregular.find? fun p => p.2.toList = word).map fun p => p.1.toList

/-- The plural of the irregular word `word`. -/
def irregularPlural? (word : List Char) : Option (List Char) :=
  (irregular.find? fun p => p.1.toList = word).map fun p => p.2.toList

/-- A word with one form for both numbers. -/
def isUncountable (word : List Char) : Bool := uncountable.any fun w => w.toList = word

/-- The plural of a regular lowercase word. -/
def regularPlural (word : List Char) : List Char :=
  if endsIn ["s"] word && !endsIn ["ss", "us", "is"] word then word
  else if endsIn ["is"] word then dropEnd 2 word ++ ['e', 's']
  else if endsIn ["sh", "ch", "x", "z", "ss", "us"] word then word ++ ['e', 's']
  else if endsIn ["y"] word && consonantBeforeLast word then dropEnd 1 word ++ ['i', 'e', 's']
  else word ++ ['s']

/-- The plural of a lowercase word. -/
def pluralWord (word : List Char) : List Char :=
  if isUncountable word || (irregularSingular? word).isSome then word
  else (irregularPlural? word).getD (regularPlural word)

/-- The singular of a regular lowercase word. -/
def regularSingular (word : List Char) : List Char :=
  if endsIn ["ss", "us", "is"] word then word
  else if endsIn ["ies"] word && 3 < word.length then dropEnd 3 word ++ ['y']
  else if endsIn ["sses", "xes", "ches", "shes", "zzes"] word then dropEnd 2 word
  else if endsIn ["s"] word then dropEnd 1 word
  else word

/-- The singular of a lowercase word. -/
def singularWord (word : List Char) : List Char :=
  if isUncountable word || (irregularPlural? word).isSome then word
  else (irregularSingular? word).getD (regularSingular word)

/-- The lowercase word `inflected` in the letter case of `pattern`: all capitals, a capital in front, or as it is. -/
def matchCase (pattern inflected : List Char) : List Char :=
  if 1 < pattern.length && isUpperText pattern then upperChars inflected
  else if pattern.head?.any isUpperChar then
    match inflected with
    | [] => []
    | c :: cs => upperChar c ++ cs
  else inflected

/-- A name whose last word has been replaced by `inflect` of its lower case. -/
def inflectLast (inflect : List Char → List Char) (name : List Char) : List Char :=
  let (before, last) := splitLastWord name
  before ++ matchCase last (inflect (lowerChars last))

end CrudScaffold.Naming
