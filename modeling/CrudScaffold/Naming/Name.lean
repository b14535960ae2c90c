import CrudScaffold.Text.Display
import CrudScaffold.Naming.Inflection

/-!
# CrudScaffold.Naming.Name — identifiers derived from a name

A name is any text with something other than blanks in it; blanks around it do not count.  Each derivation either
gives an identifier or says why the name has none.

* `baseName`, `qualifier`: the last segment of a qualified name such as `Admin/Blog/Post`, and those before it.
* `snakeCase`, `camelCase`: the two identifier styles.
* `plural`, `singular`: the name with its last word inflected.
-/

namespace CrudScaffold.Naming

open CrudScaffold.Text

/-- Why a name cannot be used. -/
inductive NameFault where
  /-- The name is not a text at all; `shown` is what stands in its place. -/
  | notText (shown : String)
  /-- Nothing but blanks. -/
  | blank (name : String)
  /-- Nothing but separators. -/
  | noSegment (name : String)
  /-- No letter and no digit. -/
  | noIdentifier (name : String)
  deriving DecidableEq, Repr

/-- The name that is at fault, if it is a text. -/
def NameFault.name? : NameFault → Option String
  | .notText _ => none
  | .blank name => some name
  | .noSegment name => some name
  | .noIdentifier name => some name

/-- The wording of a fault. -/
def NameFault.message : NameFault → String
  | .notText shown => s!"Name must be a non-empty string, got {shown}."
  | .blank name => s!"Name must be a non-empty string, got {display name}."
  | .noSegment name => s!"Name {display name} has no final segment."
  | .noIdentifier name => s!"Name {display name} produces an empty identifier."

/-- The characters of a name without the blanks around it. -/
def nameChars (name : String) : Except NameFault (List Char) :=
  let cs := trim name.toList
  if cs.isEmpty then .error (.blank name) else .ok cs

/-- A name without the blanks around it. -/
def require (name : String) : Except NameFault String := (nameChars name).map String.ofList

/-- The last segment of a qualified name. -/
def baseName (name : String) : Except NameFault String := do
  let cs ← nameChars name
  match (segments cs).getLast? with
  | some last => return String.ofList last
  | none => throw (.noSegment name)

/-- The segments in front of the last one. -/
def qualifier (name : String) : Except NameFault (List String) := do
  let cs ← nameChars name
  return (segments cs).dropLast.map String.ofList

/-- Words in lower case, joined by underscores. -/
def snakeCase (name : String) : Except NameFault String := do
  let cs := underscored (← nameChars name)
  if cs.isEmpty then throw (.noIdentifier name)
  return String.ofList (lowerChars cs)

/-- Words in lower case, each after the first with a capital in front, joined without a separator. -/
def camelCase (name : String) : Except NameFault String := do
  let cs ← nameChars name
  match (camelWords cs).map lowerChars with
  | [] => throw (.noIdentifier name)
  | first :: others => return String.ofList (first ++ others.flatMap capitalize)

/-- The name with its last word in the plural. -/
def plural (name : String) : Except NameFault String := do
  return String.ofList (inflectLast pluralWord (← nameChars name))

/-- The name with its last word in the singular. -/
def singular (name : String) : Except NameFault String := do
  return String.ofList (inflectLast singularWord (← nameChars name))

/-- The plural of the snake-case form: the table name of an entity. -/
def pluralSnake (name : String) : Except NameFault String := do plural (← snakeCase name)

/-- The plural of the camel-case form: the name of a to-many accessor. -/
def pluralCamel (name : String) : Except NameFault String := do plural (← camelCase name)

end CrudScaffold.Naming
