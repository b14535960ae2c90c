import CrudScaffold.Failure
import CrudScaffold.Files.Access
import CrudScaffold.Json.Reader
import CrudScaffold.Settings
import CrudScaffold.Text.Case

/-!
# CrudScaffold.SettingsFile — settings from a file and from the command line

A settings file holds a map, in JSON if the name of the file ends in `.json` and in YAML otherwise.  The settings
stand at its top level or in the first of the sections `crudgen` and `config` that it has.  Values given beside the
file override those in it; a value of null overrides nothing.

The reader of YAML comes from elsewhere and is arbitrary: for each text it gives a value, or an error of its own
(`.malformed`), or stops with something else, which is let through.
-/

namespace CrudScaffold.Settings

open CrudScaffold.Data CrudScaffold.Files

/-- The entries of a map, in their order. -/
abbrev Entries := List (Value × Value)

/-- The sections that may hold the settings, in the order in which they are looked for. -/
def sectionNames : List String := ["crudgen", "config"]

/-- The file holds JSON. -/
def isJson (path : Path) : Bool := Text.lower path.suffix = ".json"

/-- What reads the texts of settings files. -/
structure Readers where
  yaml : String → Except ReadError Value
  /-- How deep lists and maps may be nested in JSON. -/
  nesting : Nat

/-- The reader for the file at a path. -/
def Readers.reader (readers : Readers) (path : Path) : String → Except ReadError Value :=
  if isJson path then Json.read readers.nesting else readers.yaml

/-- The value that the text of a settings file holds. -/
def readValue (readers : Readers) (path : Path) (text : String) : Except Fault Value :=
  match readers.reader path text with
  | .ok v => .ok v
  | .error (.value fault) => .error (.crash (.value fault))
  | .error (.raised x) => .error (.crash (.foreign x))
  | .error .malformed => .error (.failure (.settings (if isJson path then .badJson path else .badYaml path)))

/-- The settings in a map: its first section, or the map itself. -/
def sectionOf (path : Path) (entries : Entries) : List String → Except Fault Entries
  | [] => .ok entries
  | key :: keys => match Value.entry? entries key with
    | some (.map inner) => .ok inner
    | some _ => .error (.failure (.settings (.badSection path key)))
    | none => sectionOf path entries keys

/-- The settings in the value of a file; an empty file sets none. -/
def entriesOf (path : Path) (v : Value) : Except Fault Entries :=
  match v with
  | .null => .ok []
  | .map entries => sectionOf path entries sectionNames
  | other => .error (.failure (.settings (.notAMap path other.kindName)))

/-- The text of a settings file. -/
def fileText (t : Tree) (cwd : Location) (path : Path) : Except Fault String :=
  match readText t cwd path with
  | .ok text => .ok text
  | .error (.access (.refused r)) => .error (.failure (.settings (.unreadable path r)))
  | .error (.access .nulInPath) => .error (.crash (.access .nulInPath))
  | .error (.encoding f) => .error (.crash (.encoding f))

/-- The settings that a file holds. -/
def fileEntries (readers : Readers) (t : Tree) (cwd : Location) (path : Path) : Except Fault Entries := do
  if !(← letThrough (pathExists t cwd path)) then throw (.failure (.settings (.missingFile path)))
  if !(← letThrough (isFile t cwd path)) then throw (.failure (.settings (.notAFile path)))
  let v ← readValue readers path (← fileText t cwd path)
  entriesOf path v

/-- The value is null. -/
def isNull : Value → Bool
  | .null => true
  | _ => false

/-- The entries with the overriding values in place. -/
def overridden (entries overrides : Entries) : Entries :=
  (overrides.filter fun e => !isNull e.2).foldl (fun m e => Value.putEntry m e.1 e.2) entries

/-- The settings of a file, if one is given, and of the overriding values. -/
def load (readers : Readers) (t : Tree) (cwd : Location) (path : Option Path) (overrides : Entries) :
    Except Fault Settings := do
  let entries ← match path with
    | some p => fileEntries readers t cwd p
    | none => pure []
  match shape.read (overridden entries overrides) with
  | .ok s => return s
  | .error rejections => throw (.failure (.settings (.rejected path rejections)))

end CrudScaffold.Settings
