import CrudScaffold.Failure
import CrudScaffold.Files.Access
import CrudScaffold.Settings
import CrudScaffold.Template.Packaged

/-!
# CrudScaffold.Template.Store — where templates come from

A store supplies template texts by name.  A layer holds its templates in memory or reads them from the files of a
directory; a store is one layer, or several of which the first that has a template supplies it.

Settings without a template directory ask for the packaged templates.  A directory shadows the packaged templates, or, if
they are switched off, must supply every template (`Store.ofSettings`).
-/

namespace CrudScaffold.Template

open CrudScaffold.Files CrudScaffold.Text

/-- One source of templates. -/
inductive Layer where
  | memory (templates : List (String × String))
  | directory (path : Path) (fileNames : List (String × String))
  deriving Repr

/-- A source of templates, or several that are asked in turn. -/
inductive Store where
  | single (layer : Layer)
  | layered (layers : List Layer)
  deriving Repr

/-- The files as a store sees them. -/
structure View where
  tree : Tree
  cwd : Location

/-- The layer with the packaged templates. -/
def Layer.packaged : Layer := .memory packagedTemplates

/-- The layer of the files of a directory, with the packaged file names. -/
def Layer.ofDirectory (path : Path) : Layer := .directory path packagedFileNames

/-- The file of a template in a directory: a name without an entry gives the file `name.stub`. -/
def fileOf (path : Path) (fileNames : List (String × String)) (name : String) : Path :=
  path.child ((fileNames.lookup name).getD (name ++ ".stub"))

/-- The layer offers a template of this name. -/
def Layer.has (v : View) (name : String) : Layer → Except Fault Bool
  | .memory templates => .ok (templates.any (·.1 = name))
  | .directory path fileNames => letThrough (isFile v.tree v.cwd (fileOf path fileNames name))

/-- The wording of a failed reading. -/
def readFaultText : ReadFault → String
  | .access f => f.message
  | .encoding f => f.message

/-- The text of a template, or the places where the layer looked for it. -/
def Layer.find (v : View) (name : String) : Layer → Except Fault (Except (List String) String)
  | .memory templates => match templates.lookup name with
    | some text => .ok (.ok text)
    | none => .ok (.error ["<builtin>"])
  | .directory path fileNames => do
    let file := fileOf path fileNames name
    if ← letThrough (isFile v.tree v.cwd file) then
      match readText v.tree v.cwd file with
      | .ok text => return .ok text
      | .error f => return .error [file.toString ++ " (" ++ readFaultText f ++ ")"]
    else return .error [file.toString]

/-- Asks the layers in turn; `searched` are the places looked at so far. -/
def findIn (v : View) (name : String) (searched : List String) : List Layer → Except Fault (Except (List String) String)
  | [] => .ok (.error searched)
  | l :: ls => do
    match ← l.find v name with
    | .ok text => return .ok text
    | .error places => findIn v name (searched ++ places) ls

/-- One of the layers offers a template of this name. -/
def hasIn (v : View) (name : String) : List Layer → Except Fault Bool
  | [] => .ok false
  | l :: ls => do if ← l.has v name then return true else hasIn v name ls

/-- The store offers a template of this name. -/
def Store.has (s : Store) (v : View) (name : String) : Except Fault Bool :=
  match s with
  | .single l => l.has v name
  | .layered ls => hasIn v name ls

/-- The text of a template. -/
def Store.get (s : Store) (v : View) (name : String) : Except Fault String := do
  let found ← match s with
    | .single l => l.find v name
    | .layered ls => findIn v name [] ls
  match found with
  | .ok text => return text
  | .error searched => throw (.failure (.noTemplate name searched))

/-- A layer as messages show it. -/
def Layer.display : Layer → String
  | .memory templates => s!"<BuiltinTemplateStore {displayList (sortTexts (templates.map (·.1)))}>"
  | .directory path _ => s!"<DirectoryTemplateStore {path}>"

/-- A store as messages show it. -/
def Store.display : Store → String
  | .single l => l.display
  | .layered ls =>
    let inner := ", ".intercalate (ls.map Layer.display)
    s!"<LayeredTemplateStore [{inner}]>"

/-- The name of a layer's type. -/
def Layer.typeName : Layer → String
  | .memory _ => "BuiltinTemplateStore"
  | .directory _ _ => "DirectoryTemplateStore"

/-- The name of a store's type. -/
def Store.typeName : Store → String
  | .single l => l.typeName
  | .layered _ => "LayeredTemplateStore"

/-! ### The store of the settings -/

/-- The template directory of the settings; a relative one is seen from the project root. -/
def directoryOf (s : Settings) (given : String) : Path := (Path.ofString s.projectRoot).join (Path.ofString given)

/-- The store that the settings ask for. -/
def Store.ofSettings (v : View) (s : Settings) : Except Fault Store :=
  match s.templatesPath with
  | none => .ok (.single .packaged)
  | some given => do
    let path := directoryOf s given
    if ← letThrough (isDirectory v.tree v.cwd path) then
      let custom := Layer.ofDirectory path
      return if s.usePackaged then .layered [custom, .packaged] else .single custom
    else throw (.failure (.settings (.noTemplateDirectory path)))

end CrudScaffold.Template
