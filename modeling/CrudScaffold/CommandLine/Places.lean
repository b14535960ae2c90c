import CrudScaffold.CommandLine.Options
import CrudScaffold.Generation.EntityNames
import CrudScaffold.SettingsFile
import CrudScaffold.Template.Store
import CrudScaffold.Backend.Layout

/-!
# CrudScaffold.CommandLine.Places — the places of the disk that a run looks at

A run looks at the settings file first.  Its settings then tell where the templates, the command script and the
artifacts stand.  Among the places of the artifacts only the directory of the migrations is listed: the file of a
class has a name that is known beforehand.
-/

namespace CrudScaffold.CommandLine

open CrudScaffold.Backend CrudScaffold.Files CrudScaffold.Generation

/-- A place of the disk; with `listed` the entries of the directory there are looked at too. -/
structure Place where
  path : Path
  listed : Bool
  deriving DecidableEq, Repr

/-- The place of the settings file. -/
def settingsPlaces (o : Options) : List Place :=
  ((Options.nonEmpty o.config).map fun c => ⟨Path.ofString c, false⟩).toList

/-- The places of the templates. -/
def templatePlaces (s : Settings) : List Place :=
  match s.templatesPath with
  | none => []
  | some given =>
    let directory := Template.directoryOf s given
    ⟨directory, false⟩ :: Template.packagedFileNames.map fun f => ⟨directory.child f.2, false⟩

/-- The classes that are generated for an entity: the kind and the name of each. -/
def classesOf (n : EntityNames) : List (ArtifactKind × String) :=
  [(.model, n.modelTarget), (.controller, n.controllerName), (.request, n.storeRequestName),
    (.request, n.updateRequestName)]

/-- The places of the files that are generated for an entity. -/
def artifactPlaces (l : Layout) (entity : String) : List Place :=
  match EntityNames.ofEntity entity l.settings.modelNamespace with
  | .error _ => []
  | .ok names => (classesOf names).filterMap fun (kind, name) =>
    match l.classPath kind name with
    | .ok path => some ⟨path, false⟩
    | .error _ => none

/-- All places that the settings lead to, as seen from the working directory. -/
def placesOf (o : Options) (s : Settings) (cwd : Location) : List Place :=
  let manifest : List Place := ((Options.nonEmpty o.manifest).map fun m => ⟨Path.ofString m, false⟩).toList
  match Layout.ofSettings s cwd with
  | .error _ => templatePlaces s ++ manifest
  | .ok l => templatePlaces s ++ manifest ++
    [⟨l.root, false⟩, ⟨l.root.child "artisan", false⟩, ⟨l.directory .migration, true⟩] ++ artifactPlaces l o.name

end CrudScaffold.CommandLine
