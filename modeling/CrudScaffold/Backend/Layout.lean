import CrudScaffold.Failure
import CrudScaffold.Files.Tree
import CrudScaffold.Naming.Words
import CrudScaffold.Settings

/-!
# CrudScaffold.Backend.Layout — where artifacts stand in a project
-/

namespace CrudScaffold.Backend

open CrudScaffold.Files CrudScaffold.Naming

/-- The kinds of artifacts that a backend creates. -/
inductive ArtifactKind where
  | model
  | migration
  | controller
  | request
  deriving DecidableEq, Repr

/-- The name of a kind. -/
def ArtifactKind.label : ArtifactKind → String
  | .model => "model"
  | .migration => "migration"
  | .controller => "controller"
  | .request => "request"

/-- The command that makes an artifact of the kind. -/
def ArtifactKind.command : ArtifactKind → String
  | .model => "make:model"
  | .migration => "make:migration"
  | .controller => "make:controller"
  | .request => "make:request"

/-- The settings of a project and its root, an absolute path. -/
structure Layout where
  settings : Settings
  root : Path

namespace Layout

/-- The layout of the project that the settings name, as seen from the working directory. -/
def ofSettings (s : Settings) (cwd : Location) : Except AccessFault Layout :=
  let given := Path.ofString s.projectRoot
  if given.hasNul then .error .nulInPath else .ok ⟨s, Path.resolve cwd given⟩

/-- The directory of the artifacts of a kind. -/
def directory (l : Layout) (kind : ArtifactKind) : Path :=
  l.root.join (Path.ofString (match kind with
    | .model => l.settings.modelsPath
    | .migration => l.settings.migrationsPath
    | .controller => l.settings.controllersPath
    | .request => l.settings.requestsPath))

/-- The file of a class: the qualifiers of its name are directories. -/
def classPath (l : Layout) (kind : ArtifactKind) (name : String) : Except BackendFault Path :=
  let parts := (segments name.toList).map String.ofList
  match parts.getLast? with
  | none => .error (.unnamed kind.label name)
  | some last => .ok ((parts.dropLast.foldl Path.child (l.directory kind)).child (last ++ ".php"))

/-- A path as seen from the project root. -/
def shown (l : Layout) (p : Path) : String := l.root.shownFrom p

end Layout

end CrudScaffold.Backend
