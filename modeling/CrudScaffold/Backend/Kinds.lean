import CrudScaffold.Backend.Migrations
import CrudScaffold.Number.Written

/-!
# CrudScaffold.Backend.Kinds — the three backends

A backend creates a bare artifact and later receives its text.

* The *filesystem* backend creates the files itself.
* The *artisan* backend runs a command of the project that creates the file, and then replaces its content.
* The *dry run* plans the same paths as the filesystem backend and keeps the texts to itself.
-/

namespace CrudScaffold

open CrudScaffold.Backend CrudScaffold.Calendar CrudScaffold.Files CrudScaffold.Text

/-- Something that creates artifacts and writes their texts. -/
structure Backend (σ : Type) where
  name : String
  root : Path
  /-- A path as seen from the project root. -/
  shown : Path → String
  create : ArtifactKind → String → Act σ Path
  write : Path → String → Act σ Int

namespace Backend

/-- Refuses to replace a file unless the settings allow it. -/
def checkVacant (l : Layout) (path : Path) (name : String) : Act Bench Unit := do
  let b ← Act.look
  if (← Act.access (pathExists b.tree b.cwd path)) && !l.settings.overwrite then
    Act.fail (.occupied (l.shown path) path name)

/-- The path of a class, of which no file may exist unless the settings allow it. -/
def vacantClassPath (l : Layout) (kind : ArtifactKind) (name : String) : Act Bench Path := do
  match l.classPath kind name with
  | .error fault => Act.fail fault
  | .ok path =>
    checkVacant l path name
    return path

/-- Writes the text of an artifact. -/
def writeFile (l : Layout) (path : Path) (content : String) : Act Bench Int := do
  let b ← Act.look
  let (r, tree) := writeAtomically b.tree b.cwd path content
  Act.change fun b => { b with tree := tree }
  let size ← Act.report (.notWritten (l.shown path) path) r
  Act.note .info .files s!"Wrote {l.shown path} ({size} bytes)."
  return size

/-! ### The filesystem backend -/

/-- Creates the directories above a path and an empty file at it. -/
def makeBare (t : Tree) (cwd : Location) (path : Path) : Except AccessFault Unit × Tree :=
  match ensureDirectory t cwd path.parent with
  | (.error f, t') => (.error f, t')
  | (.ok (), t') => touch t' cwd path

/-- Creates an empty file for an artifact. -/
def createFile (l : Layout) (kind : ArtifactKind) (name : String) : Act Bench Path := do
  let path ← if kind = .migration then newMigrationPath l [] name else vacantClassPath l kind name
  let b ← Act.look
  let (r, tree) := makeBare b.tree b.cwd path
  Act.change fun b => { b with tree := tree }
  Act.report (.notCreated (l.shown path) path name) r
  return path

/-! ### The artisan backend -/

/-- Runs the command that makes an artifact. -/
def runCommand (l : Layout) (kind : ArtifactKind) (name : String) : Act Bench Unit := do
  let script := l.root.child "artisan"
  let b ← Act.look
  if !(← Act.access (isFile b.tree b.cwd script)) then Act.fail (.noScript l.root script name)
  let words := [l.settings.phpBinary, "artisan", kind.command, name]
  let command := " ".intercalate words
  Act.note .info .files s!"Running: {command}"
  let call : Call := ⟨words, l.root, l.settings.timeout⟩
  let (reply, tree) := b.runner b.calls.length call b.tree
  Act.change fun b => { b with tree := tree, calls := b.calls ++ [call] }
  match reply with
  | .timedOut => Act.fail (.timedOut command (Number.general l.settings.timeout) name)
  | .notStarted reason => Act.fail (.notStarted command reason name)
  | .nulInWord => throw (.crash (.access .nulInPath))
  | .raised x => throw (.crash (.foreign x))
  | .finished status output errors =>
    if status ≠ 0 then
      Act.fail (.badStatus command status (strip (if errors.isEmpty then output else errors)) name)

/-- Lets the command of the project create the file of an artifact. -/
def createByCommand (l : Layout) (kind : ArtifactKind) (name : String) : Act Bench Path := do
  if kind = .migration then
    runCommand l kind name
    let directory := l.directory kind
    match ← locate directory name [] with
    | none => Act.fail (.noMigration (l.shown directory) directory name)
    | some found => return directory.child found
  else
    let path ← vacantClassPath l kind name
    runCommand l kind name
    let b ← Act.look
    if ← Act.access (isFile b.tree b.cwd path) then return path
    else Act.fail (.noFile (l.shown path) path name)

/-! ### The dry run -/

/-- Gives a planned file its content: in its place if it is planned already, else at the end. -/
def putPlanned (planned : List (Path × String)) (path : Path) (content : String) : List (Path × String) :=
  if planned.any (·.1 = path) then planned.map fun e => if e.1 = path then (path, content) else e
  else planned ++ [(path, content)]

/-- Plans the file of an artifact. -/
def createPlanned (l : Layout) (kind : ArtifactKind) (name : String) : Act Bench Path := do
  let planned := (← Act.look).planned
  let path ←
    if kind = .migration then newMigrationPath l (planned.map (·.1.name)) name else vacantClassPath l kind name
  Act.change fun b =>
    if b.planned.any (·.1 = path) then b else { b with planned := b.planned ++ [(path, "")] }
  Act.note .info .files s!"[dry-run] would create {l.shown path}"
  return path

/-- Plans the text of an artifact. -/
def writePlanned (l : Layout) (path : Path) (content : String) : Act Bench Int := do
  Act.change fun b => { b with planned := putPlanned b.planned path content }
  let size : Int := byteCount content
  Act.note .info .files s!"[dry-run] would write {l.shown path} ({size} bytes)"
  return size

/-! ### Choosing a backend -/

/-- The backend of a kind. -/
def ofKind (l : Layout) : BackendKind → Backend Bench
  | .filesystem => ⟨BackendKind.filesystem.label, l.root, l.shown, createFile l, writeFile l⟩
  | .artisan => ⟨BackendKind.artisan.label, l.root, l.shown, createByCommand l, writeFile l⟩
  | .dryRun => ⟨BackendKind.dryRun.label, l.root, l.shown, createPlanned l, writePlanned l⟩

/-- The backend that the settings ask for. -/
def ofLayout (l : Layout) : Backend Bench := .ofKind l l.settings.backend

/-- The latest migration with a fragment in its name, the planned ones of a dry run included. -/
def locateMigration (l : Layout) (directory : Path) (fragment : String) : Act Bench (Option String) := do
  if l.settings.backend = .dryRun then
    let planned := (← Act.look).planned
    locate directory fragment ((planned.filter fun e => e.1.parent = directory).map (·.1.name))
  else locate directory fragment []

/-- The name of a backend's type. -/
def typeName : BackendKind → String
  | .filesystem => "FilesystemScaffoldBackend"
  | .artisan => "ArtisanScaffoldBackend"
  | .dryRun => "DryRunScaffoldBackend"

/-- A backend as messages show it. -/
def display (l : Layout) : String := s!"<{typeName l.settings.backend} root={l.root}>"

end Backend

end CrudScaffold
