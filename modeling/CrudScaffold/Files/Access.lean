import CrudScaffold.Files.Tree
import CrudScaffold.Text.Blank
import CrudScaffold.Text.Utf8

/-!
# CrudScaffold.Files.Access — looking at, creating, writing and reading files

The operations that a run performs on the tree, each on the tree as it finds it.  An operation that fails keeps what
it has done so far: `ensureDirectory` may leave some of the directories that it was to create.

* `writeAtomically` writes a file under another name and renames it, so that the file under the path is either the
  old one or the new one.
* `readText` reads a file as UTF-8 and unifies its line ends.
-/

namespace CrudScaffold.Files

open CrudScaffold.Text

/-- Refuses the access to a path. -/
def refuse (cause : Cause) (p : Path) : AccessFault := .refused ⟨cause, p.toString, none⟩

/-- Something that is looked for may be absent: only a name that is too long is a fault. -/
def absence (p : Path) : Cause → Except AccessFault (Option Node)
  | .nameTooLong => .error (refuse .nameTooLong p)
  | _ => .ok none

/-- What stands at a path, if anything. -/
def look (t : Tree) (cwd : Location) (p : Path) : Except AccessFault (Option Node) :=
  if p.hasNul then .ok none
  else match t.find cwd p with
    | .ok at_ => .ok (t.node? at_)
    | .error cause => absence p cause

/-- Something stands at the path. -/
def pathExists (t : Tree) (cwd : Location) (p : Path) : Except AccessFault Bool := do
  return (← look t cwd p).isSome

/-- A file stands at the path. -/
def isFile (t : Tree) (cwd : Location) (p : Path) : Except AccessFault Bool := do
  match ← look t cwd p with
  | some (.file _) => return true
  | _ => return false

/-- A directory stands at the path. -/
def isDirectory (t : Tree) (cwd : Location) (p : Path) : Except AccessFault Bool := do
  match ← look t cwd p with
  | some .directory => return true
  | _ => return false

/-- The names of the entries of a directory. -/
def listNames (t : Tree) (cwd : Location) (p : Path) : Except AccessFault (List String) :=
  if p.hasNul then .error .nulInPath
  else match t.find cwd p with
    | .error cause => .error (refuse cause p)
    | .ok at_ => if t.isDirectoryAt at_ then .ok (t.childNames at_) else .error (refuse .notDirectory p)

/-- Creates the directory with these names, and those above it that are missing, from the innermost that exists
outwards; `count` is the number of names that may still be taken off. -/
def ensureNames (anchor : Anchor) (cwd : Location) (t : Tree) : Nat → List String → Except AccessFault Unit × Tree
  | count, names =>
    let p : Path := ⟨anchor, names⟩
    match t.makeDirectory cwd p with
    | .ok t' => (.ok (), t')
    | .error .noSuchFile =>
      match count with
      | 0 => (.error (refuse .noSuchFile p), t)
      | count + 1 =>
        match ensureNames anchor cwd t count names.dropLast with
        | (.error f, t') => (.error f, t')
        | (.ok (), t') => match t'.makeDirectory cwd p with
          | .ok t'' => (.ok (), t'')
          | .error cause => (accept t' p cause, t')
    | .error cause => (accept t p cause, t)
where
  /-- A directory that is there already is as good as a new one. -/
  accept (t : Tree) (p : Path) (cause : Cause) : Except AccessFault Unit := do
    if ← isDirectory t cwd p then return () else throw (refuse cause p)

/-- Creates a directory and those above it, as far as they are missing. -/
def ensureDirectory (t : Tree) (cwd : Location) (p : Path) : Except AccessFault Unit × Tree :=
  if p.hasNul then (.error .nulInPath, t) else ensureNames p.anchor cwd t p.names.length p.names

/-- Makes sure that something stands at the path: a missing file is created empty. -/
def touch (t : Tree) (cwd : Location) (p : Path) : Except AccessFault Unit × Tree :=
  if p.hasNul then (.error .nulInPath, t)
  else match t.find cwd p with
    | .ok _ => (.ok (), t)
    | .error _ => match t.openFile cwd p with
      | .ok (_, t') => (.ok (), t')
      | .error cause => (.error (refuse cause p), t)

/-- The random part of a temporary file's name. -/
def temporaryMark : String := "XXXXXXXX"

/-- The path under which the new content of `p` is written before the renaming. -/
def temporaryPath (cwd : Location) (p : Path) : Path where
  anchor := if p.isAbsolute then p.anchor else .top
  names := p.parent.locationFrom cwd ++ ["." ++ p.name ++ "." ++ temporaryMark ++ ".tmp"]

/-- Writes a file as a whole, or leaves the files as they are.  The directories above it are created. -/
def writeAtomically (t : Tree) (cwd : Location) (p : Path) (content : String) : Except AccessFault Nat × Tree :=
  match ensureDirectory t cwd p.parent with
  | (.error f, t') => (.error f, t')
  | (.ok (), t') =>
    let temporary := temporaryPath cwd p
    if p.hasNul then (.error .nulInPath, t')
    else match t'.slot [] temporary with
      | .error cause => (.error (refuse cause temporary), t')
      | .ok _ => match t'.renameTarget cwd p with
        | .error cause => (.error (.refused ⟨cause, temporary.toString, some p.toString⟩), t')
        | .ok at_ => (.ok content.toUTF8.size, t'.put at_ (.file content.toUTF8))

/-- Writes a file in place.  The directories above it are created. -/
def writeInPlace (t : Tree) (cwd : Location) (p : Path) (content : String) : Except AccessFault Nat × Tree :=
  match ensureDirectory t cwd p.parent with
  | (.error f, t') => (.error f, t')
  | (.ok (), t') =>
    if p.hasNul then (.error .nulInPath, t')
    else match t'.openFile cwd p with
      | .error cause => (.error (refuse cause p), t')
      | .ok (at_, t'') => (.ok content.toUTF8.size, t''.put at_ (.file content.toUTF8))

/-- Why a text file is not read. -/
inductive ReadFault where
  | access (f : AccessFault)
  | encoding (f : Utf8.Fault)
  deriving DecidableEq, Repr

/-- The bytes of a file. -/
def readBytes (t : Tree) (cwd : Location) (p : Path) : Except AccessFault ByteArray :=
  if p.hasNul then .error .nulInPath
  else match t.find cwd p with
    | .error cause => .error (refuse cause p)
    | .ok at_ => match t.node? at_ with
      | some (.file content) => .ok content
      | _ => .error (refuse .isDirectory p)

/-- Reads a file as UTF-8 text with unified line ends. -/
def readText (t : Tree) (cwd : Location) (p : Path) : Except ReadFault String :=
  match readBytes t cwd p with
  | .error f => .error (.access f)
  | .ok bytes => match Utf8.decode bytes with
    | .error f => .error (.encoding f)
    | .ok s => .ok (String.ofList (unifyLineEnds s.toList))

end CrudScaffold.Files
