import CrudScaffold.CommandLine.Places
import CrudScaffold.CommandLine.Run
import Std.Time.Zoned

/-!
# CrudScaffold.Main — the command

The command copies the places of the disk that its run looks at into a tree, runs on the tree, and writes what has
changed in it back to the disk.  It starts no other program: with the artisan backend every command is answered as one
that could not be started.
-/

namespace CrudScaffold.Main

open CrudScaffold.Backend CrudScaffold.Calendar CrudScaffold.CommandLine CrudScaffold.Files

/-- What stands at a location of the disk. -/
def nodeOnDisk (at_ : Location) : IO (Option Node) := do
  let place := (← IO.currentDir) / (Path.ofLocation at_).toString
  if ← place.isDir then return some .directory
  else if ← place.pathExists then return some (.file (← IO.FS.readBinFile place))
  else return none

/-- The names of the entries of a directory of the disk. -/
def namesOnDisk (at_ : Location) : IO (List String) := do
  let place := (← IO.currentDir) / (Path.ofLocation at_).toString
  return (← place.readDir).toList.map (·.fileName)

/-- Copies what stands at a location of the disk. -/
def copyNode (t : Tree) (at_ : Location) : IO Tree := do
  if (t.node? at_).isSome then return t
  match ← nodeOnDisk at_ with
  | some n => return t.put at_ n
  | none => return t

/-- Copies a place of the disk, and the directories on the way to it. -/
def copyPlace (cwd : Location) (t : Tree) (p : Place) : IO Tree := do
  if p.path.hasNul then return t
  let ways := (List.range (p.path.names.length + 1)).map fun n => { p.path with names := p.path.names.take n }
  let t ← ways.foldlM (fun t way => copyNode t (way.locationFrom cwd)) t
  let at_ := p.path.locationFrom cwd
  if p.listed && t.isDirectoryAt at_ then
    (← namesOnDisk at_).foldlM (fun t name => copyNode t (at_ ++ [name])) t
  else return t

/-- Writes a node to the disk. -/
def writeNode (at_ : Location) (n : Node) : IO Unit := do
  let place := (Path.ofLocation at_).toString
  match n with
  | .directory => IO.FS.createDirAll place
  | .file content =>
    IO.FS.writeBinFile (place ++ ".tmp") content
    IO.FS.rename (place ++ ".tmp") place

/-- The moment of a date and a time of day. -/
def momentOf (t : Std.Time.PlainDateTime) : Moment :=
  ⟨t.date.year.toInt.toNat, t.date.month.toNat, t.date.day.toNat,
    t.time.hour.toNat * 3600 + t.time.minute.toNat * 60 + t.time.second.toNat⟩

/-- The surroundings of a run whose clock stands at `now`. -/
def benchOf (tree : Tree) (cwd : Location) (now : Moment) : Bench where
  tree := tree
  cwd := cwd
  clock := fun _ => now
  readings := 0
  runner := fun _ _ t => (.notStarted "no program can be started from here", t)
  calls := []
  lastStamp := none
  planned := []

/-- Copies the places that a run with these words looks at. -/
def copyPlaces (host : Host) (cwd : Location) (now : Moment) (words : List String) : IO Tree := do
  let start ← copyPlace cwd .empty ⟨Path.ofLocation cwd, false⟩
  match parse host.edition words with
  | .error _ => return start
  | .ok o =>
    let t ← (settingsPlaces o).foldlM (copyPlace cwd) start
    match loadSettings host o (benchOf t cwd now) with
    | .error _ => return t
    | .ok s => (placesOf o s cwd).foldlM (copyPlace cwd) t

/-- The exit code of a run that lets a fault through. -/
def crashExit : UInt32 := 1

/-- Shows what a run has shown, and gives its exit code. -/
def present (x : Outcome) (time : String) : IO UInt32 := do
  IO.print x.output
  IO.eprint (x.diagnostics time)
  match x.status with
  | .ok code => return UInt32.ofNat code
  | .error (.failure f) =>
    IO.eprintln f.message
    return UInt32.ofNat f.exitCode
  | .error (.crash c) =>
    IO.eprintln c.message
    return crashExit

end CrudScaffold.Main

open CrudScaffold CrudScaffold.CommandLine CrudScaffold.Files

/-- Runs the command on the words of its command line. -/
def main (words : List String) : IO UInt32 := do
  let cwd := (Path.ofString (← IO.currentDir).toString).names
  let now := Main.momentOf (← Std.Time.PlainDateTime.now)
  let universal := Std.Time.DateTime.ofTimestamp (← Std.Time.Timestamp.now) Std.Time.TimeZone.ZoneRules.UTC
  let tree ← Main.copyPlaces .standard cwd now words
  let x := run .standard (Main.momentOf universal.toPlainDateTime) (Main.benchOf tree cwd now) words
  (tree.changes x.bench.tree).forM fun (at_, n) => Main.writeNode at_ n
  Main.present x (now.clockText ":")
