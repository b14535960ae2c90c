import CrudScaffold.Backend.Kinds
import CrudScaffold.Generation.Report

/-!
# CrudScaffold.Generation.Generate — building a slice and writing it

`generate` builds first, so that nothing is touched when the request is at fault.  Then each artifact in turn is
created and written by the backend.  The first failure of the backend ends the writing and is kept in the report,
beside the list of the files written before it.
-/

namespace CrudScaffold.Generation

open CrudScaffold.Backend CrudScaffold.Calendar CrudScaffold.Template

/-- What the writing of a list of artifacts gives: a record of each file, and the fault that ended it. -/
structure Writing where
  records : List FileRecord
  fault : Option BackendFault
  deriving DecidableEq, Repr

section

variable {σ : Type}

/-- Creates and writes one artifact. -/
def writeArtifact (b : Backend σ) (a : Artifact) : Act σ FileRecord := do
  let path ← b.create a.kind a.target
  let size ← b.write path a.content
  return FileRecord.ofContent a.target a.kind (b.shown path) path a.content size

/-- Runs an action of a backend; a failure of the backend becomes a value. -/
def attempt {α : Type} (action : Act σ α) : Act σ (Except BackendFault α) :=
  tryCatch (Except.ok <$> action) fun
    | .failure (.backend f) => return .error f
    | other => throw other

/-- Writes artifacts up to the first failure; `done` are the records of those before. -/
def writeFrom (b : Backend σ) (done : List FileRecord) : List Artifact → Act σ Writing
  | [] => return ⟨done, none⟩
  | a :: rest => do
    match ← attempt (writeArtifact b a) with
    | .ok record => writeFrom b (done ++ [record]) rest
    | .error fault => return ⟨done, some fault⟩

/-- Writes artifacts up to the first failure. -/
def writeAll (b : Backend σ) (artifacts : List Artifact) : Act σ Writing := writeFrom b [] artifacts

/-- The state of a run: the phases of its build, the surroundings of its backend, and the journal. -/
structure Session (σ : Type) where
  history : List Phase
  surroundings : σ
  journal : Journal

/-- A step of a run. -/
abbrev Running (σ α : Type) := ExceptT Fault (StateM (Session σ)) α

namespace Running

/-- Runs a step of a build. -/
def ofBuilding {α : Type} (step : Building α) : Running σ α := do
  let s ← getThe (Session σ)
  let (r, p) := step.run.run ⟨s.history, s.journal⟩
  set { s with history := p.history, journal := p.journal }
  match r with
  | .ok a => return a
  | .error f => throw f

/-- Runs an action of a backend. -/
def ofAct {α : Type} (action : Act σ α) : Running σ α := do
  let s ← getThe (Session σ)
  let (r, scene) := action.run.run ⟨s.surroundings, s.journal⟩
  set { s with surroundings := scene.surroundings, journal := scene.journal }
  match r with
  | .ok a => return a
  | .error f => throw f

/-- Adds a record to the journal. -/
def note (level : Level) (message : String) : Running σ Unit :=
  modifyThe (Session σ) fun s => { s with journal := s.journal ++ [⟨level, .generation, message⟩] }

end Running

/-- The report of a slice that a backend has written as far as `w` tells. -/
def reportOf (b : Backend σ) (started : Moment) (r : Request) (s : Slice) (w : Writing) : Report :=
  let entity := Text.strip r.entity
  { success := w.fault.isNone
    entity := entity
    backend := b.name
    projectRoot := b.root.toString
    seconds := 0.0
    steps := [
      ⟨"Build Artifacts", true, 0.0, s!"{s.fileCount} artifacts, {Number.grouped s.lineCount} lines"⟩,
      ⟨"Write Artifacts", w.fault.isNone, 0.0, s!"{w.records.length}/{s.fileCount} files via {b.name}"⟩]
    warnings := s.warnings
    errors := (w.fault.map BackendFault.message).toList
    skipped := s.skipped
    manifest := some ⟨entity, started.exportText, b.root.toString, b.name, w.records⟩
    failure := w.fault.map Failure.backend }

/-- Builds the slice of a request and writes it.  `v` are the files as the template store sees them, `started` is
the moment for the manifest. -/
def Generator.generate (g : Generator) (b : Backend σ) (v : View) (started : Moment) (r : Request) :
    Running σ Report := do
  let slice ← Running.ofBuilding (g.build v r)
  let w ← Running.ofAct (writeAll b slice.artifacts)
  let report := reportOf b started r slice w
  match w.fault with
  | some fault =>
    Running.note .error s!"Backend '{b.name}' failed after {w.records.length} file(s): {fault.message}"
  | none => Running.note .info report.successMessage
  return report

end

end CrudScaffold.Generation
