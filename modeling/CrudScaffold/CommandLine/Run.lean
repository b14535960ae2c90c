import CrudScaffold.CommandLine.Arguments
import CrudScaffold.Generation.Generate
import CrudScaffold.SettingsFile
import CrudScaffold.Template.Store
import CrudScaffold.Yaml.Reader

/-!
# CrudScaffold.CommandLine.Run — what the command does

The command loads its settings, and prints the artifacts or writes them.  What it shows is a list of events: records
of the journal, text for the standard output, and text beside it.  How grave a record must be to be shown depends on
the options.

The exit code is 0 for a success, 1 for a fault in the name or the specs, 2 for a fault in the templates or in the
command line, 3 for a failure of the backend, and 4 for the settings and the manifest.
-/

namespace CrudScaffold.CommandLine

open CrudScaffold.Backend CrudScaffold.Calendar CrudScaffold.Files CrudScaffold.Generation

/-- What the command finds at its host: the readers of settings files, and how words are taken apart. -/
structure Host where
  readers : Settings.Readers
  edition : Edition

/-- The host that runs. -/
def Host.standard : Host := ⟨⟨Yaml.read, 980⟩, .earlier⟩

/-- Something that the command shows. -/
inductive Event where
  | record (r : Record)
  | output (text : String)
  | diagnostic (text : String)
  deriving DecidableEq, Repr

/-- The surroundings of the command, and what it has shown. -/
structure Desk where
  bench : Bench
  events : List Event

/-- A step of the command. -/
abbrev Step (α : Type) := ExceptT Fault (StateM Desk) α

namespace Step

/-- Shows something. -/
def emit (e : Event) : Step Unit := modifyThe Desk fun d => { d with events := d.events ++ [e] }

/-- Adds a record to the journal. -/
def log (level : Level) (message : String) : Step Unit := emit (.record ⟨level, .commandLine, message⟩)

/-- Writes a line to the standard output. -/
def print (line : String) : Step Unit := emit (.output (line ++ "\n"))

/-- Runs a step of a generation.  A failure becomes a value. -/
def attempt {α : Type} (action : Running Bench α) : Step (Except Failure α) := do
  let d ← getThe Desk
  let (r, s) := action.run.run ⟨[.idle], d.bench, []⟩
  set { d with bench := s.surroundings, events := d.events ++ s.journal.map Event.record }
  match r with
  | .ok a => return .ok a
  | .error (.failure f) => return .error f
  | .error crash => throw crash

/-- The files as the template store sees them. -/
def view : Step Template.View := do
  let b := (← getThe Desk).bench
  return ⟨b.tree, b.cwd⟩

end Step

/-- The exit code after a failure, which is shown. -/
def failWith (f : Failure) : Step Nat := do
  Step.log .error f.message
  return f.exitCode

/-- The settings of the options. -/
def loadSettings (host : Host) (o : Options) (b : Bench) : Except Fault Settings :=
  Settings.load host.readers b.tree b.cwd ((Options.nonEmpty o.config).map Path.ofString) o.overrides

/-- The generator of the options. -/
def loadGenerator (host : Host) (o : Options) (b : Bench) : Except Fault Generator := do
  let s ← loadSettings host o b
  return Generator.ofStore s (← Template.Store.ofSettings ⟨b.tree, b.cwd⟩ s)

/-- The request of the options, which is rejected where an option is given nothing. -/
def requestOf (o : Options) : Except Fault Request :=
  let relations : Data.Value := (o.relations.map Given.toValue).getD .null
  let record : List (Data.Value × Data.Value) := [(.text "entity_name", .text o.name),
    (.text "field_spec", o.fields.toValue), (.text "relation_spec", relations)]
  match Request.shape.read record with
  | .ok r => .ok r
  | .error rejections => .error (.crash (.badRequest rejections))

/-- Prints the artifacts and writes nothing. -/
def runPrint (g : Generator) (r : Request) : Step Nat := do
  match ← Step.attempt (Running.ofBuilding (g.build (← Step.view) r)) with
  | .error f => failWith f
  | .ok slice =>
    slice.artifacts.forM fun a => do
      Step.print s!"// ---- {a.template.label}: {a.target} ----"
      Step.print a.content
    return 0

/-- Writes the manifest of a report to a file; tells whether the file could be written. -/
def writeManifest (file : String) (m : Manifest) : Step Bool := do
  let path := Path.ofString file
  let d ← getThe Desk
  let (r, tree) := writeAtomically d.bench.tree d.bench.cwd path (m.text (some 2) ++ "\n")
  set { d with bench := { d.bench with tree := tree } }
  match r with
  | .ok _ =>
    Step.log .info s!"Manifest written to {path}."
    return true
  | .error (.refused refusal) =>
    Step.log .error s!"Could not write manifest {path}: {refusal.message}"
    return false
  | .error .nulInPath => throw (.crash (.access .nulInPath))

/-- Tells how a generation ended. -/
def tellReport (o : Options) (report : Report) : Step Nat := do
  if 1 ≤ o.verbosity then Step.emit (.diagnostic (report.summary ++ "\n"))
  match report.failure with
  | some f =>
    Step.log .error f.message
    ((report.manifest.map Manifest.files).getD []).forM fun record =>
      Step.log .warning s!"Already written: {record.relativePath}"
    return f.exitCode
  | none =>
    if !o.quiet then Step.print report.successMessage
    return 0

/-- Builds the artifacts and writes them. -/
def runGeneration (started : Moment) (g : Generator) (o : Options) (r : Request) : Step Nat := do
  let b := (← getThe Desk).bench
  match Layout.ofSettings g.settings b.cwd with
  | .error fault => throw (.crash (.access fault))
  | .ok layout =>
    match ← Step.attempt (g.generate (.ofLayout layout) (← Step.view) started r) with
    | .error f => failWith f
    | .ok report =>
      match Options.nonEmpty o.manifest, report.manifest with
      | some file, some m =>
        if ← writeManifest file m then tellReport o report else return FailureClass.general.exitCode
      | _, _ => tellReport o report

/-- Runs the command with its options. -/
def execute (host : Host) (started : Moment) (o : Options) : Step Nat := do
  match loadGenerator host o (← getThe Desk).bench with
  | .error (.failure f) => failWith f
  | .error crash => throw crash
  | .ok g =>
    Step.log .info s!"Entity:  {o.name}"
    Step.log .info s!"Root:    {g.settings.projectRoot}"
    Step.log .info s!"Backend: {g.settings.backend.label}"
    let r ← requestOf o
    let code ← if o.printOnly then runPrint g r else runGeneration started g o r
    if code ≠ 0 then Step.log .error s!"crudgen failed with exit code {code}."
    return code

/-- How grave a record must be to be shown. -/
def threshold (o : Options) : Level :=
  if o.quiet then .error else if o.verbosity = 0 then .warning else .info

/-- What a run of the command leaves: its exit code unless a fault was let through, what it has shown, and the
surroundings. -/
structure Outcome where
  status : Except Fault Nat
  threshold : Level
  events : List Event
  bench : Bench

/-- The exit code of a refused command line. -/
def usageExit : Nat := 2

/-- Runs the command on a list of words. -/
def run (host : Host) (started : Moment) (b : Bench) (words : List String) : Outcome :=
  match parse host.edition words with
  | .error .help => ⟨.ok 0, .warning, [.output "usage: crudgen [options] NAME\n"], b⟩
  | .error .version => ⟨.ok 0, .warning, [.output s!"CrudGen v{version}\n"], b⟩
  | .error (.refused fault) => ⟨.ok usageExit, .warning, [.diagnostic s!"crudgen: error: {fault.message}\n"], b⟩
  | .ok o =>
    let (status, d) := (execute host started o).run.run ⟨b, []⟩
    ⟨status, threshold o, d.events, d.bench⟩

/-- A record as a line; `time` is the time of day. -/
def recordLine (time : String) (r : Record) : String :=
  s!"{time} │ {Report.padRight 8 r.level.label} │ {r.channel.label} │ {r.message}\n"

namespace Outcome

/-- The standard output. -/
def output (x : Outcome) : String :=
  String.join (x.events.map fun
    | .output text => text
    | _ => "")

/-- The text beside the standard output: the records that are grave enough, and the summary. -/
def diagnostics (x : Outcome) (time : String) : String :=
  String.join (x.events.map fun
    | .record r => if x.threshold.rank ≤ r.level.rank then recordLine time r else ""
    | .diagnostic text => text
    | .output _ => "")

end Outcome

end CrudScaffold.CommandLine
