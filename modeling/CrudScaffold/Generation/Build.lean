import CrudScaffold.Checks.Review
import CrudScaffold.Generation.Artifact

/-!
# CrudScaffold.Generation.Build — from a request to its artifacts

A build reads the two specs, derives the rules and renders every artifact; it writes nothing.  It passes through the
phases in their order, and `Progress.history` keeps the phases of the latest build.  A failure ends a build with the
phase `failed` and one error in the journal; every build starts again from `idle`.
-/

namespace CrudScaffold.Generation

open CrudScaffold.Backend CrudScaffold.Code CrudScaffold.Data CrudScaffold.Spec CrudScaffold.Template

/-- What is asked for: an entity with its fields and relations. -/
structure Request where
  entity : String
  fields : String
  relations : Option String
  deriving DecidableEq, Repr

/-- A request given as a record. -/
def Request.shape : Shape Request where
  start := ⟨"", "", none⟩
  fields := [
    ⟨"entity_name", true, fun v r => return { r with entity := ← anyText v }⟩,
    ⟨"field_spec", true, fun v r => return { r with fields := ← anyText v }⟩,
    ⟨"relation_spec", false, fun v r => return { r with relations := ← optionalText v }⟩]

/-- The phases of a build. -/
inductive Phase where
  | idle
  | parsingFields
  | parsingRelations
  | derivingRules
  | renderingArtifacts
  | done
  | failed
  deriving DecidableEq, Repr

/-- The name of a phase. -/
def Phase.label : Phase → String
  | .idle => "idle"
  | .parsingFields => "parsing_fields"
  | .parsingRelations => "parsing_relations"
  | .derivingRules => "deriving_rules"
  | .renderingArtifacts => "rendering_artifacts"
  | .done => "done"
  | .failed => "failed"

/-- Everything that a build gives. -/
structure Slice where
  request : Request
  fields : List Field
  relations : List Relation
  skipped : List String
  pivots : List PivotTable
  creation : RuleSet
  update : RuleSet
  artifacts : List Artifact
  phases : List Phase
  warnings : List String
  deriving DecidableEq, Repr

namespace Slice

/-- The number of artifacts. -/
def fileCount (s : Slice) : Nat := s.artifacts.length

/-- The number of lines of all artifacts. -/
def lineCount (s : Slice) : Nat := s.artifacts.foldr (fun a n => a.lines + n) 0

/-- The artifacts made from a template. -/
def artifactsFor (s : Slice) (t : TemplateName) : List Artifact := s.artifacts.filter (·.template = t)

/-- A slice as messages show it. -/
def display (s : Slice) : String :=
  s!"<GenerationResult {s.request.entity}: {s.fileCount} artifacts, {s.lineCount} lines>"

end Slice

/-- The phases of the latest build, and the journal. -/
structure Progress where
  history : List Phase
  journal : Journal

/-- The start of a run. -/
def Progress.start : Progress := ⟨[.idle], []⟩

/-- The current phase. -/
def Progress.phase (p : Progress) : Phase := p.history.getLast?.getD .idle

/-- A step of a build. -/
abbrev Building (α : Type) := ExceptT Fault (StateM Progress) α

namespace Building

/-- Enters a phase. -/
def enter (phase : Phase) : Building Unit := modifyThe Progress fun p => { p with history := p.history ++ [phase] }

/-- Forgets the phases of the build before. -/
def restart : Building Unit := modifyThe Progress fun p => { p with history := [.idle] }

/-- Adds a record to the journal. -/
def note (level : Level) (message : String) : Building Unit :=
  modifyThe Progress fun p => { p with journal := p.journal ++ [⟨level, .generation, message⟩] }

/-- Runs a computation that only adds to the journal; `wrap` makes its failure one of the build. -/
def ofLogged {ε α : Type} (wrap : ε → Fault) (action : Logged ε α) : Building α := do
  let p ← getThe Progress
  let (r, journal) := action.run.run p.journal
  set { p with journal := journal }
  match r with
  | .ok a => return a
  | .error e => throw (wrap e)

/-- A value that may be missing for a fault; `wrap` makes it a failure of the build. -/
def need {ε α : Type} (wrap : ε → Failure) : Except ε α → Building α
  | .ok a => pure a
  | .error e => throw (.failure (wrap e))

end Building

/-- Builds slices. -/
structure Generator where
  settings : Settings
  renderer : Renderer

namespace Generator

/-- The generator of the settings, with the templates of a store. -/
def ofStore (s : Settings) (store : Store) : Generator := ⟨s, store, s.strictPlaceholders, packagedPlaceholders⟩

/-- Goes through the working phases of a build. -/
def work (g : Generator) (v : View) (r : Request) : Building (EntityNames × Slice) := do
  Building.enter .parsingFields
  let names ← Building.need .name (EntityNames.ofEntity r.entity g.settings.modelNamespace)
  let fields ← Building.need .fieldSpec (parseFields (some r.fields))
  Building.enter .parsingRelations
  let list ←
    Building.ofLogged (fun f => .failure (.relationSpec f)) (parseRelations g.settings.strictRelations r.relations)
  let pivots ← Building.ofLogged (fun f => .failure (.name f)) (collectPivots names.entity list.relations)
  Building.enter .derivingRules
  let creation := RuleSet.ofFields .creation fields
  let update := RuleSet.ofFields .update fields
  let findings ←
    Building.ofLogged (fun f => .failure (.name f)) (Checks.reviewRequest fields list.relations list.skipped)
  Building.enter .renderingArtifacts
  let drafts ← Building.need .name (draftsOf names fields list.relations pivots creation update)
  let artifacts ← Building.ofLogged id (drafts.mapM (Draft.render g.renderer v))
  Building.enter .done
  let p ← getThe Progress
  return (names, {
    request := r
    fields := fields
    relations := list.relations
    skipped := list.skipped
    pivots := pivots
    creation := creation
    update := update
    artifacts := artifacts
    phases := p.history
    warnings := findings.warnings.map (·.message) })

/-- Ends a build that a fault has stopped. -/
def giveUp {α : Type} (r : Request) (fault : Fault) : Building α := do
  match fault with
  | .failure f =>
    Building.enter .failed
    Building.note .error s!"Generation for {Text.display r.entity} failed: {f.message}"
  | .crash _ => pure ()
  throw fault

/-- Builds the slice of a request. -/
def build (g : Generator) (v : View) (r : Request) : Building Slice := do
  Building.restart
  let (names, slice) ← tryCatch (g.work v r) (giveUp r)
  Building.note .info
    s!"Built {slice.fileCount} artifact(s) for {names.entity} ({slice.lineCount} line(s))."
  return slice

end Generator

end CrudScaffold.Generation
