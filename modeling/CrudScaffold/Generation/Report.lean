import CrudScaffold.Failure
import CrudScaffold.Generation.Build
import CrudScaffold.Generation.Manifest
import CrudScaffold.Number.Written

/-!
# CrudScaffold.Generation.Report — what a run has done
-/

namespace CrudScaffold.Generation

/-- One step of a run: its outcome, and the seconds that it took. -/
structure StepOutcome where
  name : String
  success : Bool
  seconds : Float
  detail : String

/-- The report of a run. -/
structure Report where
  success : Bool
  entity : String
  backend : String
  projectRoot : String
  seconds : Float
  steps : List StepOutcome
  warnings : List String
  errors : List String
  skipped : List String
  manifest : Option Manifest
  failure : Option Failure

namespace Report

/-- The number of written files. -/
def fileCount (r : Report) : Nat := (r.manifest.map Manifest.fileCount).getD 0

/-- The number of bytes of the written files. -/
def byteCount (r : Report) : Int := (r.manifest.map Manifest.byteCount).getD 0

/-- The number of lines of the written files. -/
def lineCount (r : Report) : Nat := (r.manifest.map Manifest.lineCount).getD 0

/-- The line that tells of a success. -/
def successMessage (r : Report) : String := s!"CRUD for {r.entity} created successfully."

/-- A text filled up with blanks behind it. -/
def padRight (width : Nat) (s : String) : String := s ++ String.ofList (List.replicate (width - s.length) ' ')

/-- A text filled up with blanks in front of it. -/
def padLeft (width : Nat) (s : String) : String := String.ofList (List.replicate (width - s.length) ' ') ++ s

/-- A line of 60 marks. -/
def rule (mark : Char) : String := String.ofList (List.replicate 60 mark)

/-- The line between two parts of a summary. -/
def thinRule : String := rule '─'

/-- A part of a summary: its heading and its lines; a part without lines is left out. -/
def part (heading : String) (lines : List String) : List String := if lines.isEmpty then [] else heading :: lines

/-- The line of a step. -/
def stepLine (s : StepOutcome) : String :=
  let icon := if s.success then "✓" else "✗"
  s!"    {icon} {padRight 24 s.name} {padLeft 7 (Number.fixed3 s.seconds)}s  {s.detail}"

/-- The lines of a summary. -/
def summaryLines (r : Report) : List String :=
  let status := if r.success then "✅ SUCCESS" else "❌ FAILED"
  let files := (r.manifest.map Manifest.files).getD []
  [rule '=', "  CrudGen — Generation Report", rule '=',
    s!"  Status:           {status}",
    s!"  Entity:           {r.entity}",
    s!"  Backend:          {r.backend}",
    s!"  Project root:     {r.projectRoot}",
    s!"  Files written:    {r.fileCount}",
    s!"  Total lines:      {Number.grouped r.lineCount}",
    s!"  Total bytes:      {Number.grouped r.byteCount}",
    s!"  Total time:       {Number.fixed3 r.seconds}s",
    thinRule] ++
  part "  Pipeline Steps:" (r.steps.map stepLine) ++
  part (thinRule ++ "\n  Files:") (files.map fun f => "    + " ++ f.relativePath) ++
  part (thinRule ++ s!"\n  Warnings ({r.warnings.length}):") (r.warnings.map ("    ⚠ " ++ ·)) ++
  part (thinRule ++ s!"\n  Errors ({r.errors.length}):") (r.errors.map ("    ✗ " ++ ·)) ++
  [rule '=']

/-- The report as text. -/
def summary (r : Report) : String := "\n".intercalate r.summaryLines

end Report

end CrudScaffold.Generation
