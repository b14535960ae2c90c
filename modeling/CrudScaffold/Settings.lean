import CrudScaffold.Data.Shape
import CrudScaffold.Text.Blank

/-!
# CrudScaffold.Settings — where artifacts go, and how strictly requests are read

`Settings.shape` says how settings are read from loosely typed values and how one of them is assigned: both go
through the same rule for each field, so that a setting never holds a value that its rule rejects.
-/

namespace CrudScaffold

open CrudScaffold.Data

/-- How files are created. -/
inductive BackendKind where
  | filesystem
  | artisan
  | dryRun
  deriving DecidableEq, Repr

/-- The name of a backend. -/
def BackendKind.label : BackendKind → String
  | .filesystem => "filesystem"
  | .artisan => "artisan"
  | .dryRun => "dry_run"

/-- All backends, in the order in which messages list them. -/
def BackendKind.all : List BackendKind := [.filesystem, .artisan, .dryRun]

/-- The settings of a run. -/
structure Settings where
  projectRoot : String
  modelsPath : String
  controllersPath : String
  requestsPath : String
  migrationsPath : String
  modelNamespace : String
  templatesPath : Option String
  usePackaged : Bool
  backend : BackendKind
  phpBinary : String
  timeout : Float
  overwrite : Bool
  strictRelations : Bool
  strictPlaceholders : Bool

namespace Settings

/-- The settings of a run that sets none. -/
def default : Settings where
  projectRoot := "."
  modelsPath := "app/Models"
  controllersPath := "app/Http/Controllers"
  requestsPath := "app/Http/Requests"
  migrationsPath := "database/migrations"
  modelNamespace := "App\\Models"
  templatesPath := none
  usePackaged := true
  backend := .filesystem
  phpBinary := "php"
  timeout := 120.0
  overwrite := false
  strictRelations := false
  strictPlaceholders := false

/-- A namespace without the separators at its two ends. -/
def trimSeparators (cs : List Char) : List Char :=
  ((cs.dropWhile (· == '\\')).reverse.dropWhile (· == '\\')).reverse

/-- A namespace: at least one segment, without separators at its ends. -/
def namespaceText (v : Value) : Except Complaint String := do
  let s ← someText v
  let trimmed := trimSeparators s.toList
  if trimmed.isEmpty then throw .refused else return String.ofList trimmed

/-- The rule of each setting. -/
def shape : Shape Settings where
  start := default
  fields := [
    ⟨"project_root", false, fun v s => return { s with projectRoot := ← someText v }⟩,
    ⟨"models_path", false, fun v s => return { s with modelsPath := ← someText v }⟩,
    ⟨"controllers_path", false, fun v s => return { s with controllersPath := ← someText v }⟩,
    ⟨"requests_path", false, fun v s => return { s with requestsPath := ← someText v }⟩,
    ⟨"migrations_path", false, fun v s => return { s with migrationsPath := ← someText v }⟩,
    ⟨"model_namespace", false, fun v s => return { s with modelNamespace := ← namespaceText v }⟩,
    ⟨"stubs_dir", false, fun v s => return { s with templatesPath := ← optionalText v }⟩,
    ⟨"use_builtin_stubs", false, fun v s => return { s with usePackaged := ← switch v }⟩,
    ⟨"backend", false, fun v s =>
      return { s with backend := ← oneOf (BackendKind.all.map fun b => (b.label, b)) v }⟩,
    ⟨"php_binary", false, fun v s => return { s with phpBinary := ← someText v }⟩,
    ⟨"artisan_timeout", false, fun v s => return { s with timeout := ← positiveNumber v }⟩,
    ⟨"overwrite_existing", false, fun v s => return { s with overwrite := ← switch v }⟩,
    ⟨"strict_relations", false, fun v s => return { s with strictRelations := ← switch v }⟩,
    ⟨"strict_placeholders", false, fun v s => return { s with strictPlaceholders := ← switch v }⟩]

/-- The settings as a record. -/
def entries (s : Settings) : List (String × Value) := [
  ("project_root", .text s.projectRoot),
  ("models_path", .text s.modelsPath),
  ("controllers_path", .text s.controllersPath),
  ("requests_path", .text s.requestsPath),
  ("migrations_path", .text s.migrationsPath),
  ("model_namespace", .text s.modelNamespace),
  ("stubs_dir", (s.templatesPath.map Value.text).getD .null),
  ("use_builtin_stubs", .bool s.usePackaged),
  ("backend", .text s.backend.label),
  ("php_binary", .text s.phpBinary),
  ("artisan_timeout", .float s.timeout),
  ("overwrite_existing", .bool s.overwrite),
  ("strict_relations", .bool s.strictRelations),
  ("strict_placeholders", .bool s.strictPlaceholders)]

end Settings

end CrudScaffold
