import CrudScaffold.Files.Fault
import CrudScaffold.Spec.Relation
import CrudScaffold.Text.Utf8

/-!
# CrudScaffold.Failure — what can go wrong in a run

A `Failure` is a cause that the program knows and reports; a `Crash` is a cause that it lets through.  The wording of
every failure is in `Failure.message`; `Failure.notice` adds the class of the failure and the values that it is about.
-/

namespace CrudScaffold

open CrudScaffold.Data CrudScaffold.Files CrudScaffold.Naming CrudScaffold.Spec

/-- Why a backend cannot create or write an artifact. -/
inductive BackendFault where
  /-- The migrations directory cannot be listed. -/
  | unlisted (directory : Path) (reason : Refusal)
  /-- An artifact without a name. -/
  | unnamed (kind name : String)
  /-- The file is there already; `shown` is its path as seen from the project root. -/
  | occupied (shown : String) (path : Path) (name : String)
  | notCreated (shown : String) (path : Path) (name : String) (reason : Refusal)
  | notWritten (shown : String) (path : Path) (reason : Refusal)
  /-- The project root holds no command script. -/
  | noScript (root script : Path) (name : String)
  /-- The command took longer than `limit` seconds. -/
  | timedOut (command limit name : String)
  | notStarted (command reason name : String)
  | badStatus (command : String) (status : Int) (detail name : String)
  /-- The command succeeded without leaving a migration of the name. -/
  | noMigration (shown : String) (directory : Path) (name : String)
  /-- The command succeeded without leaving the file. -/
  | noFile (shown : String) (path : Path) (name : String)
  /-- A failure that a backend of another kind reports in its own words. -/
  | reported (text : String) (path : Option Path) (name : Option String)
  deriving DecidableEq, Repr

/-- The wording of a backend fault. -/
def BackendFault.message : BackendFault → String
  | .unlisted directory reason => s!"Cannot list migrations in {directory}: {reason.message}"
  | .unnamed kind _ => s!"Empty artifact name for {kind}."
  | .occupied shown _ _ => s!"{shown} already exists; use --force to overwrite it."
  | .notCreated shown _ _ reason => s!"Could not create {shown}: {reason.message}"
  | .notWritten shown _ reason => s!"Failed to write {shown}: {reason.message}"
  | .noScript root _ _ => s!"No artisan script in {root}; is this a Laravel project?"
  | .timedOut command limit _ => s!"'{command}' timed out after {limit}s."
  | .notStarted command reason _ => s!"Could not run '{command}': {reason}"
  | .badStatus command status detail _ => s!"'{command}' exited with status {status}: {detail}"
  | .noMigration shown _ name =>
    s!"artisan reported success but no migration matching '{name}' exists in {shown}."
  | .noFile shown _ _ => s!"artisan reported success but {shown} does not exist."
  | .reported text _ _ => text

/-- The path that a backend fault is about. -/
def BackendFault.path? : BackendFault → Option Path
  | .unlisted directory _ => some directory
  | .occupied _ path _ => some path
  | .notCreated _ path _ _ => some path
  | .notWritten _ path _ => some path
  | .noScript _ script _ => some script
  | .noMigration _ directory _ => some directory
  | .noFile _ path _ => some path
  | .reported _ path _ => path
  | _ => none

/-- The artifact that a backend fault is about. -/
def BackendFault.artifact? : BackendFault → Option String
  | .unlisted _ _ => none
  | .notWritten _ _ _ => none
  | .unnamed _ name => some name
  | .occupied _ _ name => some name
  | .notCreated _ _ name _ => some name
  | .noScript _ _ name => some name
  | .timedOut _ _ name => some name
  | .notStarted _ _ name => some name
  | .badStatus _ _ _ name => some name
  | .noMigration _ _ name => some name
  | .noFile _ _ name => some name
  | .reported _ _ name => name

/-- Why there is no configuration. -/
inductive SettingsFault where
  | missingFile (path : Path)
  | notAFile (path : Path)
  | unreadable (path : Path) (reason : Refusal)
  | badJson (path : Path)
  | badYaml (path : Path)
  /-- The top level is not a map but a value of the kind `found`. -/
  | notAMap (path : Path) (found : String)
  | badSection (path : Path) (key : String)
  | rejected (path : Option Path) (rejections : List Rejection)
  | noTemplateDirectory (path : Path)
  deriving DecidableEq, Repr

/-- The wording of a settings fault without the details of a reader. -/
def SettingsFault.headline : SettingsFault → String
  | .missingFile path => s!"Config file not found: {path}"
  | .notAFile path => s!"Config path is not a file: {path}"
  | .unreadable path reason => s!"Cannot read config file {path}: {reason.message}"
  | .badJson path => s!"Invalid JSON in {path}"
  | .badYaml path => s!"Invalid YAML in {path}"
  | .notAMap path found => s!"Expected a mapping at top level of {path}, got {found}."
  | .badSection path key => s!"Section '{key}' in {path} must be a mapping."
  | .rejected _ _ => "Invalid configuration"
  | .noTemplateDirectory path => s!"Stub directory does not exist: {path}"

/-- What a reader found wrong. -/
def SettingsFault.detail? : SettingsFault → Option String
  | .badJson _ => some "the text is not a JSON value"
  | .badYaml _ => some "the text is not a YAML document"
  | .rejected _ rejections =>
    some (Rejection.listing rejections)
  | _ => none

/-- The path that a settings fault is about. -/
def SettingsFault.path? : SettingsFault → Option Path
  | .missingFile path => some path
  | .notAFile path => some path
  | .unreadable path _ => some path
  | .badJson path => some path
  | .badYaml path => some path
  | .notAMap path _ => some path
  | .badSection path _ => some path
  | .rejected path _ => path
  | .noTemplateDirectory path => some path

/-- A cause that the program reports. -/
inductive Failure where
  | name (fault : NameFault)
  | fieldSpec (fault : FieldFault)
  | relationSpec (fault : RelationFault)
  /-- No store has the template; `searched` are the places looked at. -/
  | noTemplate (template : String) (searched : List String)
  /-- The values for these placeholders are not given. -/
  | noValue (template : String) (missing : List String)
  | backend (fault : BackendFault)
  | settings (fault : SettingsFault)
  deriving DecidableEq, Repr

/-- A cause that the program lets through. -/
inductive Crash where
  | access (fault : AccessFault)
  /-- A settings file is not UTF-8 text. -/
  | encoding (fault : Text.Utf8.Fault)
  /-- The calendar ends. -/
  | endOfCalendar
  /-- Something in a settings file stands for no value. -/
  | value (fault : ValueFault)
  /-- A request whose parts are not what they have to be. -/
  | badRequest (rejections : List Rejection)
  /-- Something that code from elsewhere raises. -/
  | foreign (x : Raised)
  deriving DecidableEq, Repr

/-- Why a run stops. -/
inductive Fault where
  | failure (f : Failure)
  | crash (c : Crash)
  deriving DecidableEq, Repr

/-- The wording of a crash. -/
def Crash.message : Crash → String
  | .access f => f.message
  | .encoding f => f.message
  | .endOfCalendar => "date value out of range"
  | .value f => f.message
  | .badRequest rejections => "Invalid request: " ++ Rejection.listing rejections
  | .foreign x => x.text

/-- Lets a failed access through. -/
def letThrough {α : Type} : Except AccessFault α → Except Fault α
  | .ok a => .ok a
  | .error f => .error (.crash (.access f))

/-- The classes of failures. -/
inductive FailureClass where
  | general
  | name
  | fieldSpec
  | relationSpec
  | noTemplate
  | noValue
  | backend
  | settings
  deriving DecidableEq, Repr

/-- The identifier of a class of failures. -/
def FailureClass.code : FailureClass → String
  | .general => "E_CRUDGEN"
  | .name => "E_INVALID_NAME"
  | .fieldSpec => "E_FIELD_SPEC"
  | .relationSpec => "E_RELATION_SPEC"
  | .noTemplate => "E_TEMPLATE_NOT_FOUND"
  | .noValue => "E_TEMPLATE_CONTEXT"
  | .backend => "E_BACKEND"
  | .settings => "E_CONFIG"

/-- The exit code of a run that a failure of the class ends. -/
def FailureClass.exitCode : FailureClass → Nat
  | .name => 1
  | .fieldSpec => 1
  | .relationSpec => 1
  | .noTemplate => 2
  | .noValue => 2
  | .backend => 3
  | .general => 4
  | .settings => 4

/-- A failure as it is reported: its class, its text, and the values that it is about. -/
structure Notice where
  kind : FailureClass
  message : String
  context : List (String × Value)

/-- A notice about those of the values that are given. -/
def Notice.about (kind : FailureClass) (message : String) (context : List (String × Option Value)) : Notice :=
  ⟨kind, message, context.filterMap fun (key, v) => v.map (key, ·)⟩

/-- The notice that no store has a template. -/
def Notice.noTemplate (template : String) (searched : List String) : Notice :=
  let places := ", ".intercalate searched
  let where_ := if searched.isEmpty then "" else s!" (searched: {places})"
  .about .noTemplate s!"Template '{template}' not found{where_}."
    [("template_name", some (.text template)),
      ("searched", if searched.isEmpty then none else some (.texts searched))]

/-- Texts in ascending order. -/
def sortTexts (items : List String) : List String := items.mergeSort fun a b => !(b < a)

/-- The notice that values for placeholders are not given. -/
def Notice.noValue (template : String) (missing : List String) : Notice :=
  let sorted := sortTexts missing
  let names := ", ".intercalate sorted
  .about .noValue s!"Template '{template}' is missing context for placeholder(s): {names}."
    [("template_name", some (.text template)), ("missing", some (.texts sorted))]

/-- The notice of a failure. -/
def Failure.notice : Failure → Notice
  | .name f => .about .name f.message [("name", f.name?.map .text)]
  | .fieldSpec f =>
    .about .fieldSpec f.message [("token", some (.text f.token)), ("position", f.position?.map fun p => .int p)]
  | .relationSpec f =>
    .about .relationSpec f.message [("token", some (.text f.token)), ("position", some (.int f.position))]
  | .noTemplate template searched => .noTemplate template searched
  | .noValue template missing => .noValue template missing
  | .backend f =>
    .about .backend f.message
      [("path", f.path?.map fun p => .text p.toString), ("artifact", f.artifact?.map .text)]
  | .settings f =>
    .about .settings (f.headline ++ (f.detail?.map (": " ++ ·)).getD "")
      [("path", f.path?.map fun p => .text p.toString)]

/-- The text of a failure. -/
def Failure.message (f : Failure) : String := f.notice.message

/-- The text of a failure without the details of a reader. -/
def Failure.headline : Failure → String
  | .settings f => f.headline
  | f => f.message

/-- The exit code of a run that the failure ends. -/
def Failure.exitCode (f : Failure) : Nat := f.notice.kind.exitCode

end CrudScaffold
