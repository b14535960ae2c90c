import CrudScaffold.Settings

/-!
# CrudScaffold.CommandLine.Options — the options of the command

`rules` lists the options in the order in which messages list them, each with its spellings and its meaning.

Some command lines are read in one way by earlier releases of the library that takes words apart, and in another by
current ones (`Edition`).
-/

namespace CrudScaffold.CommandLine

open CrudScaffold.Data

/-- The releases of the library that takes the words apart.  For the earlier ones the text `--` that is attached to an
option gives nothing, and whatever is joined to a flag must be further short options, the sign `=` among them.  For the
current ones `--` is a text, what follows `=` is the value of the option in front, and letters that are no options are left
over. -/
inductive Edition where
  | earlier
  | current
  deriving DecidableEq, Repr

/-- What is given for an option: a text, or nothing. -/
inductive Given where
  | text (s : String)
  | nothing
  deriving DecidableEq, Repr

namespace Given

/-- What a text attached to an option gives. -/
def ofText (e : Edition) (s : String) : Given :=
  match e with
  | .earlier => if s = "--" then .nothing else .text s
  | .current => .text s

/-- What is given, as a value of a settings file: nothing is the empty list. -/
def toValue : Given → Value
  | .text s => .text s
  | .nothing => .list []

/-- The given text. -/
def text? : Given → Option String
  | .text s => some s
  | .nothing => none

end Given

/-- What a command line asks for. -/
structure Options where
  name : String
  fields : Given
  relations : Option Given
  config : Option Given
  projectRoot : Option Given
  templates : Option Given
  noPackaged : Bool
  backend : Option Given
  php : Option Given
  strictRelations : Bool
  strictPlaceholders : Bool
  force : Bool
  dryRun : Bool
  printOnly : Bool
  manifest : Option Given
  verbosity : Nat
  quiet : Bool
  deriving DecidableEq, Repr

/-- A command line without options. -/
def Options.none : Options where
  name := ""
  fields := .text ""
  relations := .none
  config := .none
  projectRoot := .none
  templates := .none
  noPackaged := false
  backend := .none
  php := .none
  strictRelations := false
  strictPlaceholders := false
  force := false
  dryRun := false
  printOnly := false
  manifest := .none
  verbosity := 0
  quiet := false

/-- What an option does. -/
inductive Meaning where
  | help
  | version
  | flag (set : Options → Options)
  /-- Takes a value, which must be one of the choices if there are any. -/
  | value (choices : List String) (set : Given → Options → Options)

/-- An option: its spellings and its meaning. -/
structure OptionRule where
  spellings : List String
  meaning : Meaning

/-- The name of an option in messages. -/
def OptionRule.label (r : OptionRule) : String := "/".intercalate r.spellings

/-- The options of the command. -/
def rules : List OptionRule := [
  ⟨["-h", "--help"], .help⟩,
  ⟨["--version"], .version⟩,
  ⟨["--fields"], .value [] fun v o => { o with fields := v }⟩,
  ⟨["--relations"], .value [] fun v o => { o with relations := some v }⟩,
  ⟨["-c", "--config"], .value [] fun v o => { o with config := some v }⟩,
  ⟨["--project-root"], .value [] fun v o => { o with projectRoot := some v }⟩,
  ⟨["--stubs"], .value [] fun v o => { o with templates := some v }⟩,
  ⟨["--no-builtin-stubs"], .flag fun o => { o with noPackaged := true }⟩,
  ⟨["--backend"], .value (BackendKind.all.map BackendKind.label) fun v o => { o with backend := some v }⟩,
  ⟨["--php"], .value [] fun v o => { o with php := some v }⟩,
  ⟨["--strict-relations"], .flag fun o => { o with strictRelations := true }⟩,
  ⟨["--strict-placeholders"], .flag fun o => { o with strictPlaceholders := true }⟩,
  ⟨["--force"], .flag fun o => { o with force := true }⟩,
  ⟨["--dry-run"], .flag fun o => { o with dryRun := true }⟩,
  ⟨["--print"], .flag fun o => { o with printOnly := true }⟩,
  ⟨["--manifest"], .value [] fun v o => { o with manifest := some v }⟩,
  ⟨["-v", "--verbose"], .flag fun o => { o with verbosity := o.verbosity + 1 }⟩,
  ⟨["-q", "--quiet"], .flag fun o => { o with quiet := true }⟩]

/-- Every spelling with its option. -/
def spellings : List (String × OptionRule) := rules.flatMap fun r => r.spellings.map (·, r)

/-- The option with a spelling. -/
def ruleOf? (spelling : String) : Option OptionRule := spellings.lookup spelling

namespace Options

/-- The settings that the options override. -/
def overrides (o : Options) : List (Value × Value) :=
  let given (key : String) (v : Option Given) : Option (Value × Value) := v.map fun g => (.text key, g.toValue)
  let switched (on : Bool) (key : String) (v : Bool) : Option (Value × Value) :=
    if on then some (.text key, .bool v) else .none
  let backend := if o.dryRun then some (.text BackendKind.dryRun.label) else o.backend
  [given "project_root" o.projectRoot, given "stubs_dir" o.templates,
    switched o.noPackaged "use_builtin_stubs" false, given "backend" backend, given "php_binary" o.php,
    switched o.strictRelations "strict_relations" true, switched o.strictPlaceholders "strict_placeholders" true,
    switched o.force "overwrite_existing" true].filterMap id

/-- A text that is given and not empty. -/
def nonEmpty (g : Option Given) : Option String := (g.bind Given.text?).filter (!·.isEmpty)

end Options

end CrudScaffold.CommandLine
