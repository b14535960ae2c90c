/-!
# CrudScaffold.Journal — the record of what a run reports

A run keeps a journal of records in the order in which they arise.  `Logged ε α` is a computation that may add
records and may fail with an `ε`; the records made before a failure are kept.
-/

namespace CrudScaffold

/-- The weight of a record. -/
inductive Level where
  | info
  | warning
  | error
  deriving DecidableEq, Repr

/-- The name of a level. -/
def Level.label : Level → String
  | .info => "INFO"
  | .warning => "WARNING"
  | .error => "ERROR"

/-- A level as a number: higher is graver. -/
def Level.rank : Level → Nat
  | .info => 1
  | .warning => 2
  | .error => 3

/-- The part of the program that a record comes from. -/
inductive Channel where
  | specs
  | checks
  | templates
  | files
  | generation
  | commandLine
  deriving DecidableEq, Repr

/-- The name of a channel in the journal. -/
def Channel.label : Channel → String
  | .specs => "crudgen.parsers"
  | .checks => "crudgen.validators"
  | .templates => "crudgen.templates"
  | .files => "crudgen.exporters"
  | .generation => "crudgen.generator"
  | .commandLine => "crudgen"

/-- One line of the journal. -/
structure Record where
  level : Level
  channel : Channel
  message : String
  deriving DecidableEq, Repr

/-- The records of a run, the first one first. -/
abbrev Journal := List Record

/-- A computation that adds to the journal and may fail. -/
abbrev Logged (ε α : Type) := ExceptT ε (StateM Journal) α

/-- Adds a record to the journal. -/
def note {ε : Type} (level : Level) (channel : Channel) (message : String) : Logged ε Unit :=
  modifyThe Journal (· ++ [⟨level, channel, message⟩])

/-- Runs a computation on an empty journal. -/
def Logged.start {ε α : Type} (action : Logged ε α) : Except ε α × Journal := action.run.run []

end CrudScaffold
