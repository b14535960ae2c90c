import CrudScaffold.Data.Value

/-!
# CrudScaffold.Checks.Issue — findings about a request, and lists of them
-/

namespace CrudScaffold.Checks

open CrudScaffold.Data

/-- How grave an issue is. -/
inductive Severity where
  | error
  | warning
  deriving DecidableEq, Repr

/-- The name of a severity. -/
def Severity.label : Severity → String
  | .error => "error"
  | .warning => "warning"

/-- The name of a severity in capitals. -/
def Severity.headline : Severity → String
  | .error => "ERROR"
  | .warning => "WARNING"

/-- One finding, with the values that it is about. -/
structure Issue where
  severity : Severity
  code : String
  message : String
  context : List (String × Value)

/-- An issue as one line. -/
def Issue.text (i : Issue) : String := s!"[{i.severity.headline}] {i.code}: {i.message}"

/-- A warning. -/
def warning (code message : String) (context : List (String × Value)) : Issue := ⟨.warning, code, message, context⟩

/-- The issues found, in order. -/
abbrev Findings := List Issue

namespace Findings

/-- The issues that are errors. -/
def errors (f : Findings) : List Issue := f.filter (·.severity = .error)

/-- The issues that are warnings. -/
def warnings (f : Findings) : List Issue := f.filter (·.severity = .warning)

/-- There is no error. -/
def isValid (f : Findings) : Bool := f.all (·.severity ≠ .error)

/-- The codes of all issues. -/
def codes (f : Findings) : List String := f.map (·.code)

/-- How many errors and warnings there are. -/
def summary (f : Findings) : String :=
  s!"Validation: {(errors f).length} error(s), {(warnings f).length} warning(s)."

/-- The findings as messages show them. -/
def display (f : Findings) : String := s!"<ValidationResult {summary f}>"

end Findings

end CrudScaffold.Checks
