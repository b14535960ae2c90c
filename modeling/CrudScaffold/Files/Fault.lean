import CrudScaffold.Files.Path
import CrudScaffold.Text.Display

/-!
# CrudScaffold.Files.Fault — why an access to the file tree fails
-/

namespace CrudScaffold.Files

open CrudScaffold.Text

/-- Why the system refuses an access. -/
inductive Cause where
  | noSuchFile
  | busy
  | alreadyExists
  | notDirectory
  | isDirectory
  | nameTooLong
  deriving DecidableEq, Repr

/-- The number of a cause. -/
def Cause.number : Cause → Nat
  | .noSuchFile => 2
  | .busy => 16
  | .alreadyExists => 17
  | .notDirectory => 20
  | .isDirectory => 21
  | .nameTooLong => 36

/-- The wording of a cause. -/
def Cause.message : Cause → String
  | .noSuchFile => "No such file or directory"
  | .busy => "Device or resource busy"
  | .alreadyExists => "File exists"
  | .notDirectory => "Not a directory"
  | .isDirectory => "Is a directory"
  | .nameTooLong => "File name too long"

/-- A refused access: the cause, the path, and for a renaming the new path. -/
structure Refusal where
  cause : Cause
  path : String
  target : Option String
  deriving DecidableEq, Repr

/-- The wording of a refusal. -/
def Refusal.message (r : Refusal) : String :=
  let to_ := match r.target with
    | none => ""
    | some t => " -> " ++ display t
  s!"[Errno {r.cause.number}] {r.cause.message}: {display r.path}{to_}"

/-- Why an access fails: the system refuses it, or the path holds a NUL character. -/
inductive AccessFault where
  | refused (r : Refusal)
  | nulInPath
  deriving DecidableEq, Repr

/-- The wording of a failed access. -/
def AccessFault.message : AccessFault → String
  | .refused r => r.message
  | .nulInPath => "embedded null byte"

end CrudScaffold.Files
