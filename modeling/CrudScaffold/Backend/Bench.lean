import CrudScaffold.Calendar.Moment
import CrudScaffold.Failure
import CrudScaffold.Files.Access
import CrudScaffold.Journal

/-!
# CrudScaffold.Backend.Bench — what backends work on

A backend works on a file tree, reads a clock, and may run commands.  `Bench` holds these surroundings together with
what a backend remembers from call to call.  The clock and the command runner are arbitrary: the clock gives the
moment of each reading, the runner answers each call and may change the tree.

`Act σ` is an action on surroundings `σ` that adds to the journal and may fail; what it has done before a failure
stays done.  A `Backend σ` is a pair of such actions.
-/

namespace CrudScaffold.Backend

open CrudScaffold.Calendar CrudScaffold.Files

/-- A command that is run: its words, the directory in which it runs, and the seconds that it may take. -/
structure Call where
  words : List String
  directory : Path
  timeout : Float

/-- How a command ends. -/
inductive Reply where
  | timedOut
  | notStarted (reason : String)
  /-- A word holds a NUL character, which no word of a command may hold. -/
  | nulInWord
  /-- The runner stops with something else, as it does where the output is no text. -/
  | raised (x : Data.Raised)
  | finished (status : Int) (output errors : String)
  deriving DecidableEq, Repr

/-- Runs commands: the answer to the call with the given number, and the tree after it. -/
abbrev Runner := Nat → Call → Tree → Reply × Tree

/-- The surroundings of a backend, and what it remembers. -/
structure Bench where
  tree : Tree
  cwd : Location
  /-- The moment of each reading of the clock. -/
  clock : Nat → Moment
  /-- How often the clock has been read. -/
  readings : Nat
  runner : Runner
  /-- The commands that have been run. -/
  calls : List Call
  /-- The stamp of the latest migration that the backend has filed. -/
  lastStamp : Option Moment
  /-- The files that a dry run has planned, with their contents. -/
  planned : List (Path × String)

/-- Surroundings, and the journal. -/
structure Scene (σ : Type) where
  surroundings : σ
  journal : Journal

/-- An action on surroundings that adds to the journal and may fail. -/
abbrev Act (σ α : Type) := ExceptT Fault (StateM (Scene σ)) α

namespace Act

variable {σ α : Type}

/-- Adds a record to the journal. -/
def note (level : Level) (channel : Channel) (message : String) : Act σ Unit :=
  modifyThe (Scene σ) fun s => { s with journal := s.journal ++ [⟨level, channel, message⟩] }

/-- The surroundings. -/
def look : Act σ σ := return (← getThe (Scene σ)).surroundings

/-- Changes the surroundings. -/
def change (f : σ → σ) : Act σ Unit := modifyThe (Scene σ) fun s => { s with surroundings := f s.surroundings }

/-- Ends with a failure of the backend. -/
def fail (fault : BackendFault) : Act σ α := throw (.failure (.backend fault))

/-- Lets a failed access through. -/
def access : Except AccessFault α → Act σ α
  | .ok a => pure a
  | .error f => throw (.crash (.access f))

/-- Reports a refused access as a failure of the backend, and lets a fault of the path through. -/
def report (wrap : Refusal → BackendFault) : Except AccessFault α → Act σ α
  | .ok a => pure a
  | .error (.refused r) => fail (wrap r)
  | .error .nulInPath => throw (.crash (.access .nulInPath))

/-- Runs a computation that only adds to the journal. -/
def logged (action : Logged Fault α) : Act σ α := do
  let s ← getThe (Scene σ)
  let (r, journal) := action.run.run s.journal
  set { s with journal := journal }
  match r with
  | .ok a => return a
  | .error f => throw f

end Act

end CrudScaffold.Backend
