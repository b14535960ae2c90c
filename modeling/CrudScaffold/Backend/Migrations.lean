import CrudScaffold.Backend.Bench
import CrudScaffold.Backend.Layout

/-!
# CrudScaffold.Backend.Migrations — finding and stamping migrations

A migration file is named by a stamp, which sorts by time, and by what the migration does.  `firstFree` is the first
moment from a given one on whose stamp no file name starts with; each name can stand in the way of one moment only,
so the search ends within as many steps as there are names.
-/

namespace CrudScaffold.Backend

open CrudScaffold.Calendar CrudScaffold.Files CrudScaffold.Text

/-- The names that do not start with the stamp of a moment. -/
def besides (m : Moment) (taken : List String) : List String := taken.filter fun n => !beginsWith m.stamp n

theorem length_besides_lt {m : Moment} {taken : List String} (h : taken.any (beginsWith m.stamp) = true) :
    (besides m taken).length < taken.length := by
  obtain ⟨n, hn, hs⟩ := List.any_eq_true.1 h
  exact List.length_filter_lt_length_iff_exists.2 ⟨n, hn, by simp [hs]⟩

/-- The first moment from `m` on whose stamp none of the names starts with, if the calendar has one. -/
def firstFree (taken : List String) (m : Moment) : Option Moment :=
  if _h : taken.any (beginsWith m.stamp) = true then
    match m.next with
    | none => none
    | some later => firstFree (besides m taken) later
  else some m
termination_by taken.length
decreasing_by exact length_besides_lt _h

/-- The moment to start the search from: the clock's, but later than the latest stamp. -/
def stampAfter (last : Option Moment) (reading : Moment) : Option Moment :=
  match last with
  | none => some reading
  | some l => if l.earlier reading then some reading else l.next

/-- The greatest of the names that contain a fragment. -/
def latestWith (fragment : String) (names : List String) : Option String :=
  ((sortTexts names).filter (hasPart fragment)).getLast?

/-- The names in a directory; a missing directory has none. -/
def namesIn (t : Tree) (cwd : Location) (directory : Path) : Except AccessFault (List String) :=
  match listNames t cwd directory with
  | .error (.refused ⟨.noSuchFile, _, _⟩) => .ok []
  | other => other

/-- The names in the migrations directory. -/
def takenNames (directory : Path) : Act Bench (List String) := do
  let b ← Act.look
  Act.report (.unlisted directory) (namesIn b.tree b.cwd directory)

/-- The latest of the names in a directory, and of some more, that contain a fragment. -/
def locate (directory : Path) (fragment : String) (more : List String) : Act Bench (Option String) := do
  return latestWith fragment (more ++ (← takenNames directory))

/-- Reads the clock. -/
def readClock : Act Bench Moment := do
  let b ← Act.look
  Act.change fun b => { b with readings := b.readings + 1 }
  return b.clock b.readings

/-- The path of a new migration.  Its stamp is later than the earlier ones of the backend, and no file in the
migrations directory and none of the names `planned` starts with it. -/
def newMigrationPath (l : Layout) (planned : List String) (name : String) : Act Bench Path := do
  let reading ← readClock
  let b ← Act.look
  match stampAfter b.lastStamp reading with
  | none => throw (.crash .endOfCalendar)
  | some start =>
    let taken ← takenNames (l.directory .migration)
    match firstFree (taken ++ planned) start with
    | none => throw (.crash .endOfCalendar)
    | some m =>
      Act.change fun b => { b with lastStamp := some m }
      return (l.directory .migration).child (m.stamp ++ "_" ++ name ++ ".php")

end CrudScaffold.Backend
