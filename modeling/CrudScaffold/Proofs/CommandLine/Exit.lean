import CrudScaffold.CommandLine.Run
import CrudScaffold.Proofs.Backend.Blame
import CrudScaffold.Proofs.Generation.Foresight

/-!
# CrudScaffold.Proofs.CommandLine.Exit — what the exit code tells of the tree

Most steps of the command only show something (`Shows`).  Two may change the tree: the delivery of a generation, and
the writing of its manifest.  The codes 1 and 2 stand for failures of the build, which come before both: a run that
gets as far as a report ends with 0, 3 or 4 (`Accounts`).
-/

namespace CrudScaffold.Generation

open CrudScaffold.Backend CrudScaffold.Calendar CrudScaffold.Template

/-! ### Runs that are given up -/

end CrudScaffold.Generation

namespace CrudScaffold.CommandLine

open CrudScaffold.Backend CrudScaffold.Calendar CrudScaffold.Files CrudScaffold.Generation

/-! ### Steps that only show something -/

/-- The step gives the value and shows these events; the surroundings stay as they are. -/
def Gives {α : Type} (x : Step α) (a : α) (events : List Event) : Prop :=
  ∀ d, x.run.run d = (.ok a, ⟨d.bench, d.events ++ events⟩)

/-- The step shows something and gives the value; the surroundings stay as they are. -/
def Shows {α : Type} (x : Step α) (a : α) : Prop := ∀ d, ∃ events, x.run.run d = (.ok a, ⟨d.bench, events⟩)

@[simp] theorem run_emit (e : Event) (d : Desk) : (Step.emit e).run.run d = (.ok (), ⟨d.bench, d.events ++ [e]⟩) := rfl

namespace Gives

variable {α β : Type} {a : α} {b : β} {first second : List Event}

theorem pure (a : α) : Gives (pure a : Step α) a [] := fun d => by
  rw [run_pure, List.append_nil]

theorem emit (e : Event) : Gives (Step.emit e) () [e] := fun _ => rfl

theorem bind {x : Step α} {f : α → Step β} (hx : Gives x a first) (hf : Gives (f a) b second) :
    Gives (x >>= f) b (first ++ second) := fun d => by
  rw [bind_of_ok (hx d), hf, List.append_assoc]

/-- A step that is taken under a condition only, and one that follows. -/
theorem guarded {c : Prop} {_ : Decidable c} {x : Step Unit} {f : Unit → Step β} (hx : Gives x () first)
    (hf : Gives (f ()) b second) : Gives (if c then x >>= f else f ()) b ((if c then first else []) ++ second) := by
  split
  · exact hx.bind hf
  · exact hf

theorem forM {as : List α} {f : α → Step Unit} {events : α → List Event} (hf : ∀ a, Gives (f a) () (events a)) :
    Gives (as.forM f) () (as.flatMap events) := by
  induction as with
  | nil => exact .pure ()
  | cons a as ih => exact (hf a).bind ih

end Gives

theorem Shows.of_gives {α : Type} {x : Step α} {a : α} {events : List Event} (h : Gives x a events) : Shows x a :=
  fun d => ⟨_, h d⟩

theorem shows_failWith (f : Failure) : Shows (failWith f) f.exitCode := .of_gives (Gives.bind (.emit _) (.pure _))

/-- What an attempt makes of an outcome. -/
def answered {α : Type} : Except Fault α → Except Fault (Except Failure α)
  | .ok a => .ok (.ok a)
  | .error (.failure f) => .ok (.error f)
  | .error crash => .error crash

theorem run_attempt {α : Type} (action : Running Bench α) (d : Desk) :
    (Step.attempt action).run.run d = (answered (action.run.run ⟨[.idle], d.bench, []⟩).1,
      ⟨(action.run.run ⟨[.idle], d.bench, []⟩).2.surroundings,
        d.events ++ (action.run.run ⟨[.idle], d.bench, []⟩).2.journal.map Event.record⟩) := by
  rw [Step.attempt, run_bind, run_get]
  simp only
  rcases action.run.run ⟨[.idle], d.bench, []⟩ with ⟨(f | c) | a, s⟩ <;> rfl

theorem exitCode_ne_zero (f : Failure) : f.exitCode ≠ 0 := by
  unfold Failure.exitCode
  cases f.notice.kind <;> decide

/-- How a generation on the command line ends: the status, and the tree before and after. -/
structure Accounts (g : Generator) (o : Options) (r : Request) (cwd : Location) (before after : Tree)
    (status : Except Fault Nat) : Prop where
  untouched : status = .ok 1 ∨ status = .ok 2 → after = before
  planned : g.settings.backend = .dryRun → Options.nonEmpty o.manifest = none → after = before
  filed : status = .ok 0 → g.settings.backend = .filesystem → Options.nonEmpty o.manifest = none →
    ∃ slice written, g.outcome ⟨before, cwd⟩ r = .ok slice ∧ written.map Prod.fst = slice.artifacts ∧
      Holds cwd before after written

/-- A generation that leaves the tree as it is ends in order, unless it ends with 0. -/
theorem Accounts.of_eq {g : Generator} {o : Options} {r : Request} {cwd : Location} {before after : Tree}
    {status : Except Fault Nat} (h : after = before) (hstatus : status ≠ .ok 0) :
    Accounts g o r cwd before after status :=
  ⟨fun _ => h, fun _ _ => h, fun hzero => absurd hzero hstatus⟩

namespace Accounts

variable {started : Moment} {g : Generator} {o : Options} {r : Request} {l : Layout} {b : Bench} {s : Session Bench}
  {report : Report}

end Accounts

/-- What the command does when its settings and its request are given. -/
def perform (started : Moment) (g : Generator) (o : Options) (r : Request) : Step Nat :=
  if o.printOnly then runPrint g r else runGeneration started g o r

variable {host : Host}

end CrudScaffold.CommandLine
