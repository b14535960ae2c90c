import CrudScaffold.Backend.Bench
import CrudScaffold.Proofs.Runs

/-!
# CrudScaffold.Proofs.Backend.Actions — one equation per action of a backend
-/

namespace CrudScaffold.Backend.Act

open CrudScaffold.Files

variable {σ α : Type}

@[simp] theorem run_note (level : Level) (channel : Channel) (message : String) (s : Scene σ) :
    (note level channel message : Act σ Unit).run.run s =
      (.ok (), ⟨s.surroundings, s.journal ++ [⟨level, channel, message⟩]⟩) := rfl

@[simp] theorem run_look (s : Scene σ) : (look : Act σ σ).run.run s = (.ok s.surroundings, s) := rfl

@[simp] theorem run_change (f : σ → σ) (s : Scene σ) :
    (change f).run.run s = (.ok (), ⟨f s.surroundings, s.journal⟩) := rfl

@[simp] theorem run_fail (fault : BackendFault) (s : Scene σ) :
    (fail fault : Act σ α).run.run s = (.error (.failure (.backend fault)), s) := rfl

@[simp] theorem mapError_ok {ε ε' : Type} (f : ε → ε') (a : α) : (.ok a : Except ε α).mapError f = .ok a := rfl

@[simp] theorem mapError_error {ε ε' : Type} (f : ε → ε') (e : ε) :
    (.error e : Except ε α).mapError f = .error (f e) := rfl

theorem run_access (x : Except AccessFault α) (s : Scene σ) :
    (access x : Act σ α).run.run s = (x.mapError fun f => .crash (.access f), s) := by
  cases x <;> rfl

/-- What a report makes of a failed access. -/
def reported (wrap : Refusal → BackendFault) : AccessFault → Fault
  | .refused r => .failure (.backend (wrap r))
  | .nulInPath => .crash (.access .nulInPath)

theorem run_report (wrap : Refusal → BackendFault) (x : Except AccessFault α) (s : Scene σ) :
    (report wrap x : Act σ α).run.run s = (x.mapError (reported wrap), s) := by
  rcases x with (r | _) | a <;> rfl

end CrudScaffold.Backend.Act
