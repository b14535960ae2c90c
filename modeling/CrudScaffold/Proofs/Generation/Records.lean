import CrudScaffold.Proofs.Backend.Records
import CrudScaffold.Proofs.Generation.Coverage
import CrudScaffold.Proofs.Generation.Writing

/-!
# CrudScaffold.Proofs.Generation.Records — what a run reports

A run is a build and a delivery, and each of them reports in channels of its own: the specs, the reviews, the
templates and the generation for the build, the files and the generation for the delivery.  So what the command
reports of a run can be told from what the run has reported itself (`emits_generate`).
-/

namespace CrudScaffold.Generation

open CrudScaffold.Backend CrudScaffold.Calendar CrudScaffold.Checks CrudScaffold.Spec CrudScaffold.Template

/-! ### Builds -/

/-- A build does not report in the channel of the command. -/
theorem emits_build (g : Generator) (v : View) (r : Request) :
    Emits Progress.journal (·.channel ≠ .commandLine) (g.build v r) :=
  emits_build_of_finish (by decide) (by decide) g v r fun names fields list pivots =>
    emits_finish (by decide) (by decide) g v r names fields list pivots

/-! ### Deliveries -/

section

variable {σ : Type} {P : Record → Prop} {b : Backend σ}

/-- A delivery reports what its backend reports. -/
theorem emits_writeFrom (hcreate : ∀ kind name, Emits Scene.journal P (b.create kind name))
    (hwrite : ∀ path content, Emits Scene.journal P (b.write path content)) (done : List FileRecord)
    (as : List Artifact) : Emits Scene.journal P (writeFrom b done as) := by
  have hartifact : ∀ a, Emits Scene.journal P (writeArtifact b a) := fun a =>
    (hcreate _ _).bind fun _ => (hwrite _ _).bind fun _ => .pure _
  have hattempt : ∀ a, Emits Scene.journal P (attempt (writeArtifact b a)) := by
    refine fun a => Emits.tryCatch (Emits.map _ (hartifact a)) fun f => ?_
    split
    · exact .pure _
    · exact .throw _
  -- the induction is on the artifacts that are left; a fault of the backend ends the run
  induction as generalizing done with
  | nil => exact .pure _
  | cons a rest ih =>
    refine (hattempt a).bind fun outcome => ?_
    split
    · exact ih _
    · exact .pure _

end

/-! ### Runs -/

namespace Running

variable {σ α : Type} {P : Record → Prop}

theorem emits_ofBuilding {x : Building α} (hx : Emits Progress.journal P x) :
    Emits Session.journal P (ofBuilding x : Running σ α) := fun s => by
  rw [run_ofBuilding]
  exact hx ⟨s.history, s.journal⟩

theorem emits_ofAct {x : Act σ α} (hx : Emits Scene.journal P x) : Emits Session.journal P (ofAct x) := fun s => by
  rw [run_ofAct]
  exact hx ⟨s.surroundings, s.journal⟩

theorem emits_note (level : Level) (message : String) :
    Emits Session.journal (·.channel = .generation) (note level message : Running σ Unit) := fun _ =>
  ⟨[⟨level, .generation, message⟩], rfl, List.forall_mem_singleton.2 rfl⟩

end Running

/-- A run does not report in the channel of the command. -/
theorem emits_generate (g : Generator) (l : Layout) (k : BackendKind) (v : View) (started : Moment) (r : Request) :
    Emits Session.journal (·.channel ≠ .commandLine) (g.generate (Backend.ofKind l k) v started r) := by
  obtain ⟨hcreate, hwrite⟩ := emits_ofKind l k
  have hdelivery : ∀ slice : Slice, Emits Scene.journal (·.channel ≠ .commandLine)
      (writeAll (Backend.ofKind l k) slice.artifacts) := fun slice =>
    emits_writeFrom (fun kind name => (hcreate kind name).channel_ne (by decide))
      (fun path content => (hwrite path content).channel_ne (by decide)) [] slice.artifacts
  have hnote := fun level message =>
    (Running.emits_note (σ := Bench) level message).channel_ne (d := .commandLine) (by decide)
  refine (Running.emits_ofBuilding (emits_build g v r)).bind fun slice => ?_
  refine (Running.emits_ofAct (hdelivery slice)).bind fun w => ?_
  simp only
  split
  · exact (hnote _ _).bind fun _ => .pure _
  · exact (hnote _ _).bind fun _ => .pure _

end CrudScaffold.Generation
