import CrudScaffold.Proofs.Backend.Commands
import CrudScaffold.Proofs.Backend.Sequence
import CrudScaffold.Proofs.Journal

/-!
# CrudScaffold.Proofs.Backend.Records — what backends report

Whatever a backend does, it reports in the channel of the files, and only adds to the journal.  The primitive actions
say so one by one (`Act.emits_note`, ...), sequences keep it, and so it holds of the backends of all kinds
(`emits_ofKind`).
-/

namespace CrudScaffold.Backend

open CrudScaffold.Files

/-! ### The primitive actions -/

namespace Act

variable {σ α : Type} {P : Record → Prop}

theorem emits_look : Emits Scene.journal P (look : Act σ σ) := .of_eq fun _ => rfl

theorem emits_change (f : σ → σ) : Emits Scene.journal P (change f : Act σ Unit) := .of_eq fun _ => rfl

theorem emits_note (level : Level) (channel : Channel) (message : String) :
    Emits Scene.journal (·.channel = channel) (note level channel message : Act σ Unit) := fun _ =>
  ⟨[⟨level, channel, message⟩], rfl, List.forall_mem_singleton.2 rfl⟩

theorem emits_fail (fault : BackendFault) : Emits Scene.journal P (fail fault : Act σ α) := .throw _

theorem emits_access (x : Except AccessFault α) : Emits Scene.journal P (access x : Act σ α) := by
  cases x with
  | ok a => exact .pure a
  | error f => exact .throw _

theorem emits_report (wrap : Refusal → BackendFault) (x : Except AccessFault α) :
    Emits Scene.journal P (report wrap x : Act σ α) := by
  rcases x with (r | _) | a
  · exact .throw _
  · exact .throw _
  · exact .pure a

end Act

open Act

/-! ### The actions of the backends -/

variable {P : Record → Prop}

theorem emits_takenNames (directory : Path) : Emits Scene.journal P (takenNames directory) :=
  emits_look.bind fun _ => emits_report _ _

theorem emits_newMigrationPath (l : Layout) (planned : List String) (name : String) :
    Emits Scene.journal P (newMigrationPath l planned name) := by
  have hclock : Emits Scene.journal P readClock := emits_look.bind fun _ => (emits_change _).bind fun _ => .pure _
  refine hclock.bind fun reading => emits_look.bind fun b => ?_
  split
  · exact .throw _
  · refine (emits_takenNames _).bind fun taken => ?_
    split
    · exact .throw _
    · exact (emits_change _).bind fun _ => .pure _

theorem emits_vacantClassPath (l : Layout) (kind : ArtifactKind) (name : String) :
    Emits Scene.journal P (vacantClassPath l kind name) := by
  have hvacant : ∀ path, Emits Scene.journal P (checkVacant l path name) := by
    intro path
    refine emits_look.bind fun b => (emits_access _).bind fun found => ?_
    split
    · exact emits_fail _
    · exact .pure _
  unfold vacantClassPath
  split
  · exact emits_fail _
  · exact (hvacant _).bind fun _ => .pure _

theorem emits_chooseBeside (l : Layout) (planned : List String) (kind : ArtifactKind) (name : String) :
    Emits Scene.journal P (chooseBeside l planned kind name) := by
  unfold chooseBeside
  split
  · exact emits_newMigrationPath l planned name
  · exact emits_vacantClassPath l kind name

theorem emits_createFile (l : Layout) (kind : ArtifactKind) (name : String) :
    Emits Scene.journal P (createFile l kind name) := by
  rw [createFile_eq]
  exact (emits_chooseBeside l [] kind name).bind fun _ => emits_look.bind fun _ => (emits_change _).bind fun _ =>
    (emits_report _ _).bind fun _ => .pure _

theorem emits_writeFile (l : Layout) (path : Path) (content : String) :
    Emits Scene.journal (·.channel = .files) (writeFile l path content) :=
  emits_look.bind fun _ => (emits_change _).bind fun _ => (emits_report _ _).bind fun _ =>
    (emits_note _ _ _).bind fun _ => .pure _

theorem emits_runCommand (l : Layout) (kind : ArtifactKind) (name : String) :
    Emits Scene.journal (·.channel = .files) (runCommand l kind name) := by
  intro s
  rw [run_runCommand_eq]
  split
  · exact ⟨[], (List.append_nil _).symm, List.forall_mem_nil _⟩
  · exact ⟨[], (List.append_nil _).symm, List.forall_mem_nil _⟩
  · exact ⟨_, rfl, List.forall_mem_singleton.2 rfl⟩

theorem emits_createByCommand (l : Layout) (kind : ArtifactKind) (name : String) :
    Emits Scene.journal (·.channel = .files) (createByCommand l kind name) := by
  unfold createByCommand
  split
  · refine (emits_runCommand l kind name).bind fun _ => ?_
    refine ((emits_takenNames _).bind fun _ => .pure _).bind fun found => ?_
    split
    · exact emits_fail _
    · exact .pure _
  · refine (emits_vacantClassPath l kind name).bind fun path => (emits_runCommand l kind name).bind fun _ => ?_
    refine emits_look.bind fun b => (emits_access _).bind fun found => ?_
    split
    · exact .pure _
    · exact emits_fail _

theorem emits_createPlanned (l : Layout) (kind : ArtifactKind) (name : String) :
    Emits Scene.journal (·.channel = .files) (createPlanned l kind name) := by
  rw [createPlanned_eq]
  exact emits_look.bind fun _ => (emits_chooseBeside l _ kind name).bind fun _ => (emits_change _).bind fun _ =>
    (emits_note _ _ _).bind fun _ => .pure _

/-- The backends of all kinds report in the channel of the files only. -/
theorem emits_ofKind (l : Layout) (k : BackendKind) :
    (∀ kind name, Emits Scene.journal (·.channel = .files) ((Backend.ofKind l k).create kind name)) ∧
      ∀ path content, Emits Scene.journal (·.channel = .files) ((Backend.ofKind l k).write path content) := by
  cases k with
  | filesystem => exact ⟨emits_createFile l, emits_writeFile l⟩
  | artisan => exact ⟨emits_createByCommand l, emits_writeFile l⟩
  | dryRun =>
    exact ⟨emits_createPlanned l, fun _ _ => (emits_change _).bind fun _ => (emits_note _ _ _).bind fun _ => .pure _⟩

end CrudScaffold.Backend
