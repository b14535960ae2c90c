import CrudScaffold.Proofs.Backend.Sequence

/-!
# CrudScaffold.Proofs.Backend.Choices — a path is chosen from what the surroundings are

Which path an artifact gets, or why it gets none, is a function of the surroundings (`pathIn`), and so is what the
choice leaves to be remembered (`afterChoice`).  The filesystem backend goes on by making the file
(`run_createFile_eq`), the dry run by planning it (`run_createPlanned_eq`).  A path that is chosen is one that the
layout `Assigns` to the artifact; with an absolute root it is absolute.
-/

namespace CrudScaffold.Backend

open CrudScaffold.Calendar CrudScaffold.Files CrudScaffold.Naming CrudScaffold.Text

/-! ### The choice as a function -/

/-- The path that an artifact takes beside the planned ones, in the surroundings as they are. -/
def pathIn (l : Layout) (planned : List String) (b : Bench) (kind : ArtifactKind) (name : String) : Except Fault Path :=
  if kind = .migration then
    (momentIn l b planned).map fun m => (l.directory .migration).child (migrationFile m name)
  else classIn l b kind name

/-- The surroundings after the choice: for a migration the clock has been read, and the moment is remembered. -/
def afterChoice (l : Layout) (planned : List String) (b : Bench) (kind : ArtifactKind) : Bench :=
  if kind = .migration then
    match momentIn l b planned with
    | .error _ => { b with readings := b.readings + 1 }
    | .ok m => { b with readings := b.readings + 1, lastStamp := some m }
  else b

theorem run_chooseBeside_eq (l : Layout) (planned : List String) (kind : ArtifactKind) (name : String)
    (s : Scene Bench) : (chooseBeside l planned kind name).run.run s =
      (pathIn l planned s.surroundings kind name, ⟨afterChoice l planned s.surroundings kind, s.journal⟩) := by
  unfold chooseBeside pathIn afterChoice
  by_cases hkind : kind = .migration
  · simp only [hkind, if_true, run_newMigrationPath_eq]
    cases momentIn l s.surroundings planned <;> rfl
  · simp only [hkind, if_false, run_vacantClassPath_eq]

@[simp] theorem tree_afterChoice (l : Layout) (planned : List String) (b : Bench) (kind : ArtifactKind) :
    (afterChoice l planned b kind).tree = b.tree := by
  unfold afterChoice
  split
  · split <;> rfl
  · rfl

@[simp] theorem cwd_afterChoice (l : Layout) (planned : List String) (b : Bench) (kind : ArtifactKind) :
    (afterChoice l planned b kind).cwd = b.cwd := by
  unfold afterChoice
  split
  · split <;> rfl
  · rfl

@[simp] theorem clock_afterChoice (l : Layout) (planned : List String) (b : Bench) (kind : ArtifactKind) :
    (afterChoice l planned b kind).clock = b.clock := by
  unfold afterChoice
  split
  · split <;> rfl
  · rfl

@[simp] theorem planned_afterChoice (l : Layout) (planned : List String) (b : Bench) (kind : ArtifactKind) :
    (afterChoice l planned b kind).planned = b.planned := by
  unfold afterChoice
  split
  · split <;> rfl
  · rfl

/-! ### Creating -/

/-- The filesystem backend makes the file under the path that is chosen. -/
theorem run_createFile_eq (l : Layout) (kind : ArtifactKind) (name : String) (s : Scene Bench) :
    (Backend.createFile l kind name).run.run s = match pathIn l [] s.surroundings kind name with
      | .error f => (.error f, ⟨afterChoice l [] s.surroundings kind, s.journal⟩)
      | .ok p => (((Backend.makeBare s.surroundings.tree s.surroundings.cwd p).1.mapError
          (Act.reported (.notCreated (l.shown p) p name))).map fun _ => p,
        ⟨{ afterChoice l [] s.surroundings kind with
          tree := (Backend.makeBare s.surroundings.tree s.surroundings.cwd p).2 }, s.journal⟩) := by
  have hchoice : (choosePath l kind name).run.run s = _ := run_chooseBeside_eq l [] kind name s
  rw [createFile_eq, run_bind, hchoice]
  cases pathIn l [] s.surroundings kind name with
  | error f => rfl
  | ok p =>
    simp only [makeFile, run_bind, Act.run_look, Act.run_change, Act.run_report, run_pure, tree_afterChoice,
      cwd_afterChoice]
    rcases Backend.makeBare s.surroundings.tree s.surroundings.cwd p with ⟨f | u, t⟩ <;> rfl

/-- The dry run plans the file under the path that is chosen beside the planned ones. -/
theorem run_createPlanned_eq (l : Layout) (kind : ArtifactKind) (name : String) (s : Scene Bench) :
    (Backend.createPlanned l kind name).run.run s =
      match pathIn l (s.surroundings.planned.map (·.1.name)) s.surroundings kind name with
      | .error f => (.error f,
          ⟨afterChoice l (s.surroundings.planned.map (·.1.name)) s.surroundings kind, s.journal⟩)
      | .ok p =>
        let b := afterChoice l (s.surroundings.planned.map (·.1.name)) s.surroundings kind
        (.ok p, ⟨if b.planned.any (·.1 = p) then b else { b with planned := b.planned ++ [(p, "")] },
          s.journal ++ [⟨.info, .files, s!"[dry-run] would create {l.shown p}"⟩]⟩) := by
  rw [createPlanned_eq, run_bind, Act.run_look]
  simp only
  rw [run_bind, run_chooseBeside_eq]
  cases pathIn l (s.surroundings.planned.map (·.1.name)) s.surroundings kind name with
  | error f => rfl
  | ok p => rfl

/-- What a file that has been made tells: how its path was chosen, and that the directories above it are there. -/
theorem createFile_ok {l : Layout} {kind : ArtifactKind} {name : String} {s s' : Scene Bench} {p : Path}
    (h : (Backend.createFile l kind name).run.run s = (.ok p, s')) :
    pathIn l [] s.surroundings kind name = .ok p ∧
      s'.surroundings = { afterChoice l [] s.surroundings kind with tree := s'.surroundings.tree } ∧
      Backend.makeBare s.surroundings.tree s.surroundings.cwd p = (.ok (), s'.surroundings.tree) := by
  rw [run_createFile_eq] at h
  cases hpath : pathIn l [] s.surroundings kind name with
  | error f =>
    rw [hpath] at h
    cases h
  | ok q =>
    simp only [hpath] at h
    rcases hbare : Backend.makeBare s.surroundings.tree s.surroundings.cwd q with ⟨f | u, t⟩
    · rw [hbare] at h
      cases h
    · rw [hbare] at h
      cases h
      exact ⟨rfl, rfl, hbare⟩

/-- Writing a file changes nothing but the tree. -/
theorem surroundings_writeFile (l : Layout) (path : Path) (content : String) (s : Scene Bench) :
    ((Backend.writeFile l path content).run.run s).2.surroundings =
      { s.surroundings with tree := (writeAtomically s.surroundings.tree s.surroundings.cwd path content).2 } := by
  simp only [Backend.writeFile, run_bind, Act.run_look, Act.run_change, Act.run_report]
  rcases writeAtomically s.surroundings.tree s.surroundings.cwd path content with ⟨f | size, t⟩ <;> rfl

/-- The filesystem backend reads a clock and leaves it. -/
theorem clock_of_stored {l : Layout} {kind : ArtifactKind} {name content : String} {s s₁ s₂ : Scene Bench} {p : Path}
    {size : Int} (hcreate : (Backend.createFile l kind name).run.run s = (.ok p, s₁))
    (hwrite : (Backend.writeFile l p content).run.run s₁ = (.ok size, s₂)) :
    s₂.surroundings.clock = s.surroundings.clock := by
  have hwritten := surroundings_writeFile l p content s₁
  rw [hwrite] at hwritten
  have hmade : s₁.surroundings.clock = s.surroundings.clock := by
    rw [(createFile_ok hcreate).2.1]
    exact clock_afterChoice ..
  exact (congrArg Bench.clock hwritten).trans hmade

/-- The filesystem backend remembers the stamp that has been chosen. -/
theorem lastStamp_of_stored {l : Layout} {kind : ArtifactKind} {name content : String} {s s₁ s₂ : Scene Bench}
    {p : Path} {size : Int} (hcreate : (Backend.createFile l kind name).run.run s = (.ok p, s₁))
    (hwrite : (Backend.writeFile l p content).run.run s₁ = (.ok size, s₂)) :
    s₂.surroundings.lastStamp = (afterChoice l [] s.surroundings kind).lastStamp := by
  have hwritten := surroundings_writeFile l p content s₁
  rw [hwrite] at hwritten
  have hmade : s₁.surroundings.lastStamp = (afterChoice l [] s.surroundings kind).lastStamp := by
    rw [(createFile_ok hcreate).2.1]
  exact (congrArg Bench.lastStamp hwritten).trans hmade

/-! ### Paths that the layout assigns -/

/-- The layout assigns the path to the artifact: that of the class, or one in the migrations directory under some
stamp. -/
def Assigns (l : Layout) (kind : ArtifactKind) (name : String) (p : Path) : Prop :=
  if kind = .migration then ∃ m, p = (l.directory .migration).child (migrationFile m name)
  else l.classPath kind name = .ok p

/-- The path of a migration has the stamp of the moment that is chosen. -/
theorem momentIn_of_pathIn {l : Layout} {planned : List String} {b : Bench} {kind : ArtifactKind} {name : String}
    {p : Path} (hkind : kind = .migration) (h : pathIn l planned b kind name = .ok p) :
    ∃ m, momentIn l b planned = .ok m ∧ p = (l.directory .migration).child (migrationFile m name) := by
  rw [pathIn, if_pos hkind] at h
  cases hm : momentIn l b planned with
  | error f =>
    rw [hm] at h
    cases h
  | ok m =>
    rw [hm] at h
    exact ⟨m, rfl, (Except.ok.inj h).symm⟩

theorem assigns_of_pathIn {l : Layout} {planned : List String} {b : Bench} {kind : ArtifactKind} {name : String}
    {p : Path} (h : pathIn l planned b kind name = .ok p) : Assigns l kind name p := by
  unfold Assigns
  by_cases hkind : kind = .migration
  · rw [if_pos hkind]
    obtain ⟨m, -, hp⟩ := momentIn_of_pathIn hkind h
    exact ⟨m, hp⟩
  · rw [pathIn, if_neg hkind] at h
    rw [if_neg hkind]
    exact (classIn_ok h).1

theorem isAbsolute_join {p q : Path} (h : p.isAbsolute = true) : (p.join q).isAbsolute = true := by
  unfold Path.join
  split
  · assumption
  · exact h

theorem isAbsolute_child {p : Path} (h : p.isAbsolute = true) (name : String) : (p.child name).isAbsolute = true := by
  rw [Path.child]
  exact isAbsolute_join h

theorem isAbsolute_directory {l : Layout} (hroot : l.root.isAbsolute = true) (kind : ArtifactKind) :
    (l.directory kind).isAbsolute = true := isAbsolute_join hroot

theorem isAbsolute_foldl {p : Path} (h : p.isAbsolute = true) (names : List String) :
    (names.foldl Path.child p).isAbsolute = true := by
  induction names generalizing p with
  | nil => exact h
  | cons n names ih => exact ih (isAbsolute_child h n)

/-- Below an absolute root every path is absolute. -/
theorem Assigns.isAbsolute {l : Layout} {kind : ArtifactKind} {name : String} {p : Path} (h : Assigns l kind name p)
    (hroot : l.root.isAbsolute = true) : p.isAbsolute = true := by
  unfold Assigns at h
  split at h
  · obtain ⟨m, hp⟩ := h
    rw [hp]
    exact isAbsolute_child (isAbsolute_directory hroot _) _
  · unfold Layout.classPath at h
    simp only at h
    split at h
    · cases h
    · obtain rfl := Except.ok.inj h
      exact isAbsolute_child (isAbsolute_foldl (isAbsolute_directory hroot _) _) _

/-- A migration stands in the migrations directory, if its name has no slash. -/
theorem Assigns.migration {l : Layout} {name : String} {p : Path} (h : Assigns l .migration name p)
    (hname : '/' ∉ name.toList) : p.parent = l.directory .migration := by
  rw [Assigns, if_pos rfl] at h
  obtain ⟨m, hp⟩ := h
  rw [hp]
  exact Path.parent_child _ (isName_migrationFile hname)

end CrudScaffold.Backend
