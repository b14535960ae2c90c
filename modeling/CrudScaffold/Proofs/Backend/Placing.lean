import CrudScaffold.Backend.Kinds
import CrudScaffold.Proofs.Backend.Migrations
import CrudScaffold.Proofs.Files.Growth
import CrudScaffold.Proofs.Naming.Segments

/-!
# CrudScaffold.Proofs.Backend.Placing — where the filesystem backend puts an artifact

Creating an artifact gives it a path, makes the directories above it and an empty file (`run_createFile`); writing it
puts its text there (`run_writeFile`).  Whatever fails, nothing is left behind but new directories and new empty files.
-/

namespace CrudScaffold.Backend

open CrudScaffold.Calendar CrudScaffold.Files CrudScaffold.Naming CrudScaffold.Text
open CrudScaffold.Files.Tree

/-- The layout of a project at the top of the tree. -/
def topLayout : Layout := ⟨.default, ⟨.top, []⟩⟩

/-! ### Names of files -/

/-- The names that the file of an artifact may get. -/
def FileName (kind : ArtifactKind) (target n : String) : Prop :=
  if kind = .migration then ∃ m, n = migrationFile m target
  else ∃ last, (segments target.toList).getLast? = some last ∧ n = String.ofList last ++ ".php"

theorem isName_php {last : List Char} (h : IsSegment last) : Path.IsName (String.ofList last ++ ".php") := by
  have hlist : (String.ofList last ++ ".php").toList = last ++ ".php".toList := by simp [String.toList_append]
  have hslash : '/' ∉ (String.ofList last ++ ".php").toList := by
    rw [hlist]
    intro hmem
    rcases List.mem_append.1 hmem with hmem | hmem
    · exact absurd (h.2 _ hmem) (by decide)
    · exact absurd hmem (by decide)
  have hlong : 4 ≤ (String.ofList last ++ ".php").toList.length := by
    rw [hlist, List.length_append]
    exact Nat.le_add_left _ _
  refine ⟨hslash, ?_, ?_, ?_⟩ <;> rintro he <;> rw [he] at hlong <;> exact absurd hlong (by decide)

/-- The file of a class has the name of the class. -/
theorem classPath_ok {l : Layout} {kind : ArtifactKind} {name : String} {p : Path}
    (h : l.classPath kind name = .ok p) : ∃ last, (segments name.toList).getLast? = some last ∧
      p.names.getLast? = some (String.ofList last ++ ".php") ∧ Path.IsName (String.ofList last ++ ".php") := by
  unfold Layout.classPath at h
  simp only [List.getLast?_map] at h
  cases hlast : (segments name.toList).getLast? with
  | none => rw [hlast] at h; cases h
  | some last =>
    rw [hlast] at h
    have hname := isName_php (isSegment_of_mem (List.mem_of_getLast? hlast))
    cases h
    exact ⟨last, rfl, Path.getLast_child _ hname, hname⟩

theorem slash_notMem_of_mem_segments {cs w : List Char} (h : w ∈ segments cs) : '/' ∉ (String.ofList w).toList := by
  rw [String.toList_ofList]
  exact fun hmem => absurd ((isSegment_of_mem h).2 _ hmem) (by decide)

theorem mem_names_foldl {n : String} {cs : List Char} {ws : List (List Char)} (hws : ∀ w ∈ ws, w ∈ segments cs)
    {p : Path} (h : n ∈ ((ws.map String.ofList).foldl Path.child p).names) :
    n ∈ p.names ∨ n.toList ∈ segments cs := by
  induction ws generalizing p with
  | nil => exact Or.inl h
  | cons w ws ih =>
    have hw := hws w List.mem_cons_self
    rcases ih (fun w hw => hws w (List.mem_cons_of_mem _ hw)) h with h | h
    · rcases Path.mem_names_child h (slash_notMem_of_mem_segments hw) with h | rfl
      · exact Or.inl h
      · exact Or.inr (by rwa [String.toList_ofList])
    · exact Or.inr h

/-- A class path goes back only where the directory of the kind or the name of the class does. -/
theorem dots_of_classPath {l : Layout} {kind : ArtifactKind} {name : String} {p : Path}
    (h : l.classPath kind name = .ok p) (hdots : ".." ∈ p.names) :
    ".." ∈ (l.directory kind).names ∨ "..".toList ∈ segments name.toList := by
  unfold Layout.classPath at h
  simp only [List.getLast?_map] at h
  cases hlast : (segments name.toList).getLast? with
  | none => rw [hlast] at h; cases h
  | some last =>
    rw [hlast] at h
    have hmem := List.mem_of_getLast? hlast
    have hname := isName_php (isSegment_of_mem hmem)
    obtain rfl := Except.ok.inj h
    rcases Path.mem_names_child hdots hname.1 with hdots | hdots
    · rw [← List.map_dropLast] at hdots
      exact mem_names_foldl (fun w hw => List.dropLast_subset _ hw) hdots
    · exact absurd hdots.symm hname.2.2.2

/-! ### The choice of a path -/

/-- What is known of the path that an artifact is given, in the tree as it is then. -/
structure Chosen (l : Layout) (kind : ArtifactKind) (name : String) (cwd : Location) (t : Tree) (p : Path) : Prop where
  named : ∃ n, p.names.getLast? = some n ∧ Path.IsName n ∧ FileName kind name n
  /-- Nothing is found under the path, unless it is that of a class and files may be replaced. -/
  unfound : kind = .migration ∨ l.settings.overwrite = false → p.hasNul = true ∨ ∀ at_, t.find cwd p ≠ .ok at_
  parent : kind = .migration → p.parent = l.directory .migration
  /-- If the migrations directory is there, nothing stands at the place of a new migration. -/
  vacant : kind = .migration → ∀ at_, t.find cwd (l.directory .migration) = .ok at_ →
    t.node? (p.locationFrom cwd) = none
  /-- The path goes back only where the directory of the kind or the name of the class does. -/
  dots : ".." ∈ p.names → ".." ∈ (l.directory kind).names ∨ "..".toList ∈ segments name.toList

theorem not_find_of_pathExists {t : Tree} {cwd : Location} {p : Path} {n : String} (hp : p.names.getLast? = some n)
    (hn : n ≠ "..") (h : pathExists t cwd p = .ok false) : p.hasNul = true ∨ ∀ at_, t.find cwd p ≠ .ok at_ := by
  by_cases hnul : p.hasNul = true
  · exact Or.inl hnul
  refine Or.inr fun at_ hfind => ?_
  obtain ⟨node, hnode⟩ := Option.isSome_iff_exists.1 (node_of_find hfind hp hn)
  simp only [pathExists, look, hnul, hfind, hnode] at h
  cases h

/-- The path that a class takes, in the surroundings as they are. -/
def classIn (l : Layout) (b : Bench) (kind : ArtifactKind) (name : String) : Except Fault Path :=
  match l.classPath kind name with
  | .error fault => .error (.failure (.backend fault))
  | .ok p =>
    match pathExists b.tree b.cwd p with
    | .error f => .error (.crash (.access f))
    | .ok found =>
      if found && !l.settings.overwrite then .error (.failure (.backend (.occupied (l.shown p) p name))) else .ok p

theorem classIn_ok {l : Layout} {b : Bench} {kind : ArtifactKind} {name : String} {p : Path}
    (h : classIn l b kind name = .ok p) : l.classPath kind name = .ok p ∧
      ∃ found, pathExists b.tree b.cwd p = .ok found ∧ (found = true → l.settings.overwrite = true) := by
  unfold classIn at h
  split at h
  · cases h
  rename_i q hclass
  split at h
  · cases h
  rename_i found hexists
  split at h
  · cases h
  rename_i hblocked
  obtain rfl := Except.ok.inj h
  exact ⟨hclass, found, hexists, fun hfound => by simpa [hfound] using hblocked⟩

/-- Choosing the path of a class changes nothing. -/
theorem run_vacantClassPath_eq (l : Layout) (kind : ArtifactKind) (name : String) (s : Scene Bench) :
    (Backend.vacantClassPath l kind name).run.run s = (classIn l s.surroundings kind name, s) := by
  unfold Backend.vacantClassPath classIn
  cases l.classPath kind name with
  | error f => rfl
  | ok p =>
    simp only [Backend.checkVacant, run_bind, Act.run_look, Act.run_access]
    cases pathExists s.surroundings.tree s.surroundings.cwd p with
    | error f => rfl
    | ok found =>
      simp only [Act.mapError_ok]
      by_cases hblocked : (found && !l.settings.overwrite) = true
      · simp only [hblocked, if_true, Act.run_fail]
      · simp only [hblocked, Bool.false_eq_true, if_false, run_pure]

theorem run_vacantClassPath (l : Layout) (kind : ArtifactKind) (name : String) (s : Scene Bench) :
    ∃ r, (Backend.vacantClassPath l kind name).run.run s = (r, s) ∧ ∀ p, r = .ok p →
      l.classPath kind name = .ok p ∧
        (l.settings.overwrite = true ∨ pathExists s.surroundings.tree s.surroundings.cwd p = .ok false) := by
  refine ⟨_, run_vacantClassPath_eq l kind name s, fun p hp => ?_⟩
  obtain ⟨hclass, found, hexists, hmay⟩ := classIn_ok hp
  refine ⟨hclass, ?_⟩
  cases found with
  | false => exact Or.inr hexists
  | true => exact Or.inl (hmay rfl)

/-- The path of a new migration, chosen from a listing. -/
theorem chosen_of_migration {l : Layout} {name : String} {cwd : Location} {t : Tree} {m : Moment} {names : List String}
    (hname : '/' ∉ name.toList) (hnames : namesIn t cwd (l.directory .migration) = .ok names)
    (hfree : ∀ n ∈ names, beginsWith m.stamp n = false) :
    Chosen l .migration name cwd t ((l.directory .migration).child (migrationFile m name)) := by
  have hfile := isName_migrationFile (m := m) hname
  have hlast := Path.getLast_child (l.directory .migration) hfile
  -- a listing shows that the place is free, if there is a directory to list
  have hplace : t.find cwd (l.directory .migration) ≠ .error .noSuchFile →
      t.node? (((l.directory .migration).child (migrationFile m name)).locationFrom cwd) = none := by
    intro hthere
    rw [Path.locationFrom_child _ _ hfile]
    rcases namesIn_ok hnames with rfl | hmissing
    · refine Option.not_isSome_iff_eq_none.1 fun hsome => ?_
      have hbegins := hfree _ (mem_childNames hsome)
      rw [beginsWith_migrationFile] at hbegins
      cases hbegins
    · exact absurd hmissing hthere
  refine ⟨⟨_, hlast, hfile, ?_⟩, fun _ => Or.inr fun at_ hfind => ?_, fun _ => Path.parent_child _ hfile,
    fun _ at_ hfind => hplace (by rw [hfind]; nofun), fun hdots => Or.inl ?_⟩
  · rw [FileName, if_pos rfl]
    exact ⟨m, rfl⟩
  · exact not_find_migrationFile hnames hfree name at_ hfind
  · exact (Path.mem_names_child hdots hfile.1).resolve_right fun h => hfile.2.2.2 h.symm

/-- The path that an artifact is to have. -/
def choosePath (l : Layout) (kind : ArtifactKind) (name : String) : Act Bench Path :=
  if kind = .migration then newMigrationPath l [] name else Backend.vacantClassPath l kind name

/-- The path of an artifact is chosen before anything is written. -/
theorem run_choosePath (l : Layout) (kind : ArtifactKind) (name : String)
    (hname : kind = .migration → '/' ∉ name.toList) (s : Scene Bench) :
    ∃ r s', (choosePath l kind name).run.run s = (r, s') ∧ s'.surroundings.tree = s.surroundings.tree ∧
      s'.surroundings.cwd = s.surroundings.cwd ∧
      ∀ p, r = .ok p → Chosen l kind name s.surroundings.cwd s.surroundings.tree p := by
  unfold choosePath
  by_cases hkind : kind = .migration
  · -- a migration gets a file of its own
    obtain ⟨r, s', hrun, htree, hcwd, hpath⟩ := run_newMigrationPath l name s
    rw [if_pos hkind]
    refine ⟨r, s', hrun, htree, hcwd, fun p hp => ?_⟩
    obtain ⟨m, names, hchild, hnames, hfree⟩ := hpath p hp
    rw [hchild, hkind]
    exact chosen_of_migration (hname hkind) hnames hfree
  · -- the place of a class is given by its name, and was vacant
    obtain ⟨r, hrun, hpath⟩ := run_vacantClassPath l kind name s
    rw [if_neg hkind]
    refine ⟨r, s, hrun, rfl, rfl, fun p hp => ?_⟩
    obtain ⟨hclass, hvacant⟩ := hpath p hp
    obtain ⟨last, hsegment, hlast, hfile⟩ := classPath_ok hclass
    refine ⟨⟨_, hlast, hfile, ?_⟩, fun h => ?_, fun h => absurd h hkind, fun h => absurd h hkind,
      dots_of_classPath hclass⟩
    · rw [FileName, if_neg hkind]
      exact ⟨last, hsegment, rfl⟩
    · have hkeep : l.settings.overwrite = false := h.resolve_left hkind
      rw [hkeep] at hvacant
      exact not_find_of_pathExists hlast hfile.2.2.2 (hvacant.resolve_left nofun)

/-! ### Creating -/

/-- What a failure may leave behind: new directories and new empty files. -/
def Leftover (_ : Location) (n : Node) : Prop := n = .directory ∨ n = .file ByteArray.empty

/-- What the creation of an artifact does. -/
structure Creates (l : Layout) (kind : ArtifactKind) (name : String) (cwd : Location) (t : Tree) (p : Path)
    (t' : Tree) : Prop where
  chosen : Chosen l kind name cwd t p
  noNul : p.hasNul = false
  /-- There are new directories on the way, and a new empty file at the end of it. -/
  grows : GrowsBy (fun a n => WayOf cwd p.parent a n ∨ EmptyAt cwd p a n) t t'
  listed : t'.find cwd p.parent = .ok (p.parent.locationFrom cwd)

theorem makeBare_grows (t : Tree) (cwd : Location) (p : Path) :
    GrowsBy (fun a n => WayOf cwd p.parent a n ∨ EmptyAt cwd p a n) t (Backend.makeBare t cwd p).2 := by
  unfold Backend.makeBare
  have hway := ensureDirectory_growsBy t cwd p.parent
  rcases hens : ensureDirectory t cwd p.parent with ⟨f | u, t'⟩ <;> rw [hens] at hway
  · exact hway.mono fun a n => Or.inl
  · exact (hway.mono fun a n => Or.inl).trans ((touch_growsBy t' cwd p).mono fun a n => Or.inr)

/-- If the file is not made, there are at most new directories on the way. -/
theorem makeBare_error {t t' : Tree} {cwd : Location} {p : Path} {f : AccessFault}
    (h : Backend.makeBare t cwd p = (.error f, t')) : GrowsBy (WayOf cwd p.parent) t t' := by
  unfold Backend.makeBare at h
  have hway := ensureDirectory_growsBy t cwd p.parent
  rcases hens : ensureDirectory t cwd p.parent with ⟨e | u, t₁⟩ <;> rw [hens] at h hway
  · cases h
    exact hway
  · -- a file that is not made leaves what the directories above have left
    have htouched : t' = t₁ := by
      simp only [touch] at h
      split at h
      · exact (congrArg Prod.snd h).symm
      split at h
      · cases h
      split at h
      · cases h
      · exact (congrArg Prod.snd h).symm
    rw [htouched]
    exact hway

theorem makeBare_ok {t t' : Tree} {cwd : Location} {p : Path} (h : Backend.makeBare t cwd p = (.ok (), t')) :
    p.hasNul = false ∧ t'.find cwd p.parent = .ok (p.parent.locationFrom cwd) := by
  unfold Backend.makeBare at h
  rcases hens : ensureDirectory t cwd p.parent with ⟨f | u, t₁⟩ <;> rw [hens] at h
  · cases h
  have hkeeps := (touch_growsBy t₁ cwd p).keeps
  rw [show touch t₁ cwd p = (.ok (), t') from h] at hkeeps
  refine ⟨Bool.eq_false_iff.2 fun hnul => ?_, find_keeps hkeeps (find_of_ensureDirectory hens).1⟩
  simp only [touch, hnul, if_true] at h
  cases h

theorem leftover_of_grows {t t' : Tree} {cwd : Location} {p : Path}
    (h : GrowsBy (fun a n => WayOf cwd p.parent a n ∨ EmptyAt cwd p a n) t t') : GrowsBy Leftover t t' :=
  h.mono fun _ _ h => h.imp And.left And.left

/-- Makes the empty file of an artifact under its path. -/
def makeFile (l : Layout) (name : String) (path : Path) : Act Bench Path := do
  let b ← Act.look
  let (r, tree) := Backend.makeBare b.tree b.cwd path
  Act.change fun b => { b with tree := tree }
  Act.report (.notCreated (l.shown path) path name) r
  return path

theorem createFile_eq (l : Layout) (kind : ArtifactKind) (name : String) :
    Backend.createFile l kind name = (do makeFile l name (← choosePath l kind name)) := by
  unfold Backend.createFile choosePath
  split <;> rfl

/-- Creating an artifact fails without a trace but for what has been made on the way, or makes a file for it. -/
theorem run_createFile (l : Layout) (kind : ArtifactKind) (name : String)
    (hname : kind = .migration → '/' ∉ name.toList) (s : Scene Bench) :
    ∃ r s', (Backend.createFile l kind name).run.run s = (r, s') ∧ s'.surroundings.cwd = s.surroundings.cwd ∧
      GrowsBy Leftover s.surroundings.tree s'.surroundings.tree ∧ ∀ p, r = .ok p →
        Creates l kind name s.surroundings.cwd s.surroundings.tree p s'.surroundings.tree := by
  obtain ⟨r, s₁, hrun, htree, hcwd, hchosen⟩ := run_choosePath l kind name hname s
  rw [createFile_eq, run_bind, hrun]
  cases r with
  | error f => exact ⟨_, _, rfl, hcwd, htree ▸ GrowsBy.refl _ _, nofun⟩
  | ok p =>
    have hgrows := makeBare_grows s₁.surroundings.tree s₁.surroundings.cwd p
    simp only [makeFile, run_bind, Act.run_look, Act.run_change, Act.run_report, run_pure]
    -- the bare file is refused, or it is there
    rcases hbare : Backend.makeBare s₁.surroundings.tree s₁.surroundings.cwd p with ⟨f | u, t'⟩
    all_goals rw [hbare, htree, hcwd] at hgrows
    · exact ⟨_, _, rfl, hcwd, leftover_of_grows hgrows, nofun⟩
    · refine ⟨_, _, rfl, hcwd, leftover_of_grows hgrows, fun q hq => ?_⟩
      obtain rfl := Except.ok.inj hq
      obtain ⟨hnul, hlisted⟩ := makeBare_ok hbare
      rw [hcwd] at hlisted
      exact ⟨hchosen p rfl, hnul, hgrows, hlisted⟩

/-! ### Writing -/

/-- Writing an artifact fails without a trace but for the directories made on the way, or puts its text in place. -/
theorem run_writeFile (l : Layout) (p : Path) (content : String) (s : Scene Bench) :
    ∃ r s', (Backend.writeFile l p content).run.run s = (r, s') ∧ s'.surroundings.cwd = s.surroundings.cwd ∧
      ((∃ f, r = .error f) ∧ GrowsBy (WayOf s.surroundings.cwd p.parent) s.surroundings.tree s'.surroundings.tree ∨
        r = .ok content.toUTF8.size ∧
          Writes s.surroundings.cwd p content s.surroundings.tree s'.surroundings.tree) := by
  rw [Backend.writeFile]
  simp only [run_bind, Act.run_look, Act.run_change, Act.run_report, Act.run_note, run_pure]
  rcases writeAtomically_cases s.surroundings.tree s.surroundings.cwd p content with
    ⟨f, t', hwrite, hgrows⟩ | ⟨t', hwrite, hwrites⟩
  · rw [hwrite]
    exact ⟨_, _, rfl, rfl, Or.inl ⟨⟨_, rfl⟩, hgrows⟩⟩
  · rw [hwrite]
    exact ⟨_, _, rfl, rfl, Or.inr ⟨rfl, hwrites⟩⟩

end CrudScaffold.Backend
