import CrudScaffold.Proofs.Backend.Choices
import CrudScaffold.Proofs.Files.Lookup

/-!
# CrudScaffold.Proofs.Backend.Escapes — faults that the filesystem backend lets through

What goes wrong while an artifact is created is a failure of the backend, unless it `Escapes`: a path that is too long
is met before anything is tried, the calendar ends, or a path holds the character that no path may hold.  These are
all ways out (`createFile_crash_iff`), and writing has none: by then the path has been tried (`writeFile_reports`).
-/

namespace CrudScaffold.Backend

open CrudScaffold.Calendar CrudScaffold.Files CrudScaffold.Naming CrudScaffold.Text
open CrudScaffold.Files.Tree

/-! ### Accesses that are refused -/

theorem isDirectory_error {t : Tree} {cwd : Location} {p : Path} {f : AccessFault}
    (h : isDirectory t cwd p = .error f) : f = refuse .nameTooLong p := by
  unfold isDirectory look at h
  split at h
  · cases h
  cases hfind : t.find cwd p with
  | ok a =>
    rw [hfind] at h
    simp only [bind, Except.bind] at h
    split at h <;> cases h
  | error cause =>
    rw [hfind] at h
    cases cause <;> cases h
    rfl

theorem accept_ne_nul (t : Tree) (cwd : Location) (p : Path) (cause : Cause) :
    ensureNames.accept cwd t p cause ≠ .error .nulInPath := by
  intro h
  unfold ensureNames.accept at h
  cases hd : isDirectory t cwd p with
  | error f =>
    rw [hd, isDirectory_error hd] at h
    cases h
  | ok found =>
    rw [hd] at h
    cases found <;> cases h

/-- Names that are followed and made are not looked at for the character that no path may hold.  The induction is on
the number of names that may still be taken off. -/
theorem ensureNames_ne_nul (anchor : Anchor) (cwd : Location) (t : Tree) (count : Nat) (names : List String) :
    (ensureNames anchor cwd t count names).1 ≠ .error .nulInPath := by
  induction count using Nat.strongRecOn generalizing names with
  | ind count ih =>
    rcases ensureNames_cases anchor cwd t count names with ⟨t', -, h⟩ | ⟨k, f, t', hk, hrec, h⟩ |
      ⟨k, t', t'', -, -, -, h⟩ | ⟨k, t', cause, -, -, h⟩ | ⟨cause, h⟩ | h <;> rw [h]
    · simp
    · have habove := ih k (by omega) names.dropLast
      rw [hrec] at habove
      exact habove
    · simp
    · exact accept_ne_nul _ _ _ _
    · exact accept_ne_nul _ _ _ _
    · simp [refuse]

theorem ensureDirectory_nul_iff (t : Tree) (cwd : Location) (p : Path) :
    (ensureDirectory t cwd p).1 = .error .nulInPath ↔ p.hasNul = true := by
  unfold ensureDirectory
  by_cases hnul : p.hasNul = true
  · simp [hnul]
  · rw [if_neg hnul]
    exact iff_of_false (ensureNames_ne_nul _ _ _ _ _) hnul

theorem touch_nul_iff (t : Tree) (cwd : Location) (p : Path) :
    (touch t cwd p).1 = .error .nulInPath ↔ p.hasNul = true := by
  unfold touch
  by_cases hnul : p.hasNul = true
  · simp [hnul]
  · rw [if_neg hnul]
    refine iff_of_false ?_ hnul
    cases t.find cwd p with
    | ok a => simp
    | error cause => cases t.openFile cwd p <;> simp [refuse]

/-- The character that no path may hold is met in the directories above, or when these are there. -/
theorem makeBare_nul_iff (t : Tree) (cwd : Location) (p : Path) :
    (Backend.makeBare t cwd p).1 = .error .nulInPath ↔ p.hasNul = true ∧
      (p.parent.hasNul = true ∨ ∃ t', ensureDirectory t cwd p.parent = (.ok (), t')) := by
  unfold Backend.makeBare
  have habove := ensureDirectory_nul_iff t cwd p.parent
  rcases hens : ensureDirectory t cwd p.parent with ⟨f | u, t'⟩ <;> rw [hens] at habove
  · simp only [Except.error.injEq] at habove
    constructor
    · intro hnul
      have hparent := habove.1 (Except.error.inj hnul)
      exact ⟨Path.hasNul_of_parent hparent, Or.inl hparent⟩
    · rintro ⟨-, hparent | ⟨t'', h⟩⟩
      · exact congrArg Except.error (habove.2 hparent)
      · cases h
  · rw [touch_nul_iff]
    exact ⟨fun hnul => ⟨hnul, Or.inr ⟨t', rfl⟩⟩, And.left⟩

/-- A path without that character is written or refused. -/
theorem writeAtomically_ne_nul {t : Tree} {cwd : Location} {p : Path} (h : p.hasNul = false) (content : String) :
    (writeAtomically t cwd p content).1 ≠ .error .nulInPath := by
  intro hnul
  unfold writeAtomically at hnul
  have habove := ensureDirectory_nul_iff t cwd p.parent
  rcases hens : ensureDirectory t cwd p.parent with ⟨f | u, t'⟩ <;> rw [hens] at hnul habove
  · have hparent := habove.1 (congrArg Except.error (Except.error.inj hnul))
    rw [Path.hasNul_of_parent hparent] at h
    cases h
  · simp only [h, Bool.false_eq_true, if_false] at hnul
    split at hnul
    · cases hnul
    · split at hnul <;> cases hnul

/-! ### The ways out -/

/-- The faults that the creation of an artifact lets through, in the surroundings as they are. -/
inductive Escapes (l : Layout) (b : Bench) (kind : ArtifactKind) (name : String) : Crash → Prop
  /-- One cannot see whether a file of the class is there: its path is too long, or a name in it is. -/
  | tooLong {p : Path} (hkind : kind ≠ .migration) (hclass : l.classPath kind name = .ok p) (hnul : p.hasNul = false)
      (hfind : b.tree.find b.cwd p = .error .nameTooLong) :
      Escapes l b kind name (.access (refuse .nameTooLong p))
  /-- The latest stamp is that of the last moment of the calendar. -/
  | noMoment (hkind : kind = .migration) (hstart : stampAfter b.lastStamp (b.clock b.readings) = none) :
      Escapes l b kind name .endOfCalendar
  /-- The stamps of all moments that are left are taken. -/
  | noFreeMoment {start : Moment} {names : List String} (hkind : kind = .migration)
      (hstart : stampAfter b.lastStamp (b.clock b.readings) = some start)
      (hnames : namesIn b.tree b.cwd (l.directory .migration) = .ok names) (hfree : firstFree names start = none) :
      Escapes l b kind name .endOfCalendar
  /-- The path of the migrations directory holds the character that no path may hold. -/
  | unlistable {start : Moment} (hkind : kind = .migration)
      (hstart : stampAfter b.lastStamp (b.clock b.readings) = some start)
      (hnul : (l.directory .migration).hasNul = true) : Escapes l b kind name (.access .nulInPath)
  /-- The path of the artifact does, and nothing else is in its way. -/
  | unnameable {p : Path} (hpath : pathIn l [] b kind name = .ok p) (hnul : p.hasNul = true)
      (habove : p.parent.hasNul = true ∨ ∃ t, ensureDirectory b.tree b.cwd p.parent = (.ok (), t)) :
      Escapes l b kind name (.access .nulInPath)

theorem namesIn_nul_iff {t : Tree} {cwd : Location} {directory : Path} :
    namesIn t cwd directory = .error .nulInPath ↔ directory.hasNul = true := by
  unfold namesIn listNames
  by_cases hnul : directory.hasNul = true
  · simp [hnul]
  · rw [if_neg hnul]
    refine iff_of_false (fun h => ?_) hnul
    cases hfind : t.find cwd directory with
    | error cause =>
      rw [hfind] at h
      cases cause <;> cases h
    | ok a =>
      rw [hfind] at h
      by_cases hd : t.isDirectoryAt a = true
      · simp [hd] at h
      · simp [hd, refuse] at h

/-- The fault is a failure of the backend, or it escapes. -/
def Explained (l : Layout) (b : Bench) (kind : ArtifactKind) (name : String) (f : Fault) : Prop :=
  (∃ e, f = .failure (.backend e)) ∨ ∃ c, f = .crash c ∧ Escapes l b kind name c

theorem momentIn_error {l : Layout} {b : Bench} {kind : ArtifactKind} {name : String} {f : Fault}
    (hkind : kind = .migration) (h : momentIn l b [] = .error f) : Explained l b kind name f := by
  unfold momentIn at h
  -- no moment to start from, no listing, or no free moment
  split at h
  · rename_i hstart
    cases h
    exact Or.inr ⟨_, rfl, .noMoment hkind hstart⟩
  rename_i start hstart
  split at h
  · rename_i f hnames
    cases f with
    | refused r =>
      cases h
      exact Or.inl ⟨_, rfl⟩
    | nulInPath =>
      cases h
      exact Or.inr ⟨_, rfl, .unlistable hkind hstart (namesIn_nul_iff.1 hnames)⟩
  rename_i names hnames
  split at h
  · rename_i hfree
    rw [List.append_nil] at hfree
    cases h
    exact Or.inr ⟨_, rfl, .noFreeMoment hkind hstart hnames hfree⟩
  · cases h

theorem classIn_error {l : Layout} {b : Bench} {kind : ArtifactKind} {name : String} {f : Fault}
    (hkind : kind ≠ .migration) (h : classIn l b kind name = .error f) : Explained l b kind name f := by
  unfold classIn at h
  split at h
  · cases h
    exact Or.inl ⟨_, rfl⟩
  rename_i p hclass
  split at h
  · rename_i f hexists
    obtain ⟨hnul, hfind, rfl⟩ := pathExists_error hexists
    cases h
    exact Or.inr ⟨_, rfl, .tooLong hkind hclass hnul hfind⟩
  · split at h
    · cases h
      exact Or.inl ⟨_, rfl⟩
    · cases h

theorem pathIn_error {l : Layout} {b : Bench} {kind : ArtifactKind} {name : String} {f : Fault}
    (h : pathIn l [] b kind name = .error f) : Explained l b kind name f := by
  unfold pathIn at h
  by_cases hkind : kind = .migration
  · rw [if_pos hkind] at h
    cases hm : momentIn l b [] with
    | error f =>
      rw [hm] at h
      cases h
      exact momentIn_error hkind hm
    | ok m =>
      rw [hm] at h
      cases h
  · rw [if_neg hkind] at h
    exact classIn_error hkind h

/-- What goes wrong in the creation of an artifact is a failure of the backend, or it escapes. -/
theorem createFile_error {l : Layout} {kind : ArtifactKind} {name : String} {s s' : Scene Bench} {f : Fault}
    (h : (Backend.createFile l kind name).run.run s = (.error f, s')) :
    Explained l s.surroundings kind name f := by
  rw [run_createFile_eq] at h
  cases hpath : pathIn l [] s.surroundings kind name with
  | error e =>
    rw [hpath] at h
    cases h
    exact pathIn_error hpath
  | ok p =>
    simp only [hpath] at h
    -- the file is refused, its path has a NUL in it, or it is made
    rcases hbare : Backend.makeBare s.surroundings.tree s.surroundings.cwd p with ⟨(r | _) | u, t⟩
    all_goals rw [hbare] at h
    · cases h
      exact Or.inl ⟨_, rfl⟩
    · cases h
      obtain ⟨hnul, habove⟩ := (makeBare_nul_iff _ _ _).1 (congrArg Prod.fst hbare)
      exact Or.inr ⟨_, rfl, .unnameable hpath hnul habove⟩
    · cases h

/-- A way out is taken before the path is chosen, or when the file is made. -/
theorem Escapes.pathIn {l : Layout} {b : Bench} {kind : ArtifactKind} {name : String} {c : Crash}
    (h : Escapes l b kind name c) : Backend.pathIn l [] b kind name = .error (.crash c) ∨
      ∃ p, Backend.pathIn l [] b kind name = .ok p ∧ (Backend.makeBare b.tree b.cwd p).1 = .error .nulInPath ∧
        c = .access .nulInPath := by
  cases h with
  | @tooLong p hkind hclass hnul hfind =>
    left
    simp only [Backend.pathIn, hkind, if_false, classIn, hclass, pathExists, look, hnul, hfind]
    rfl
  | noMoment hkind hstart =>
    left
    simp only [Backend.pathIn, hkind, if_true, momentIn, hstart]
    rfl
  | noFreeMoment hkind hstart hnames hfree =>
    left
    simp only [Backend.pathIn, hkind, if_true, momentIn, hstart, hnames, List.append_nil, hfree]
    rfl
  | unlistable hkind hstart hnul =>
    left
    simp only [Backend.pathIn, hkind, if_true, momentIn, hstart, namesIn_nul_iff.2 hnul]
    rfl
  | @unnameable p hpath hnul habove =>
    exact Or.inr ⟨p, hpath, (makeBare_nul_iff b.tree b.cwd p).2 ⟨hnul, habove⟩, rfl⟩

/-- The creation of an artifact lets a fault through exactly when it escapes. -/
theorem createFile_crash_iff {l : Layout} {kind : ArtifactKind} {name : String} {s : Scene Bench} {c : Crash} :
    (∃ s', (Backend.createFile l kind name).run.run s = (.error (.crash c), s')) ↔
      Escapes l s.surroundings kind name c := by
  constructor
  · rintro ⟨s', h⟩
    rcases createFile_error h with ⟨e, he⟩ | ⟨c', hc, hescapes⟩
    · cases he
    · obtain rfl := Fault.crash.inj hc
      exact hescapes
  · intro h
    rw [run_createFile_eq]
    rcases h.pathIn with hpath | ⟨p, hpath, hbare, rfl⟩
    · rw [hpath]
      exact ⟨_, rfl⟩
    · simp only [hpath, hbare]
      exact ⟨_, rfl⟩

/-- What goes wrong in the writing of an artifact that has been created is a failure of the backend. -/
theorem writeFile_reports {l : Layout} {p : Path} {content : String} {s s' : Scene Bench} {f : Fault}
    (hnul : p.hasNul = false) (h : (Backend.writeFile l p content).run.run s = (.error f, s')) :
    ∃ reason, f = .failure (.backend (.notWritten (l.shown p) p reason)) := by
  simp only [Backend.writeFile, run_bind, Act.run_look, Act.run_change, Act.run_report] at h
  have hrefused : (writeAtomically s.surroundings.tree s.surroundings.cwd p content).1 ≠ .error .nulInPath :=
    writeAtomically_ne_nul hnul content
  rcases hwrite : writeAtomically s.surroundings.tree s.surroundings.cwd p content with ⟨(r | _) | size, t⟩
  · rw [hwrite] at h
    cases h
    exact ⟨r, rfl⟩
  · rw [hwrite] at hrefused
    exact absurd rfl hrefused
  · rw [hwrite] at h
    cases h

end CrudScaffold.Backend
