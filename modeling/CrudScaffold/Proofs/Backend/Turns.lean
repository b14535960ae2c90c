import CrudScaffold.Proofs.Backend.Choices
import CrudScaffold.Proofs.Backend.Commands

/-!
# CrudScaffold.Proofs.Backend.Turns — the turn of an artifact that a command creates

The turn has three parts (`run_createByCommand_eq`).  First it is settled whether the command may be run; what keeps it
from being run is listed in `Hindered`.  Then the command is run, once.  Last, its answer is taken and the file is
looked for in the tree that it leaves; what may go wrong then is listed in `Mishap`.  A hindrance ends the turn before
the call, and a mishap after it (`run_createByCommand_of_hindered`, `run_createByCommand_of_cleared`).
-/

namespace CrudScaffold.Backend

open CrudScaffold.Files CrudScaffold.Text

variable {l : Layout} {b : Bench} {kind : ArtifactKind} {name : String} {f : Fault}

/-! ## Before the command -/

/-- A class has a path on which nothing stands, or which may be replaced. -/
def Vacant (l : Layout) (b : Bench) (kind : ArtifactKind) (name : String) : Prop :=
  kind ≠ .migration → ∃ p found, l.classPath kind name = .ok p ∧ pathExists b.tree b.cwd p = .ok found ∧
    (found = true → l.settings.overwrite = true)

/-- The command may be run. -/
structure Cleared (l : Layout) (b : Bench) (kind : ArtifactKind) (name : String) : Prop where
  vacant : Vacant l b kind name
  script : isFile b.tree b.cwd (l.root.child "artisan") = .ok true

/-- What keeps the command from being run, with the fault that ends the turn. -/
inductive Hindered (l : Layout) (b : Bench) (kind : ArtifactKind) (name : String) : Fault → Prop
  | unnamed {fault : BackendFault} (hkind : kind ≠ .migration) (hclass : l.classPath kind name = .error fault) :
      Hindered l b kind name (.failure (.backend fault))
  /-- Whether there is a file of the class cannot be seen. -/
  | unseen {p : Path} {fault : AccessFault} (hkind : kind ≠ .migration) (hclass : l.classPath kind name = .ok p)
      (hseen : pathExists b.tree b.cwd p = .error fault) : Hindered l b kind name (.crash (.access fault))
  | occupied {p : Path} (hkind : kind ≠ .migration) (hclass : l.classPath kind name = .ok p)
      (hseen : pathExists b.tree b.cwd p = .ok true) (hkeep : l.settings.overwrite = false) :
      Hindered l b kind name (.failure (.backend (.occupied (l.shown p) p name)))
  /-- Whether there is a script cannot be seen. -/
  | scriptUnseen {fault : AccessFault} (hvacant : Vacant l b kind name)
      (hscript : isFile b.tree b.cwd (l.root.child "artisan") = .error fault) :
      Hindered l b kind name (.crash (.access fault))
  | noScript (hvacant : Vacant l b kind name)
      (hscript : isFile b.tree b.cwd (l.root.child "artisan") = .ok false) :
      Hindered l b kind name (.failure (.backend (.noScript l.root (l.root.child "artisan") name)))

/-- Whether there is a place for the file of the artifact. -/
def vacancyIn (l : Layout) (b : Bench) (kind : ArtifactKind) (name : String) : Except Fault Unit :=
  if kind = .migration then .ok () else (classIn l b kind name).map fun _ => ()

/-- What is settled before the command is run: the place first, and then the script. -/
def clearanceIn (l : Layout) (b : Bench) (kind : ArtifactKind) (name : String) : Except Fault Unit :=
  match vacancyIn l b kind name with
  | .error f => .error f
  | .ok () => match isFile b.tree b.cwd (l.root.child "artisan") with
    | .error f => .error (.crash (.access f))
    | .ok false => .error (.failure (.backend (.noScript l.root (l.root.child "artisan") name)))
    | .ok true => .ok ()

theorem vacancyIn_ok_iff : vacancyIn l b kind name = .ok () ↔ Vacant l b kind name := by
  by_cases hkind : kind = .migration
  · exact iff_of_true (if_pos hkind) fun hclass => absurd hkind hclass
  rw [vacancyIn, if_neg hkind]
  constructor
  · intro h _
    cases hp : classIn l b kind name with
    | error e =>
      rw [hp] at h
      cases h
    | ok p =>
      obtain ⟨hclass, found, hseen, hmay⟩ := classIn_ok hp
      exact ⟨p, found, hclass, hseen, hmay⟩
  · intro h
    obtain ⟨p, found, hclass, hseen, hmay⟩ := h hkind
    have hfree : (found && !l.settings.overwrite) = false := by
      cases found with
      | false => rfl
      | true => simp [hmay rfl]
    simp only [classIn, hclass, hseen, hfree]
    rfl

theorem hindered_of_vacancyIn (h : vacancyIn l b kind name = .error f) : Hindered l b kind name f := by
  by_cases hkind : kind = .migration
  · rw [vacancyIn, if_pos hkind] at h
    cases h
  rw [vacancyIn, if_neg hkind, classIn] at h
  split at h
  · rename_i fault hclass
    cases h
    exact .unnamed hkind hclass
  rename_i p hclass
  split at h
  · rename_i fault hseen
    cases h
    exact .unseen hkind hclass hseen
  rename_i found hseen
  split at h
  · rename_i hblocked
    obtain ⟨rfl, hkeep⟩ := Bool.and_eq_true_iff.1 hblocked
    cases h
    exact .occupied hkind hclass hseen (by simpa using hkeep)
  · cases h

theorem clearanceIn_ok_iff : clearanceIn l b kind name = .ok () ↔ Cleared l b kind name := by
  constructor
  · intro h
    unfold clearanceIn at h
    split at h
    · cases h
    rename_i hvacant
    split at h
    · cases h
    · cases h
    · rename_i hscript
      exact ⟨vacancyIn_ok_iff.1 hvacant, hscript⟩
  · intro h
    simp only [clearanceIn, vacancyIn_ok_iff.2 h.vacant, h.script]

theorem clearanceIn_error_iff : clearanceIn l b kind name = .error f ↔ Hindered l b kind name f := by
  constructor
  · intro h
    unfold clearanceIn at h
    split at h
    · rename_i hhindered
      cases h
      exact hindered_of_vacancyIn hhindered
    rename_i hvacant
    have hvacant := vacancyIn_ok_iff.1 hvacant
    split at h
    · rename_i hscript
      cases h
      exact .scriptUnseen hvacant hscript
    · rename_i hscript
      cases h
      exact .noScript hvacant hscript
    · cases h
  · intro h
    cases h with
    | unnamed hkind hclass => simp only [clearanceIn, vacancyIn, hkind, classIn, hclass, if_false, Except.map]
    | unseen hkind hclass hseen =>
      simp only [clearanceIn, vacancyIn, hkind, classIn, hclass, hseen, if_false, Except.map]
    | occupied hkind hclass hseen hkeep =>
      simp [clearanceIn, vacancyIn, hkind, classIn, hclass, hseen, hkeep, Except.map]
    | scriptUnseen hvacant hscript => simp only [clearanceIn, vacancyIn_ok_iff.2 hvacant, hscript]
    | noScript hvacant hscript => simp only [clearanceIn, vacancyIn_ok_iff.2 hvacant, hscript]

theorem cleared_or_hindered (l : Layout) (b : Bench) (kind : ArtifactKind) (name : String) :
    Cleared l b kind name ∨ ∃ f, Hindered l b kind name f := by
  cases h : clearanceIn l b kind name with
  | ok u => exact Or.inl (clearanceIn_ok_iff.1 h)
  | error f => exact Or.inr ⟨f, clearanceIn_error_iff.1 h⟩

theorem Hindered.not_cleared (h : Hindered l b kind name f) : ¬ Cleared l b kind name := by
  intro hcleared
  have hclearance := clearanceIn_error_iff.2 h
  rw [clearanceIn_ok_iff.2 hcleared] at hclearance
  cases hclearance

theorem Hindered.unique {f' : Fault} (h : Hindered l b kind name f) (h' : Hindered l b kind name f') : f = f' := by
  have hclearance := clearanceIn_error_iff.2 h
  rw [clearanceIn_error_iff.2 h'] at hclearance
  exact (Except.error.inj hclearance).symm

/-! ## The answer -/

/-- The answer to the command for an artifact, and the tree that the command leaves. -/
def commandIn (l : Layout) (b : Bench) (kind : ArtifactKind) (name : String) : Reply × Tree :=
  b.runner b.calls.length (makeCall l kind name) b.tree

/-- The command has not done its work, with the fault that ends the turn. -/
inductive Unfinished (l : Layout) (kind : ArtifactKind) (name : String) : Reply → Fault → Prop
  | timedOut : Unfinished l kind name .timedOut (.failure (.backend
      (.timedOut (makeCall l kind name).shown (Number.general l.settings.timeout) name)))
  | notStarted (reason : String) : Unfinished l kind name (.notStarted reason) (.failure (.backend
      (.notStarted (makeCall l kind name).shown reason name)))
  | nulInWord : Unfinished l kind name .nulInWord (.crash (.access .nulInPath))
  | raised (x : Data.Raised) : Unfinished l kind name (.raised x) (.crash (.foreign x))
  | badStatus {status : Int} (output errors : String) (hstatus : status ≠ 0) :
      Unfinished l kind name (.finished status output errors) (.failure (.backend
        (.badStatus (makeCall l kind name).shown status (strip (if errors.isEmpty then output else errors)) name)))

theorem answered_ok_iff {reply : Reply} :
    answered l kind name reply = .ok () ↔ ∃ output errors, reply = .finished 0 output errors := by
  cases reply with
  | finished status output errors => by_cases h : status = 0 <;> simp [answered, h]
  | _ => simp [answered]

theorem answered_error_iff {reply : Reply} : answered l kind name reply = .error f ↔ Unfinished l kind name reply f := by
  constructor
  · intro h
    unfold answered at h
    split at h
    · cases h
      exact .timedOut
    · cases h
      exact .notStarted _
    · cases h
      exact .nulInWord
    · cases h
      exact .raised _
    · split at h
      · rename_i hstatus
        cases h
        exact .badStatus _ _ hstatus
      · cases h
  · intro h
    cases h with
    | badStatus output errors hstatus => rw [answered, if_pos hstatus]
    | _ => rfl

/-! ## After the command -/

/-- There is no file where the command should have made one, with the fault that ends the turn. -/
inductive Unfound (l : Layout) (cwd : Location) (t : Tree) (kind : ArtifactKind) (name : String) : Fault → Prop
  | noFile {p : Path} (hkind : kind ≠ .migration) (hclass : l.classPath kind name = .ok p)
      (hseen : isFile t cwd p = .ok false) :
      Unfound l cwd t kind name (.failure (.backend (.noFile (l.shown p) p name)))
  /-- Whether there is a file of the class cannot be seen. -/
  | unseen {p : Path} {fault : AccessFault} (hkind : kind ≠ .migration) (hclass : l.classPath kind name = .ok p)
      (hseen : isFile t cwd p = .error fault) : Unfound l cwd t kind name (.crash (.access fault))
  | noMigration {names : List String} (hkind : kind = .migration)
      (hnames : namesIn t cwd (l.directory .migration) = .ok names) (hnone : ∀ n ∈ names, hasPart name n = false) :
      Unfound l cwd t kind name (.failure (.backend
        (.noMigration (l.shown (l.directory .migration)) (l.directory .migration) name)))
  /-- The migrations directory cannot be listed. -/
  | unlisted {fault : AccessFault} (hkind : kind = .migration)
      (hnames : namesIn t cwd (l.directory .migration) = .error fault) :
      Unfound l cwd t kind name (Act.reported (.unlisted (l.directory .migration)) fault)

/-- The file that is found when the command is done. -/
def foundIn (l : Layout) (cwd : Location) (t : Tree) (kind : ArtifactKind) (name : String) : Except Fault Path :=
  if kind = .migration then
    match namesIn t cwd (l.directory .migration) with
    | .error f => .error (Act.reported (.unlisted (l.directory .migration)) f)
    | .ok names => match latestWith name names with
      | none => .error (.failure (.backend
          (.noMigration (l.shown (l.directory .migration)) (l.directory .migration) name)))
      | some found => .ok ((l.directory .migration).child found)
  else match l.classPath kind name with
    | .error fault => .error (.failure (.backend fault))
    | .ok p => match isFile t cwd p with
      | .error f => .error (.crash (.access f))
      | .ok true => .ok p
      | .ok false => .error (.failure (.backend (.noFile (l.shown p) p name)))

theorem foundIn_error_iff {cwd : Location} {t : Tree} (hclass : kind ≠ .migration → ∃ p, l.classPath kind name = .ok p) :
    foundIn l cwd t kind name = .error f ↔ Unfound l cwd t kind name f := by
  constructor
  · intro h
    by_cases hkind : kind = .migration
    · rw [foundIn, if_pos hkind] at h
      split at h
      · rename_i hnames
        cases h
        exact .unlisted hkind hnames
      · rename_i names hnames
        split at h
        · rename_i hnone
          cases h
          exact .noMigration hkind hnames (latestWith_eq_none_iff.1 hnone)
        · cases h
    · obtain ⟨p, hp⟩ := hclass hkind
      rw [foundIn, if_neg hkind, hp] at h
      simp only at h
      split at h
      · rename_i hseen
        cases h
        exact .unseen hkind hp hseen
      · cases h
      · rename_i hseen
        cases h
        exact .noFile hkind hp hseen
  · intro h
    cases h with
    | noFile hkind hp hseen => simp only [foundIn, hkind, hp, hseen, if_false]
    | unseen hkind hp hseen => simp only [foundIn, hkind, hp, hseen, if_false]
    | noMigration hkind hnames hnone => simp only [foundIn, hkind, hnames, latestWith_eq_none_iff.2 hnone, if_true]
    | unlisted hkind hnames => simp only [foundIn, hkind, hnames, if_true]

/-- What goes wrong with a command that is run, with the fault that ends the turn. -/
inductive Mishap (l : Layout) (b : Bench) (kind : ArtifactKind) (name : String) (f : Fault) : Prop
  | unfinished (h : Unfinished l kind name (commandIn l b kind name).1 f)
  | unfound {output errors : String} (hreply : (commandIn l b kind name).1 = .finished 0 output errors)
      (h : Unfound l b.cwd (commandIn l b kind name).2 kind name f)

/-! ## The turn -/

/-- The turn: what is settled before, the command, and what is found after it. -/
theorem run_createByCommand_eq (l : Layout) (kind : ArtifactKind) (name : String) (s : Scene Bench) :
    (Backend.createByCommand l kind name).run.run s = match clearanceIn l s.surroundings kind name with
      | .error f => (.error f, s)
      | .ok () => ((answered l kind name (commandIn l s.surroundings kind name).1).bind fun _ =>
          foundIn l s.surroundings.cwd (commandIn l s.surroundings kind name).2 kind name,
        afterCall (makeCall l kind name) s) := by
  by_cases hkind : kind = .migration
  · -- a migration: the command is run, then the directory is listed
    subst hkind
    rw [run_createByCommand_migration, run_runCommand_eq, clearanceIn, vacancyIn]
    simp only [if_true]
    rcases isFile s.surroundings.tree s.surroundings.cwd (l.root.child "artisan") with e | _ | _
    · rfl
    · rfl
    simp only [commandIn]
    rcases answered l .migration name (s.surroundings.runner s.surroundings.calls.length
      (makeCall l .migration name) s.surroundings.tree).1 with e | u
    · rfl
    simp only [foundIn, if_true, Except.bind, afterCall]
    cases namesIn (s.surroundings.runner s.surroundings.calls.length (makeCall l .migration name)
      s.surroundings.tree).2 s.surroundings.cwd (l.directory .migration) with
    | error e => rfl
    | ok names =>
      simp only
      cases latestWith name names <;> rfl
  · -- a class: its path has to be vacant before the command is run
    rw [Backend.createByCommand, if_neg hkind, run_bind, run_vacantClassPath_eq, clearanceIn, vacancyIn, if_neg hkind]
    cases hp : classIn l s.surroundings kind name with
    | error e => rfl
    | ok p =>
      simp only [Except.map]
      rw [run_bind, run_runCommand_eq]
      rcases isFile s.surroundings.tree s.surroundings.cwd (l.root.child "artisan") with e | _ | _
      · rfl
      · rfl
      simp only [commandIn]
      rcases answered l kind name (s.surroundings.runner s.surroundings.calls.length
        (makeCall l kind name) s.surroundings.tree).1 with e | u
      · rfl
      simp only [foundIn, hkind, (classIn_ok hp).1, if_false, Except.bind, run_bind, Act.run_look, Act.run_access,
        afterCall]
      rcases isFile (s.surroundings.runner s.surroundings.calls.length (makeCall l kind name) s.surroundings.tree).2
        s.surroundings.cwd p with e | _ | _ <;> rfl

/-- A hindrance ends the turn, and nothing has happened. -/
theorem run_createByCommand_of_hindered {s : Scene Bench} (h : Hindered l s.surroundings kind name f) :
    (Backend.createByCommand l kind name).run.run s = (.error f, s) := by
  rw [run_createByCommand_eq, clearanceIn_error_iff.2 h]

/-- Where nothing hinders it the command is run, and the turn fails exactly by a mishap. -/
theorem run_createByCommand_of_cleared {s : Scene Bench} (h : Cleared l s.surroundings kind name) :
    ∃ r, (Backend.createByCommand l kind name).run.run s = (r, afterCall (makeCall l kind name) s) ∧
      ∀ f, r = .error f ↔ Mishap l s.surroundings kind name f := by
  have hclass : kind ≠ .migration → ∃ p, l.classPath kind name = .ok p := fun hkind =>
    let ⟨p, _, hp, _⟩ := h.vacant hkind
    ⟨p, hp⟩
  rw [run_createByCommand_eq, clearanceIn_ok_iff.2 h]
  refine ⟨_, rfl, fun f => ?_⟩
  cases hanswer : answered l kind name (commandIn l s.surroundings kind name).1 with
  | error e =>
    -- the command has gone wrong, so no file is looked for
    have hunfinished := answered_error_iff.1 hanswer
    constructor
    · intro hf
      obtain rfl := Except.error.inj hf
      exact .unfinished hunfinished
    · rintro (hother | ⟨hreply, -⟩)
      · have hother := answered_error_iff.2 hother
        rw [hanswer] at hother
        obtain rfl := Except.error.inj hother
        rfl
      · rw [answered_ok_iff.2 ⟨_, _, hreply⟩] at hanswer
        cases hanswer
  | ok u =>
    -- the command has finished, so only the search for the file can fail
    obtain ⟨output, errors, hreply⟩ := answered_ok_iff.1 hanswer
    refine (foundIn_error_iff hclass).trans ⟨fun hunfound => .unfound hreply hunfound, ?_⟩
    rintro (hother | ⟨-, hunfound⟩)
    · have hother := answered_error_iff.2 hother
      rw [hanswer] at hother
      cases hother
    · exact hunfound

/-- A file that has been made tells that its command was run. -/
theorem createByCommand_ok {s s' : Scene Bench} {p : Path}
    (h : (Backend.createByCommand l kind name).run.run s = (.ok p, s')) :
    Cleared l s.surroundings kind name ∧ s' = afterCall (makeCall l kind name) s := by
  rcases cleared_or_hindered l s.surroundings kind name with hcleared | ⟨f, hhindered⟩
  · obtain ⟨r, hrun, -⟩ := run_createByCommand_of_cleared hcleared
    exact ⟨hcleared, (Prod.mk.inj (h.symm.trans hrun)).2⟩
  · rw [run_createByCommand_of_hindered hhindered] at h
    cases h

end CrudScaffold.Backend
