import CrudScaffold.Proofs.Backend.Placing
import CrudScaffold.Proofs.Text.Sorting

/-!
# CrudScaffold.Proofs.Backend.Commands — the file that a command has made

The artisan backend has a command make the file of a migration, and then looks for it: it takes the greatest name in the
migrations directory of which the name of the migration is a part (`latestWith_eq_some_iff`).  The command chooses the
stamp, so the file is found if its name comes after all the older ones that have that part; otherwise the greatest of
those is taken for it, and gets the text of the migration (`create_after_command`).
-/

namespace CrudScaffold.Backend

open CrudScaffold.Calendar CrudScaffold.Files CrudScaffold.Text
open CrudScaffold.Files.Tree

/-! ### The greatest name -/

theorem mem_candidates {fragment n : String} {names : List String} :
    n ∈ (sortTexts names).filter (hasPart fragment) ↔ n ∈ names ∧ hasPart fragment n = true := by
  rw [List.mem_filter, mem_sortTexts]

/-- The name that is found is one of those with the fragment, and none of them is greater. -/
theorem latestWith_eq_some_iff {fragment n : String} {names : List String} : latestWith fragment names = some n ↔
    n ∈ names ∧ hasPart fragment n = true ∧ ∀ k ∈ names, hasPart fragment k = true → k ≤ n := by
  -- the last of the sorted names; two names that are both greatest are the same
  have hgreatest : ∀ {n}, latestWith fragment names = some n →
      n ∈ names ∧ hasPart fragment n = true ∧ ∀ k ∈ names, hasPart fragment k = true → k ≤ n := by
    intro n h
    obtain ⟨front, hfront⟩ := List.getLast?_eq_some_iff.1 h
    have hsorted := (pairwise_sortTexts names).filter (hasPart fragment)
    rw [hfront, List.pairwise_append] at hsorted
    obtain ⟨hn, hpart⟩ := mem_candidates.1 (hfront ▸ List.mem_concat_self)
    refine ⟨hn, hpart, fun k hk hkpart => ?_⟩
    have hmem := mem_candidates.2 ⟨hk, hkpart⟩
    rw [hfront] at hmem
    rcases List.mem_append.1 hmem with hmem | hmem
    · exact hsorted.2.2 k hmem n List.mem_cons_self
    · obtain rfl := List.mem_singleton.1 hmem
      exact String.le_refl k
  refine ⟨hgreatest, fun ⟨hn, hpart, hmax⟩ => ?_⟩
  cases hlatest : latestWith fragment names with
  | none =>
    have hmem := mem_candidates.2 ⟨hn, hpart⟩
    rw [List.getLast?_eq_none_iff.1 hlatest] at hmem
    cases hmem
  | some k =>
    obtain ⟨hk, hkpart, hkmax⟩ := hgreatest hlatest
    rw [String.le_antisymm (hmax k hk hkpart) (hkmax n hn hpart)]

theorem latestWith_eq_none_iff {fragment : String} {names : List String} :
    latestWith fragment names = none ↔ ∀ n ∈ names, hasPart fragment n = false := by
  rw [latestWith, List.getLast?_eq_none_iff, List.eq_nil_iff_forall_not_mem]
  simp only [mem_candidates, not_and, Bool.not_eq_true]

theorem hasPart_migrationFile (m : Moment) (name : String) : hasPart name (migrationFile m name) = true := by
  rw [hasPart_iff, toList_migrationFile]
  exact ⟨m.stamp.toList ++ ['_'], ".php".toList, by simp⟩

/-! ### Running a command -/

/-- The call of the command that makes an artifact. -/
def makeCall (l : Layout) (kind : ArtifactKind) (name : String) : Call :=
  ⟨[l.settings.phpBinary, "artisan", kind.command, name], l.root, l.settings.timeout⟩

/-- A call as messages show it. -/
def Call.shown (c : Call) : String := " ".intercalate c.words

/-- What the end of the command means for the artifact. -/
def answered (l : Layout) (kind : ArtifactKind) (name : String) : Reply → Except Fault Unit
  | .timedOut => .error (.failure (.backend
      (.timedOut (makeCall l kind name).shown (Number.general l.settings.timeout) name)))
  | .notStarted reason => .error (.failure (.backend (.notStarted (makeCall l kind name).shown reason name)))
  | .nulInWord => .error (.crash (.access .nulInPath))
  | .raised x => .error (.crash (.foreign x))
  | .finished status output errors =>
    if status ≠ 0 then .error (.failure (.backend (.badStatus (makeCall l kind name).shown status
      (strip (if errors.isEmpty then output else errors)) name)))
    else .ok ()

/-- The scene after a call. -/
def afterCall (c : Call) (s : Scene Bench) : Scene Bench :=
  ⟨{ s.surroundings with
      tree := (s.surroundings.runner s.surroundings.calls.length c s.surroundings.tree).2
      calls := s.surroundings.calls ++ [c] },
    s.journal ++ [⟨.info, .files, "Running: " ++ c.shown⟩]⟩

/-- A command is run once, and only in a project with a script. -/
theorem run_runCommand_eq (l : Layout) (kind : ArtifactKind) (name : String) (s : Scene Bench) :
    (Backend.runCommand l kind name).run.run s =
      match isFile s.surroundings.tree s.surroundings.cwd (l.root.child "artisan") with
      | .error f => (.error (.crash (.access f)), s)
      | .ok false => (.error (.failure (.backend (.noScript l.root (l.root.child "artisan") name))), s)
      | .ok true => (answered l kind name
          (s.surroundings.runner s.surroundings.calls.length (makeCall l kind name) s.surroundings.tree).1,
          afterCall (makeCall l kind name) s) := by
  unfold Backend.runCommand
  simp only [run_bind, Act.run_look, Act.run_access]
  cases hscript : isFile s.surroundings.tree s.surroundings.cwd (l.root.child "artisan") with
  | error f => rfl
  | ok there =>
    cases there with
    | false => rfl
    | true =>
      simp only [Act.mapError_ok, Bool.not_true, Bool.false_eq_true, if_false]
      simp only [run_bind, Act.run_note, Act.run_change]
      show _ = (answered l kind name (s.surroundings.runner _ ⟨[l.settings.phpBinary, "artisan", kind.command, name],
        l.root, l.settings.timeout⟩ _).1, _)
      generalize (s.surroundings.runner _ ⟨[l.settings.phpBinary, "artisan", kind.command, name], l.root,
        l.settings.timeout⟩ _).1 = reply
      cases reply with
      | timedOut => rfl
      | notStarted reason => rfl
      | nulInWord => rfl
      | raised x => rfl
      | finished status output errors =>
        by_cases hstatus : status ≠ 0
        · simp only [answered, if_pos hstatus]
          rfl
        · simp only [answered, if_neg hstatus]
          rfl

theorem run_locate_eq (directory : Path) (fragment : String) (more : List String) (s : Scene Bench) :
    (locate directory fragment more).run.run s =
      match namesIn s.surroundings.tree s.surroundings.cwd directory with
      | .error f => (.error (Act.reported (.unlisted directory) f), s)
      | .ok names => (.ok (latestWith fragment (more ++ names)), s) := by
  simp only [locate, takenNames, run_bind, Act.run_look, Act.run_report]
  cases namesIn s.surroundings.tree s.surroundings.cwd directory <;> rfl

/-- A migration is made by the command, and then looked for in the tree that the command leaves. -/
theorem run_createByCommand_migration (l : Layout) (name : String) (s : Scene Bench) :
    (Backend.createByCommand l .migration name).run.run s =
      match (Backend.runCommand l .migration name).run.run s with
      | (.error f, s') => (.error f, s')
      | (.ok (), s') =>
        match namesIn s'.surroundings.tree s'.surroundings.cwd (l.directory .migration) with
        | .error f => (.error (Act.reported (.unlisted (l.directory .migration)) f), s')
        | .ok names =>
          match latestWith name names with
          | none => (.error (.failure (.backend
              (.noMigration (l.shown (l.directory .migration)) (l.directory .migration) name))), s')
          | some found => (.ok ((l.directory .migration).child found), s') := by
  simp only [Backend.createByCommand, if_true, run_bind]
  rcases (Backend.runCommand l .migration name).run.run s with ⟨f | u, s'⟩
  · rfl
  · simp only [run_locate_eq]
    cases namesIn s'.surroundings.tree s'.surroundings.cwd (l.directory .migration) with
    | error f => rfl
    | ok names =>
      simp only [List.nil_append]
      cases latestWith name names <;> rfl

/-! ### Writing -/

variable {l : Layout} {name : String}

theorem node_writeFile {p : Path} {content : String} {r : Except Fault Int} {s s' : Scene Bench}
    (h : (Backend.writeFile l p content).run.run s = (r, s')) {a : Location} {n : Node}
    (ha : a ≠ p.locationFrom s.surroundings.cwd) (hn : s.surroundings.tree.node? a = some n) :
    s'.surroundings.tree.node? a = some n := by
  obtain ⟨r', s₁, hrun, -, hcases⟩ := run_writeFile l p content s
  obtain ⟨rfl, rfl⟩ := Prod.mk.inj (hrun.symm.trans h)
  rcases hcases with ⟨-, hgrows⟩ | ⟨-, hwrites⟩
  · exact hgrows.node hn
  · rcases hwrites.around a ha with hsame | ⟨hnone, -⟩
    · rw [hsame, hn]
    · rw [hn] at hnone
      cases hnone

theorem stored_writeFile {p : Path} {content : String} {size : Int} {s s' : Scene Bench}
    (h : (Backend.writeFile l p content).run.run s = (.ok size, s')) :
    s'.surroundings.tree.node? (p.locationFrom s.surroundings.cwd) = some (.file content.toUTF8) := by
  obtain ⟨r', s₁, hrun, -, hcases⟩ := run_writeFile l p content s
  obtain ⟨rfl, rfl⟩ := Prod.mk.inj (hrun.symm.trans h)
  rcases hcases with ⟨⟨f, hf⟩, -⟩ | ⟨-, hwrites⟩
  · cases hf
  · exact hwrites.node

/-! ### The file that the command has made -/

/-- There is one new file in the migrations directory; its other entries are as they were. -/
structure Adds (l : Layout) (cwd : Location) (file : String) (t t' : Tree) : Prop where
  isName : Path.IsName file
  listed : isDirectory t' cwd (l.directory .migration) = .ok true
  fresh : t.node? (entryAt l cwd file) = none
  made : ∃ c, t'.node? (entryAt l cwd file) = some (.file c)
  others : ∀ n, n ≠ file → t'.node? (entryAt l cwd n) = t.node? (entryAt l cwd n)

/-- An entry of the migrations directory, of whose name the fragment is a part. -/
def Matches (l : Layout) (cwd : Location) (t : Tree) (fragment n : String) : Prop :=
  (t.node? (entryAt l cwd n)).isSome ∧ hasPart fragment n = true

theorem namesIn_of_isDirectory {t : Tree} {cwd : Location} {directory : Path}
    (h : isDirectory t cwd directory = .ok true) :
    namesIn t cwd directory = .ok (t.childNames (directory.locationFrom cwd)) := by
  obtain ⟨hfind, hd⟩ := isDirectory_ok h
  refine namesIn_eq_ok_iff.2 ⟨Bool.eq_false_iff.2 fun hnul => ?_, Or.inr ⟨_, hfind, hd, rfl⟩⟩
  simp only [isDirectory, look, hnul, if_true] at h
  cases h

/-- The entries that are listed when the command is done are the new file and the older ones. -/
theorem Adds.listing {cwd : Location} {file : String} {t t' : Tree} (h : Adds l cwd file t t') :
    ∃ names, namesIn t' cwd (l.directory .migration) = .ok names ∧
      ∀ n, n ∈ names ↔ n = file ∨ (t.node? (entryAt l cwd n)).isSome := by
  refine ⟨_, namesIn_of_isDirectory h.listed, fun n => ?_⟩
  rw [mem_childNames_iff, ← entryAt]
  by_cases hn : n = file
  · obtain ⟨c, hc⟩ := h.made
    simp [hn, hc]
  · simp [hn, h.others n hn]

theorem Adds.ne_of_node {cwd : Location} {file n : String} {t t' : Tree} (h : Adds l cwd file t t')
    (hn : (t.node? (entryAt l cwd n)).isSome) : n ≠ file := by
  intro he
  rw [he, h.fresh] at hn
  cases hn

theorem locationFrom_entry (cwd : Location) {n : String} (h : Path.IsName n) :
    ((l.directory .migration).child n).locationFrom cwd = entryAt l cwd n :=
  Path.locationFrom_child cwd _ h

theorem run_create_of_listing {s : Scene Bench} {t' : Tree} {output errors : String} {names : List String}
    {found : String}
    (hscript : isFile s.surroundings.tree s.surroundings.cwd (l.root.child "artisan") = .ok true)
    (hreply : s.surroundings.runner s.surroundings.calls.length (makeCall l .migration name) s.surroundings.tree =
      (.finished 0 output errors, t'))
    (hnames : namesIn t' s.surroundings.cwd (l.directory .migration) = .ok names)
    (hfound : latestWith name names = some found) : (Backend.createByCommand l .migration name).run.run s =
      (.ok ((l.directory .migration).child found), afterCall (makeCall l .migration name) s) := by
  have htree : (afterCall (makeCall l .migration name) s).surroundings.tree = t' := congrArg Prod.snd hreply
  have hcwd : (afterCall (makeCall l .migration name) s).surroundings.cwd = s.surroundings.cwd := rfl
  rw [run_createByCommand_migration, run_runCommand_eq]
  simp only [hscript, hreply, answered, ne_eq, not_true_eq_false, if_false, htree, hcwd, hnames, hfound]

/-- The new file comes after every older entry that matches, and writing it keeps all that was in the directory. -/
structure TakesNew (l : Layout) (name file : String) (before : Bench) (s : Scene Bench) : Prop where
  greatest : ∀ n, Matches l before.cwd before.tree name n → n < file
  keeps : ∀ content r s', (Backend.writeFile l ((l.directory .migration).child file) content).run.run s = (r, s') →
    ∀ n old, before.tree.node? (entryAt l before.cwd n) = some old →
      s'.surroundings.tree.node? (entryAt l before.cwd n) = some old

/-- The entry is the greatest of the older ones that match, it comes after the new file, and the text of the migration
takes its place. -/
structure TakesOlder (l : Layout) (name file : String) (before : Bench) (s : Scene Bench) (found : String) : Prop where
  after : file < found
  older : Matches l before.cwd before.tree name found
  greatest : ∀ n, Matches l before.cwd before.tree name n → n ≤ found
  loses : Path.IsName found → ∀ content size s',
    (Backend.writeFile l ((l.directory .migration).child found) content).run.run s = (.ok size, s') →
      s'.surroundings.tree.node? (entryAt l before.cwd found) = some (.file content.toUTF8)

theorem Adds.takesNew {file : String} {before : Bench} {s : Scene Bench}
    (h : Adds l before.cwd file before.tree s.surroundings.tree) (hcwd : s.surroundings.cwd = before.cwd)
    (hgreatest : ∀ n, Matches l before.cwd before.tree name n → n ≤ file) : TakesNew l name file before s := by
  refine ⟨fun n hn => ?_, fun content r s' hwrite n old hold => ?_⟩
  · have hother := h.ne_of_node hn.1
    exact String.not_le.1 fun hle => hother (String.le_antisymm (hgreatest n hn) hle)
  · have hother : n ≠ file := h.ne_of_node (by simp [hold])
    refine node_writeFile hwrite ?_ ?_
    · rw [hcwd, locationFrom_entry _ h.isName]
      exact fun he => hother (by simpa [entryAt] using he)
    · rw [h.others n hother, hold]

/-- A command that succeeds has made one new migration, under a stamp of its choice.  If the names of all older entries
that match the migration come before, the path that is given is that of the new file; otherwise it is that of the
greatest of these entries. -/
theorem create_after_command {s : Scene Bench} {m : Moment} {t' : Tree} {output errors : String}
    (hscript : isFile s.surroundings.tree s.surroundings.cwd (l.root.child "artisan") = .ok true)
    (hreply : s.surroundings.runner s.surroundings.calls.length (makeCall l .migration name) s.surroundings.tree =
      (.finished 0 output errors, t'))
    (hadds : Adds l s.surroundings.cwd (migrationFile m name) s.surroundings.tree t') :
    ∃ found s', (Backend.createByCommand l .migration name).run.run s =
        (.ok ((l.directory .migration).child found), s') ∧
      s'.surroundings.tree = t' ∧ s'.surroundings.calls = s.surroundings.calls ++ [makeCall l .migration name] ∧
      (found = migrationFile m name ∧ TakesNew l name (migrationFile m name) s.surroundings s' ∨
        TakesOlder l name (migrationFile m name) s.surroundings s' found) := by
  obtain ⟨names, hnames, hmem⟩ := hadds.listing
  have hfile : migrationFile m name ∈ names := (hmem _).2 (Or.inl rfl)
  -- the new migration matches, so something is found
  obtain ⟨found, hfound⟩ : ∃ found, latestWith name names = some found := by
    refine Option.ne_none_iff_exists'.1 fun hnone => ?_
    have hno := latestWith_eq_none_iff.1 hnone _ hfile
    rw [hasPart_migrationFile] at hno
    cases hno
  obtain ⟨hlisted, hpart, hgreatest⟩ := latestWith_eq_some_iff.1 hfound
  have hlast := hgreatest _ hfile (hasPart_migrationFile m name)
  have hbefore : ∀ n, Matches l s.surroundings.cwd s.surroundings.tree name n → n ≤ found :=
    fun n hn => hgreatest n ((hmem n).2 (Or.inr hn.1)) hn.2
  have htree : (afterCall (makeCall l .migration name) s).surroundings.tree = t' := congrArg Prod.snd hreply
  have hcwd : (afterCall (makeCall l .migration name) s).surroundings.cwd = s.surroundings.cwd := rfl
  have hrun := run_create_of_listing hscript hreply hnames hfound
  refine ⟨found, _, hrun, htree, rfl, ?_⟩
  -- the new file is the greatest match, or an older one is in front of it
  by_cases hnew : found = migrationFile m name
  · refine Or.inl ⟨hnew, Adds.takesNew ?_ hcwd (hnew ▸ hbefore)⟩
    rw [htree]
    exact hadds
  · have holder := ((hmem found).1 hlisted).resolve_left hnew
    refine Or.inr ⟨?_, ⟨holder, hpart⟩, hbefore, fun hname content size s'' hwrite => ?_⟩
    · exact String.not_le.1 fun hle => hnew (String.le_antisymm hle hlast)
    · have hstored := stored_writeFile hwrite
      rw [hcwd, locationFrom_entry _ hname] at hstored
      exact hstored

/-- A project with a script, and with a migration of a later year than the clock's. -/
def siteTree : Tree :=
  ⟨[(["artisan"], .file ByteArray.empty), (["database"], .directory), (["database", "migrations"], .directory),
    (["database", "migrations", "2025_01_01_000000_create_posts_table.php"], .file "old".toUTF8)]⟩

/-- The tree of the project when the command has made a migration. -/
def siteTreeAfter : Tree :=
  siteTree.put ["database", "migrations", "2024_01_01_000000_create_posts_table.php"] (.file ByteArray.empty)

/-- The project, with a command that makes the migration. -/
def siteScene : Scene Bench :=
  ⟨⟨siteTree, [], fun _ => ⟨2024, 1, 1, 0⟩, 0, fun _ _ _ => (.finished 0 "" "", siteTreeAfter), [], none, []⟩, []⟩

theorem adds_siteTree : Adds topLayout [] (migrationFile ⟨2024, 1, 1, 0⟩ "create_posts_table") siteTree
    siteTreeAfter := by
  have hplace : entryAt topLayout [] (migrationFile ⟨2024, 1, 1, 0⟩ "create_posts_table") =
      ["database", "migrations", "2024_01_01_000000_create_posts_table.php"] := by decide
  refine ⟨isName_migrationFile (by decide), by decide, by decide, ⟨ByteArray.empty, ?_⟩, fun n hn => ?_⟩
  · rw [hplace, siteTreeAfter, node?_put _ _ _ _ (by simp), if_pos rfl]
  · have hother : entryAt topLayout [] n ≠ ["database", "migrations", "2024_01_01_000000_create_posts_table.php"] :=
      fun he => hn (by simpa [entryAt] using he.trans hplace.symm)
    rw [siteTreeAfter, node?_put _ _ _ _ (by simp [entryAt]), if_neg hother]

/-- The migration of the later year is taken for the new one. -/
theorem create_after_command_site :
    isFile siteTree [] (topLayout.root.child "artisan") = .ok true ∧
    siteScene.surroundings.runner 0 (makeCall topLayout .migration "create_posts_table") siteTree =
      (.finished 0 "" "", siteTreeAfter) ∧
    Adds topLayout [] (migrationFile ⟨2024, 1, 1, 0⟩ "create_posts_table") siteTree siteTreeAfter ∧
    ∃ found s', (Backend.createByCommand topLayout .migration "create_posts_table").run.run siteScene =
        (.ok ((topLayout.directory .migration).child found), s') ∧
      s'.surroundings.tree = siteTreeAfter ∧
      s'.surroundings.calls = [makeCall topLayout .migration "create_posts_table"] ∧
      (found = migrationFile ⟨2024, 1, 1, 0⟩ "create_posts_table" ∧
          TakesNew topLayout "create_posts_table" (migrationFile ⟨2024, 1, 1, 0⟩ "create_posts_table")
            siteScene.surroundings s' ∨
        TakesOlder topLayout "create_posts_table" (migrationFile ⟨2024, 1, 1, 0⟩ "create_posts_table")
          siteScene.surroundings s' found) := by
  have hscript : isFile siteTree [] (topLayout.root.child "artisan") = .ok true := by decide
  exact ⟨hscript, rfl, adds_siteTree, create_after_command (s := siteScene) hscript rfl adds_siteTree⟩

/-- The path that is given is not always that of the new file. -/
theorem not_create_takes_new : ¬∀ (l : Layout) (name : String) (s : Scene Bench) (m : Moment) (t' : Tree)
    (output errors : String), l.root.isAbsolute = true → s.surroundings.tree.Closed →
      isFile s.surroundings.tree s.surroundings.cwd (l.root.child "artisan") = .ok true →
      s.surroundings.runner s.surroundings.calls.length (makeCall l .migration name) s.surroundings.tree =
        (.finished 0 output errors, t') →
      Adds l s.surroundings.cwd (migrationFile m name) s.surroundings.tree t' →
      ((Backend.createByCommand l .migration name).run.run s).1 =
        .ok ((l.directory .migration).child (migrationFile m name)) := by
  intro h
  have hnew := h topLayout "create_posts_table" siteScene ⟨2024, 1, 1, 0⟩ siteTreeAfter "" "" rfl
    (closed_of_entries (by decide)) (by decide) rfl adds_siteTree
  have hnames : namesIn siteTreeAfter [] (topLayout.directory .migration) =
      .ok ["2025_01_01_000000_create_posts_table.php", "2024_01_01_000000_create_posts_table.php"] := by decide
  have hlatest : latestWith "create_posts_table"
      ["2025_01_01_000000_create_posts_table.php", "2024_01_01_000000_create_posts_table.php"] =
        some "2025_01_01_000000_create_posts_table.php" :=
    latestWith_eq_some_iff.2 ⟨by decide, by decide, by decide⟩
  rw [run_create_of_listing (s := siteScene) (by decide) rfl hnames hlatest] at hnew
  exact absurd hnew (by decide)

end CrudScaffold.Backend
