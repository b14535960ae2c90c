import CrudScaffold.Proofs.Backend.Escapes
import CrudScaffold.Proofs.Files.Rewriting

/-!
# CrudScaffold.Proofs.Backend.Restoring — what has been stored can be stored again

An artifact that has been created and written is `Restorable` under its path (`restorable_of_stored`), and stays so as
long as no directory is lost.  If files may be replaced, nothing but the end of the calendar keeps the backend from
creating it again (`createFile_again`), under the same path if it is a class, and then from writing it
(`writeFile_again`).  If files may not be replaced, a class that is there is refused (`classIn_of_find`).

A migration gets another stamp.  Stamps of stampable moments have one width, so the new file can be written where the
old one could.
-/

namespace CrudScaffold.Backend

open CrudScaffold.Calendar CrudScaffold.Files CrudScaffold.Text
open CrudScaffold.Files.Tree

variable {l : Layout} {kind : ArtifactKind} {name : String} {t t' : Tree} {cwd a : Location} {p : Path} {b : Bench}

/-! ### Choosing a path again -/

/-- A class that is there is replaced if the settings allow it, and refused if they do not. -/
theorem classIn_of_find (hclass : l.classPath kind name = .ok p) (hnul : p.hasNul = false)
    (hfind : b.tree.find b.cwd p = .ok a) : classIn l b kind name =
      if l.settings.overwrite then .ok p else .error (.failure (.backend (.occupied (l.shown p) p name))) := by
  obtain ⟨last, -, hlast, hname⟩ := classPath_ok hclass
  obtain ⟨node, hnode⟩ := Option.isSome_iff_exists.1 (node_of_find hfind hlast hname.2.2.2)
  have hthere : pathExists b.tree b.cwd p = .ok true := by
    simp only [pathExists, look, hnul, hfind, hnode]
    rfl
  simp only [classIn, hclass, hthere]
  cases l.settings.overwrite <;> rfl

theorem momentIn_of_find {f : Fault} (hnul : (l.directory .migration).hasNul = false)
    (hfind : b.tree.find b.cwd (l.directory .migration) = .ok a) (hdir : b.tree.isDirectoryAt a = true)
    (h : momentIn l b [] = .error f) : f = .crash .endOfCalendar := by
  have hnames : namesIn b.tree b.cwd (l.directory .migration) = .ok (b.tree.childNames a) :=
    namesIn_eq_ok_iff.2 ⟨hnul, Or.inr ⟨a, hfind, hdir, rfl⟩⟩
  unfold momentIn at h
  split at h
  · exact (Except.error.inj h).symm
  rw [hnames] at h
  simp only at h
  split at h
  · exact (Except.error.inj h).symm
  · cases h

/-- When the calendar ends, its last moment is the latest stamp, or an entry of the migrations directory begins with
its stamp. -/
theorem last_of_momentIn (hb : Timely b) (h : momentIn l b [] = .error (.crash .endOfCalendar)) :
    b.lastStamp = some .last ∨ ∃ names, namesIn b.tree b.cwd (l.directory .migration) = .ok names ∧
      ∃ n ∈ names, beginsWith Moment.last.stamp n = true := by
  unfold momentIn at h
  -- no start: the last stamp was the last moment
  split at h
  · rename_i hstart
    left
    unfold stampAfter at hstart
    split at hstart
    · cases hstart
    · rename_i k hk
      split at hstart
      · cases hstart
      · rw [hk, Moment.eq_last (hb.lastStamp k hk).valid hstart]
  rename_i start hstart
  -- no free moment: the names of the last moment are taken
  have hstampable : start.Stampable := by
    rcases stampAfter_cases hstart with ⟨rfl, -⟩ | ⟨k, hk, hnext⟩
    · exact hb.clock _
    · exact (hb.lastStamp k hk).next hnext
  split at h
  · rename_i f hnames
    cases f <;> cases h
  rename_i names hnames
  split at h
  · rename_i hfree
    rw [List.append_nil] at hfree
    exact Or.inr ⟨names, hnames, taken_of_firstFree hstampable hfree⟩
  · cases h

/-! ### Making and writing again -/

theorem makeBare_of_writable (h : Writable t cwd p) (hfile : t.isDirectoryAt (p.locationFrom cwd) = false) :
    ∃ t', Backend.makeBare t cwd p = (.ok (), t') ∧ GrowsBy (EmptyAt cwd p) t t' := by
  obtain ⟨t', htouch⟩ := h.touch hfile
  refine ⟨t', ?_, ?_⟩
  · simp only [Backend.makeBare, h.ensureDirectory, htouch]
  · have hgrows := touch_growsBy t cwd p
    rwa [htouch] at hgrows

theorem isDirectoryAt_of_emptyAt (h : GrowsBy (EmptyAt cwd p) t t') (hfile : t.isDirectoryAt a = false) :
    t'.isDirectoryAt a = false := by
  rcases h a with hsame | ⟨-, n, hn, rfl, -⟩
  · simpa [isDirectoryAt, hsame] using hfile
  · simp [isDirectoryAt, hn]

theorem fst_run_writeFile {content : String} {s : Scene Bench} (h : ∃ t',
    writeAtomically s.surroundings.tree s.surroundings.cwd p content = (.ok content.toUTF8.size, t')) :
    ((Backend.writeFile l p content).run.run s).1 = .ok content.toUTF8.size := by
  obtain ⟨t', hwrite⟩ := h
  simp only [Backend.writeFile, run_bind, Act.run_look, Act.run_change, Act.run_report, hwrite]
  rfl

theorem writeAtomically_of_writeFile {content : String} {s s' : Scene Bench} {size : Int}
    (h : (Backend.writeFile l p content).run.run s = (.ok size, s')) : ∃ n,
      writeAtomically s.surroundings.tree s.surroundings.cwd p content = (.ok n, s'.surroundings.tree) := by
  have hafter := surroundings_writeFile l p content s
  rw [h] at hafter
  rcases hwrite : writeAtomically s.surroundings.tree s.surroundings.cwd p content with ⟨f | n, t⟩
  · simp only [Backend.writeFile, run_bind, Act.run_look, Act.run_change, Act.run_report, hwrite] at h
    cases f <;> cases h
  · rw [hwrite] at hafter
    exact ⟨n, by rw [hafter]⟩

/-! ### Artifacts that can be stored again -/

/-- The artifact can be stored under the path, which is that of its class, or that of a migration with a stamp of the
usual width. -/
structure Restorable (l : Layout) (cwd : Location) (t : Tree) (kind : ArtifactKind) (name : String) (p : Path) :
    Prop where
  writable : Writable t cwd p
  found : t.find cwd p = .ok (p.locationFrom cwd)
  ofClass : kind ≠ .migration → l.classPath kind name = .ok p
  dated : kind = .migration → ∃ m : Moment, m.Stampable ∧ p = (l.directory .migration).child (migrationFile m name)

theorem Restorable.keeps (h : Restorable l cwd t kind name p) (hk : Keeps t t') :
    Restorable l cwd t' kind name p where
  writable := h.writable.keeps hk
  found := find_keeps hk h.found
  ofClass := h.ofClass
  dated := h.dated

theorem hasNul_migrationFile (m : Moment) (name : String) :
    ((migrationFile m name).toList.any fun c => c.toNat = 0) = name.toList.any fun c => c.toNat = 0 := by
  have hstamp : (m.stamp.toList.any fun c => c.toNat = 0) = false := by
    refine List.any_eq_false.2 fun c hc hnul => ?_
    have hnul : c.toNat = 0 := by simpa using hnul
    rcases Moment.mem_stamp hc with hdigit | rfl
    · have := (digit_value_lt hdigit).2
      rw [hnul] at this
      exact absurd this (by decide)
    · exact absurd hnul (by decide)
  simp [toList_migrationFile, hstamp]

theorem utf8ByteSize_migrationFile {m m' : Moment} (hm : m.Stampable) (hm' : m'.Stampable) (name : String) :
    (migrationFile m' name).utf8ByteSize = (migrationFile m name).utf8ByteSize := by
  simp only [migrationFile, String.utf8ByteSize_append, Moment.utf8ByteSize_stamp hm, Moment.utf8ByteSize_stamp hm']

/-- Where a migration could be written, it can be written under another stamp. -/
theorem Restorable.redated (h : Restorable l cwd t .migration name p) (hname : '/' ∉ name.toList) {m : Moment}
    (hm : m.Stampable) : Writable t cwd ((l.directory .migration).child (migrationFile m name)) := by
  obtain ⟨m₀, hm₀, hp⟩ := h.dated rfl
  have hwritable := h.writable
  rw [hp] at hwritable
  have hfile : ∀ k : Moment, Path.IsName (migrationFile k name) := fun k => isName_migrationFile hname
  refine hwritable.child (hfile m₀) (hfile m) (utf8ByteSize_migrationFile hm₀ hm name) ?_
  have hnul := hwritable.noNul
  rw [Path.hasNul_child _ (hfile m₀), hasNul_migrationFile] at hnul
  rw [Path.hasNul_child _ (hfile m), hasNul_migrationFile]
  exact hnul

/-- The migrations directory, in which a migration has been stored, can be listed. -/
theorem Restorable.listed (h : Restorable l cwd t .migration name p) (hname : '/' ∉ name.toList) :
    (l.directory .migration).hasNul = false ∧
      t.find cwd (l.directory .migration) = .ok ((l.directory .migration).locationFrom cwd) ∧
      t.isDirectoryAt ((l.directory .migration).locationFrom cwd) = true := by
  obtain ⟨m, -, hp⟩ := h.dated rfl
  have hnul := h.writable.noNul_parent
  obtain ⟨-, habove, hdirectory, -, -⟩ := h.writable
  have hparent : p.parent = l.directory .migration := by
    rw [hp]
    exact Path.parent_child _ (isName_migrationFile hname)
  rw [hparent] at habove hdirectory hnul
  exact ⟨hnul, habove, hdirectory⟩

/-! ### The calls for one artifact -/

theorem timely_of_createFile {s s' : Scene Bench} {r : Except Fault Path}
    (hs : Timely s.surroundings) (hcreate : (Backend.createFile l kind name).run.run s = (r, s')) :
    Timely s'.surroundings := by
  obtain ⟨r', s₁, hrun, hdating⟩ := (dates_filesystem l).create kind name s
  obtain ⟨-, rfl⟩ := Prod.mk.inj (hrun.symm.trans hcreate)
  exact hdating.timely hs

theorem timely_of_writeFile {s s' : Scene Bench} {content : String} {r : Except Fault Int}
    (hs : Timely s.surroundings) (hwrite : (Backend.writeFile l p content).run.run s = (r, s')) :
    Timely s'.surroundings := by
  have hkept := (dates_filesystem l).write p content s
  rw [show (Backend.ofKind l .filesystem).write p content = Backend.writeFile l p content from rfl, hwrite] at hkept
  exact hs.of_remembers hkept

/-- The moment that is chosen has a stamp of the usual width. -/
theorem stampable_of_momentIn (hb : Timely b) {m : Moment} (h : momentIn l b [] = .ok m) : m.Stampable := by
  obtain ⟨start, names, hstart, hnames, hfree⟩ := momentIn_ok h
  exact (stamps_of_firstFree hstart hnames hfree).stampable (hb.clock _) hb.lastStamp

/-- An artifact that has been created and written can be stored again. -/
theorem restorable_of_stored {s s₁ s₂ : Scene Bench} {content : String} {size : Int} (hs : Timely s.surroundings)
    (hcreate : (Backend.createFile l kind name).run.run s = (.ok p, s₁))
    (hwrite : (Backend.writeFile l p content).run.run s₁ = (.ok size, s₂)) :
    Restorable l s.surroundings.cwd s₂.surroundings.tree kind name p := by
  obtain ⟨hpath, hmade, -⟩ := createFile_ok hcreate
  have hcwd : s₁.surroundings.cwd = s.surroundings.cwd := by
    rw [hmade]
    exact cwd_afterChoice ..
  obtain ⟨n, hput⟩ := writeAtomically_of_writeFile hwrite
  rw [hcwd] at hput
  -- what has been written is found again at its path
  have hwrites : Writes s.surroundings.cwd p content s₁.surroundings.tree s₂.surroundings.tree := by
    rcases writeAtomically_cases s₁.surroundings.tree s.surroundings.cwd p content with
      ⟨f, t', hf, -⟩ | ⟨t', ht', hwrites⟩
    · rw [hput] at hf
      cases hf
    · rw [hput] at ht'
      obtain ⟨-, rfl⟩ := Prod.mk.inj ht'
      exact hwrites
  -- a class keeps its path; the file of a migration keeps its stamp
  refine ⟨writable_of_writeAtomically hput, hwrites.found, fun hkind => ?_, fun hkind => ?_⟩
  · rw [pathIn, if_neg hkind] at hpath
    exact (classIn_ok hpath).1
  · obtain ⟨m, hm, hp⟩ := momentIn_of_pathIn hkind hpath
    exact ⟨m, stampable_of_momentIn hs hm, hp⟩

/-- If files may be replaced, an artifact that can be stored again gets a path under which a file can be written, or
the calendar ends. -/
theorem pathIn_again (h : Restorable l b.cwd b.tree kind name p) (hover : l.settings.overwrite = true)
    (hname : kind = .migration → '/' ∉ name.toList) (hb : Timely b)
    (hfile : b.tree.isDirectoryAt (p.locationFrom b.cwd) = false) :
    kind = .migration ∧ momentIn l b [] = .error (.crash .endOfCalendar) ∨ ∃ q, pathIn l [] b kind name = .ok q ∧
      Writable b.tree b.cwd q ∧ b.tree.isDirectoryAt (q.locationFrom b.cwd) = false := by
  unfold pathIn
  by_cases hkind : kind = .migration
  · subst hkind
    -- the file of the migration is there, so its directory can be listed
    obtain ⟨hnul, hfind, hdir⟩ := h.listed (hname rfl)
    cases hm : momentIn l b [] with
    | error f => exact Or.inl ⟨rfl, congrArg Except.error (momentIn_of_find hnul hfind hdir hm)⟩
    | ok m =>
      obtain ⟨start, names, hstart, hnames, hfree⟩ := momentIn_ok hm
      obtain ⟨listed, hlisted, hfree⟩ := (stamps_of_firstFree hstart hnames hfree).free
      rw [List.append_nil] at hfree
      have hvacant := (chosen_of_migration (hname rfl) hlisted hfree).vacant rfl _ hfind
      exact Or.inr ⟨_, rfl, h.redated (hname rfl) (stampable_of_momentIn hb hm), by simp [isDirectoryAt, hvacant]⟩
  · -- the path of a class is the one it had
    rw [if_neg hkind, classIn_of_find (h.ofClass hkind) h.writable.noNul h.found, if_pos hover]
    exact Or.inr ⟨p, rfl, h.writable, hfile⟩

/-- If files may be replaced, only the end of the calendar keeps an artifact that can be stored again from being
created, and nothing keeps it from being written then. -/
theorem createFile_again {s s' : Scene Bench} {r : Except Fault Path}
    (h : Restorable l s.surroundings.cwd s.surroundings.tree kind name p) (hover : l.settings.overwrite = true)
    (hname : kind = .migration → '/' ∉ name.toList) (hs : Timely s.surroundings)
    (hfile : s.surroundings.tree.isDirectoryAt (p.locationFrom s.surroundings.cwd) = false)
    (hcreate : (Backend.createFile l kind name).run.run s = (r, s')) :
    (kind = .migration ∧ momentIn l s.surroundings [] = .error (.crash .endOfCalendar) ∧
      r = .error (.crash .endOfCalendar) ∧ s'.surroundings.tree = s.surroundings.tree) ∨
    ∃ q, r = .ok q ∧ ∀ content, ((Backend.writeFile l q content).run.run s').1 = .ok content.toUTF8.size := by
  rw [run_createFile_eq] at hcreate
  -- the calendar has ended, or the new path can be filled
  rcases pathIn_again h hover hname hs hfile with ⟨rfl, hend⟩ | ⟨q, hpath, hwritable, hfree⟩
  · have hpath : pathIn l [] s.surroundings .migration name = .error (.crash .endOfCalendar) := by
      rw [pathIn, if_pos rfl, hend]
      rfl
    rw [hpath] at hcreate
    obtain ⟨rfl, rfl⟩ := Prod.mk.inj hcreate
    exact Or.inl ⟨rfl, hend, rfl, tree_afterChoice ..⟩
  obtain ⟨t', hbare, hgrows⟩ := makeBare_of_writable hwritable hfree
  rw [hpath] at hcreate
  simp only [hbare] at hcreate
  obtain ⟨rfl, rfl⟩ := Prod.mk.inj hcreate
  refine Or.inr ⟨q, rfl, fun content => ?_⟩
  have hwrite := (hwritable.keeps hgrows.keeps).writeAtomically (isDirectoryAt_of_emptyAt hgrows hfree) content
  exact fst_run_writeFile (by simpa only [cwd_afterChoice] using hwrite)

end CrudScaffold.Backend
