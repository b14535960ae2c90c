import CrudScaffold.Proofs.Backend.Placing

/-!
# CrudScaffold.Proofs.Backend.Sequence — the migrations of one backend sort as they are made

`Creations b s cs` are calls that are made of a backend one after the other; between them the surroundings may change
in any way, but for what the backend remembers itself.  Each call that makes a migration takes a later moment than all
calls before it (`Creations.stamped`), so the files of the migrations sort as they are made (`Creations.sorted`).
-/

namespace CrudScaffold.Backend

open CrudScaffold.Calendar CrudScaffold.Files CrudScaffold.Text

/-! ### What a backend remembers -/

/-- The clock and the latest stamp are the same: what only the backend itself may change. -/
structure Remembers (b b' : Bench) : Prop where
  clock : b'.clock = b.clock
  lastStamp : b'.lastStamp = b.lastStamp

theorem Remembers.refl (b : Bench) : Remembers b b := ⟨rfl, rfl⟩

theorem Remembers.trans {a b c : Bench} (h : Remembers a b) (h' : Remembers b c) : Remembers a c :=
  ⟨h'.clock.trans h.clock, h'.lastStamp.trans h.lastStamp⟩

/-- The clock gives moments of which the stamps have a fixed width, and the latest stamp is one of them. -/
structure Timely (b : Bench) : Prop where
  clock : ∀ n, (b.clock n).Stampable
  lastStamp : ∀ k, b.lastStamp = some k → k.Stampable

theorem Timely.of_remembers {b b' : Bench} (h : Timely b) (hb : Remembers b b') : Timely b' :=
  ⟨fun n => hb.clock ▸ h.clock n, fun k hk => h.lastStamp k (hb.lastStamp ▸ hk)⟩

/-! ### One call -/

/-- What a call to create an artifact does to what the backend remembers: nothing, if no migration is made; else its
moment is remembered, whether or not the call succeeds in the end. -/
inductive Dating (l : Layout) (b : Bench) (kind : ArtifactKind) (name : String) (answer : Except Fault Path)
    (b' : Bench) : Prop
  | kept (h : Remembers b b') (hanswer : kind = .migration → ∃ f, answer = .error f)
  | stamped {planned : List String} {m : Moment} (hkind : kind = .migration) (hstamps : Stamps l b planned m)
      (hclock : b'.clock = b.clock) (hlast : b'.lastStamp = some m)
      (hanswer : ∀ p, answer = .ok p → p = (l.directory .migration).child (migrationFile m name))

/-- The path that an artifact is to have, beside those that are planned. -/
def chooseBeside (l : Layout) (planned : List String) (kind : ArtifactKind) (name : String) : Act Bench Path :=
  if kind = .migration then newMigrationPath l planned name else Backend.vacantClassPath l kind name

theorem run_chooseBeside (l : Layout) (planned : List String) (kind : ArtifactKind) (name : String) (s : Scene Bench) :
    ∃ r s', (chooseBeside l planned kind name).run.run s = (r, s') ∧
      Dating l s.surroundings kind name r s'.surroundings := by
  unfold chooseBeside
  by_cases hkind : kind = .migration
  · rw [if_pos hkind]
    rcases run_newMigrationPath_cases l planned name s with ⟨f, hrun⟩ | ⟨m, hstamps, hrun⟩
    · exact ⟨_, _, hrun, .kept ⟨rfl, rfl⟩ fun _ => ⟨f, rfl⟩⟩
    · exact ⟨_, _, hrun, .stamped hkind hstamps rfl rfl fun p hp => (Except.ok.inj hp).symm⟩
  · rw [if_neg hkind]
    obtain ⟨r, hrun, -⟩ := run_vacantClassPath l kind name s
    exact ⟨r, s, hrun, .kept ⟨rfl, rfl⟩ fun h => absurd h hkind⟩

/-- What follows the choice of a path may fail, but it keeps the path and what is remembered. -/
theorem Dating.bind {l : Layout} {kind : ArtifactKind} {name : String} {x : Act Bench Path}
    {f : Path → Act Bench Path} {s s₁ : Scene Bench} {r : Except Fault Path} (hx : x.run.run s = (r, s₁))
    (h : Dating l s.surroundings kind name r s₁.surroundings)
    (hf : ∀ p s, ∃ r s', (f p).run.run s = (r, s') ∧ Remembers s.surroundings s'.surroundings ∧
      ∀ q, r = .ok q → q = p) :
    ∃ r s', (x >>= f).run.run s = (r, s') ∧ Dating l s.surroundings kind name r s'.surroundings := by
  cases r with
  | error e => exact ⟨_, _, bind_of_error hx, h⟩
  | ok p =>
    obtain ⟨r, s', hrun, hkept, hsame⟩ := hf p s₁
    refine ⟨r, s', (bind_of_ok hx).trans hrun, ?_⟩
    cases h with
    | kept h hanswer =>
      refine .kept (h.trans hkept) fun hkind => ?_
      obtain ⟨e, he⟩ := hanswer hkind
      cases he
    | stamped hkind hstamps hclock hlast hanswer =>
      refine .stamped hkind hstamps (hkept.clock.trans hclock) (hkept.lastStamp.trans hlast) fun q hq => ?_
      rw [hsame q hq]
      exact hanswer p rfl

/-- A backend that gives each new migration a later moment. -/
structure Dates (l : Layout) (b : Backend Bench) : Prop where
  create : ∀ kind name s, ∃ r s', (b.create kind name).run.run s = (r, s') ∧
    Dating l s.surroundings kind name r s'.surroundings
  write : ∀ path content s, Remembers s.surroundings ((b.write path content).run.run s).2.surroundings

theorem dates_filesystem (l : Layout) : Dates l (.ofKind l .filesystem) where
  create kind name s := by
    show ∃ r s', (Backend.createFile l kind name).run.run s = (r, s') ∧ _
    obtain ⟨r, s₁, hrun, hdating⟩ := run_chooseBeside l [] kind name s
    rw [createFile_eq]
    refine hdating.bind hrun fun p s => ?_
    simp only [makeFile, run_bind, Act.run_look, Act.run_change, Act.run_report, run_pure]
    rcases Backend.makeBare s.surroundings.tree s.surroundings.cwd p with ⟨f | u, t'⟩
    · refine ⟨_, _, rfl, ⟨rfl, rfl⟩, ?_⟩
      rintro q ⟨⟩
    · exact ⟨_, _, rfl, ⟨rfl, rfl⟩, fun q hq => (Except.ok.inj hq).symm⟩
  write path content s := by
    show Remembers _ ((Backend.writeFile l path content).run.run s).2.surroundings
    simp only [Backend.writeFile, run_bind, Act.run_look, Act.run_change, Act.run_report, Act.run_note, run_pure]
    rcases writeAtomically s.surroundings.tree s.surroundings.cwd path content with ⟨f | size, t'⟩ <;> exact ⟨rfl, rfl⟩

/-- Plans a file under its path. -/
def planFile (l : Layout) (path : Path) : Act Bench Path := do
  Act.change fun b =>
    if b.planned.any (·.1 = path) then b else { b with planned := b.planned ++ [(path, "")] }
  Act.note .info .files s!"[dry-run] would create {l.shown path}"
  return path

theorem createPlanned_eq (l : Layout) (kind : ArtifactKind) (name : String) :
    Backend.createPlanned l kind name = (do
      let b ← Act.look
      planFile l (← chooseBeside l (b.planned.map (·.1.name)) kind name)) := by
  unfold Backend.createPlanned chooseBeside
  split <;> rfl

theorem dates_dryRun (l : Layout) : Dates l (.ofKind l .dryRun) where
  create kind name s := by
    show ∃ r s', (Backend.createPlanned l kind name).run.run s = (r, s') ∧ _
    obtain ⟨r, s₁, hrun, hdating⟩ := run_chooseBeside l (s.surroundings.planned.map (·.1.name)) kind name s
    rw [createPlanned_eq, run_bind, Act.run_look]
    refine hdating.bind hrun fun p s => ?_
    simp only [planFile, run_bind, Act.run_change, Act.run_note, run_pure]
    refine ⟨_, _, rfl, ?_, fun q hq => (Except.ok.inj hq).symm⟩
    simp only
    split <;> exact ⟨rfl, rfl⟩
  write path content s := ⟨rfl, rfl⟩

/-- The filesystem backend and the dry run date their migrations. -/
theorem dates_ofKind (l : Layout) {kind : BackendKind} (h : kind ≠ .artisan) : Dates l (.ofKind l kind) := by
  cases kind with
  | filesystem => exact dates_filesystem l
  | artisan => exact absurd rfl h
  | dryRun => exact dates_dryRun l

/-! ### Calls one after the other -/

/-- A call to create an artifact: the surroundings in which it is made, what is asked for, and the answer. -/
structure Creation where
  found : Bench
  kind : ArtifactKind
  name : String
  answer : Except Fault Path

/-- Calls that are made of a backend one after the other.  Whatever happens between two of them, the backend remembers
its latest stamp and reads the same clock. -/
inductive Creations (b : Backend Bench) : Scene Bench → List Creation → Prop
  | none (s : Scene Bench) : Creations b s []
  | next {s s₁ s₂ : Scene Bench} {kind : ArtifactKind} {name : String} {answer : Except Fault Path}
      {rest : List Creation} (hbetween : Remembers s.surroundings s₁.surroundings)
      (hcall : (b.create kind name).run.run s₁ = (answer, s₂)) (hrest : Creations b s₂ rest) :
      Creations b s (⟨s₁.surroundings, kind, name, answer⟩ :: rest)

/-- The calls for a list of artifacts when nothing happens between them. -/
def callsFor (b : Backend Bench) (s : Scene Bench) : List (ArtifactKind × String) → List Creation
  | [] => []
  | (kind, name) :: rest => ⟨s.surroundings, kind, name, ((b.create kind name).run.run s).1⟩ ::
    callsFor b ((b.create kind name).run.run s).2 rest

theorem creations_callsFor (b : Backend Bench) (s : Scene Bench) (names : List (ArtifactKind × String)) :
    Creations b s (callsFor b s names) := by
  induction names generalizing s with
  | nil => exact .none s
  | cons a rest ih => exact .next (Remembers.refl _) rfl (ih _)

/-- The file of a migration that has been made, as seen from the migrations directory. -/
def Creation.file? (l : Layout) (c : Creation) : Option String :=
  if c.kind = .migration then c.answer.toOption.map (l.directory .migration).shownFrom else none

/-- The call has made the migration under the stamp of the moment. -/
structure Creation.Stamped (l : Layout) (c : Creation) (m : Moment) : Prop where
  chosen : ∃ planned, Stamps l c.found planned m
  stampable : m.Stampable
  answer : c.answer = .ok ((l.directory .migration).child (migrationFile m c.name))

theorem Creation.file?_eq_some_iff {l : Layout} {c : Creation} {file : String} : c.file? l = some file ↔
    c.kind = .migration ∧ ∃ p, c.answer = .ok p ∧ file = (l.directory .migration).shownFrom p := by
  unfold Creation.file?
  cases hanswer : c.answer <;> simp [Except.toOption, eq_comm]

/-- The file of a migration begins with its stamp. -/
theorem Creation.Stamped.file {l : Layout} {c : Creation} {m : Moment} (h : c.Stamped l m) {file : String}
    (hfile : c.file? l = some file) : m.stamp.toList <+: file.toList := by
  obtain ⟨-, p, hp, rfl⟩ := Creation.file?_eq_some_iff.1 hfile
  rw [h.answer] at hp
  obtain rfl := Except.ok.inj hp
  exact shownFrom_migrationFile _ _ _

theorem lt_of_stamps {m m' : Moment} {file file' : String} (hm : m.Stampable) (hm' : m'.Stampable)
    (h : m.earlier m' = true) (hfile : m.stamp.toList <+: file.toList) (hfile' : m'.stamp.toList <+: file'.toList) :
    file < file' := by
  obtain ⟨back, hback⟩ := hfile
  obtain ⟨back', hback'⟩ := hfile'
  show file.toList < file'.toList
  rw [← hback, ← hback']
  exact Moment.stamp_lt hm hm' h back back'

theorem Dating.stamped_of_file {l : Layout} {b b' : Bench} {kind : ArtifactKind} {name : String}
    {answer : Except Fault Path} (h : Dating l b kind name answer b') (hb : Timely b) {file : String}
    (hfile : Creation.file? l ⟨b, kind, name, answer⟩ = some file) : ∃ m, Creation.Stamped l ⟨b, kind, name, answer⟩ m ∧
      b'.lastStamp = some m ∧ ∀ k, b.lastStamp = some k → k.earlier m = true := by
  obtain ⟨hkind, p, hp, -⟩ := Creation.file?_eq_some_iff.1 hfile
  cases h with
  | kept h hanswer =>
    obtain ⟨f, hf⟩ := hanswer hkind
    exact absurd (hf.symm.trans hp) nofun
  | @stamped planned m hkind hstamps hclock hlast hanswer =>
    have hm := hstamps.stampable (hb.clock _) hb.lastStamp
    exact ⟨m, ⟨⟨planned, hstamps⟩, hm, hp.trans (congrArg Except.ok (hanswer p hp))⟩, hlast, hstamps.later⟩

theorem Dating.timely {l : Layout} {b b' : Bench} {kind : ArtifactKind} {name : String} {answer : Except Fault Path}
    (h : Dating l b kind name answer b') (hb : Timely b) : Timely b' := by
  cases h with
  | kept h hanswer => exact hb.of_remembers h
  | stamped hkind hstamps hclock hlast hanswer =>
    refine ⟨fun n => hclock ▸ hb.clock n, fun k hk => ?_⟩
    obtain rfl := Option.some.inj (hlast.symm.trans hk)
    exact hstamps.stampable (hb.clock _) hb.lastStamp

/-- The latest stamp only grows. -/
theorem Dating.grows {l : Layout} {b b' : Bench} {kind : ArtifactKind} {name : String} {answer : Except Fault Path}
    (h : Dating l b kind name answer b') {k : Moment} (hk : b.lastStamp = some k) :
    ∃ k', b'.lastStamp = some k' ∧ (k' = k ∨ k.earlier k' = true) := by
  cases h with
  | kept h hanswer => exact ⟨k, h.lastStamp.trans hk, Or.inl rfl⟩
  | stamped hkind hstamps hclock hlast hanswer => exact ⟨_, hlast, Or.inr (hstamps.later k hk)⟩

/-- Each migration has a moment that is later than the latest stamp before the calls.  The induction is on the calls. -/
theorem Creations.stamped {l : Layout} {b : Backend Bench} (hb : Dates l b) {s : Scene Bench} {cs : List Creation}
    (h : Creations b s cs) (hs : Timely s.surroundings) : ∀ c ∈ cs, ∀ file, c.file? l = some file →
      ∃ m, c.Stamped l m ∧ ∀ k, s.surroundings.lastStamp = some k → k.earlier m = true := by
  -- the last stamp only grows along the creations
  induction h with
  | none s => exact fun c hc => absurd hc List.not_mem_nil
  | @next s s₁ s₂ kind name answer rest hbetween hcall hrest ih =>
    have hs₁ := hs.of_remembers hbetween
    obtain ⟨r, s', hrun, hdating⟩ := hb.create kind name s₁
    obtain ⟨rfl, rfl⟩ := Prod.mk.inj (hrun.symm.trans hcall)
    intro c hc file hfile
    -- the first creation, and those after it
    rcases List.mem_cons.1 hc with rfl | hc
    · obtain ⟨m, hstamped, -, hlater⟩ := hdating.stamped_of_file hs₁ hfile
      exact ⟨m, hstamped, fun k hk => hlater k (hbetween.lastStamp.trans hk)⟩
    · obtain ⟨m, hstamped, hlater⟩ := ih (hdating.timely hs₁) c hc file hfile
      refine ⟨m, hstamped, fun k hk => ?_⟩
      obtain ⟨k', hk', rfl | hgrows⟩ := hdating.grows (hbetween.lastStamp.trans hk)
      · exact hlater k' hk'
      · exact Moment.earlier_trans hgrows (hlater k' hk')

/-- The files of the migrations sort as they are made. -/
theorem Creations.sorted {l : Layout} {b : Backend Bench} (hb : Dates l b) {s : Scene Bench} {cs : List Creation}
    (h : Creations b s cs) (hs : Timely s.surroundings) : (cs.filterMap (Creation.file? l)).Pairwise (· < ·) := by
  induction h with
  | none s => exact List.Pairwise.nil
  | @next s s₁ s₂ kind name answer rest hbetween hcall hrest ih =>
    have hs₁ := hs.of_remembers hbetween
    obtain ⟨r, s', hrun, hdating⟩ := hb.create kind name s₁
    obtain ⟨rfl, rfl⟩ := Prod.mk.inj (hrun.symm.trans hcall)
    have hs' := hdating.timely hs₁
    rw [List.filterMap_cons]
    cases hfile : Creation.file? l ⟨s₁.surroundings, kind, name, r⟩ with
    | none => exact ih hs'
    | some file =>
      obtain ⟨m, hstamped, hlast, -⟩ := hdating.stamped_of_file hs₁ hfile
      -- whatever is made later has a later stamp than this file
      refine List.pairwise_cons.2 ⟨fun file' hfile' => ?_, ih hs'⟩
      obtain ⟨c, hc, hfile'⟩ := List.mem_filterMap.1 hfile'
      obtain ⟨m', hstamped', hlater⟩ := hrest.stamped hb hs' c hc file' hfile'
      exact lt_of_stamps hstamped.stampable hstamped'.stampable (hlater m hlast) (hstamped.file hfile)
        (hstamped'.file hfile')

/-- Nothing is found under the path of a new migration, and its file is not in the migrations directory. -/
structure Unused (l : Layout) (b : Bench) (p : Path) : Prop where
  unfound : ∀ at_, b.tree.find b.cwd p ≠ .ok at_
  unlisted : ∀ names, listNames b.tree b.cwd (l.directory .migration) = .ok names →
    (l.directory .migration).shownFrom p ∉ names

theorem Stamps.unused {l : Layout} {b : Bench} {planned : List String} {m : Moment} (h : Stamps l b planned m)
    (name : String) : Unused l b ((l.directory .migration).child (migrationFile m name)) := by
  obtain ⟨names, hnames, hfree⟩ := h.free
  refine ⟨not_find_migrationFile hnames (fun n hn => hfree n (List.mem_append_left _ hn)) name, ?_⟩
  intro listed hlisted hmem
  have hsame : namesIn b.tree b.cwd (l.directory .migration) = .ok listed := by rw [namesIn, hlisted]
  obtain rfl := Except.ok.inj (hnames.symm.trans hsame)
  have hbegins := hfree _ (List.mem_append_left _ hmem)
  rw [beginsWith_iff.2 (shownFrom_migrationFile _ m name)] at hbegins
  cases hbegins

/-- The path of a migration is not used when it is chosen; if the name has no slash, it ends in the file. -/
theorem Creation.Stamped.unused {l : Layout} {c : Creation} {m : Moment} (h : c.Stamped l m) {p : Path}
    (hp : c.answer = .ok p) : Unused l c.found p ∧
      ('/' ∉ c.name.toList → p.name = (l.directory .migration).shownFrom p) := by
  obtain ⟨planned, hstamps⟩ := h.chosen
  have hpath : p = (l.directory .migration).child (migrationFile m c.name) :=
    Except.ok.inj (hp.symm.trans h.answer)
  rw [hpath]
  refine ⟨hstamps.unused c.name, fun hslash => ?_⟩
  obtain ⟨hname, hshown⟩ := shownFrom_of_slash_notMem (l.directory .migration) m hslash
  exact hname.trans hshown.symm

end CrudScaffold.Backend
