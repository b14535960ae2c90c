import CrudScaffold.Proofs.Backend.Sequence
import CrudScaffold.Proofs.Generation.Filing

/-!
# CrudScaffold.Proofs.Generation.Ordering — migrations run in the order in which they have been made

The delivery of a slice makes its calls of the backend one after the other (`creations_of_delivery`).  So the migration
of the entity's table sorts before those of its join tables, and these sort in their order (`migrations_sorted`).
-/

namespace CrudScaffold.Generation

open CrudScaffold.Backend CrudScaffold.Calendar CrudScaffold.Files CrudScaffold.Spec CrudScaffold.Template

variable {l : Layout} {b : Backend Bench}

/-- The migrations among the artifacts of a delivery, with their paths and sizes. -/
def migrationsOf (as : List Artifact) (files : List (Path × Int)) : List (Artifact × Path × Int) :=
  (as.zip files).filter fun e => e.1.kind = .migration

/-- The call that has created an artifact under its path. -/
structure CreatedBy (c : Creation) (e : Artifact × Path × Int) : Prop where
  kind : c.kind = e.1.kind
  name : c.name = e.1.target
  answer : c.answer = .ok e.2.1

/-- A delivery that gets through has created its artifacts by calls one after the other. -/
theorem creations_of_delivery (hb : Dates l b) {s s' : Scene Bench} {as : List Artifact} {files : List (Path × Int)}
    {ending : Option Fault} (h : Delivery b s as files ending s') (hending : ending = none) {s₀ : Scene Bench}
    (hbetween : Remembers s₀.surroundings s.surroundings) :
    files.length = as.length ∧ ∃ cs, Creations b s₀ cs ∧ List.Forall₂ CreatedBy cs (as.zip files) := by
  induction h generalizing s₀ with
  | finished s => exact ⟨rfl, [], .none _, .nil⟩
  | notCreated hcreate => cases hending
  | notWritten hcreate hwrite => cases hending
  | @stored s s₁ s₂ s' a rest p size files ending hcreate hwrite hrest ih =>
    have hkept : Remembers s₁.surroundings s₂.surroundings := by
      have hkept := hb.write p a.content s₁
      rw [hwrite] at hkept
      exact hkept
    obtain ⟨hlength, cs, hcs, hall⟩ := ih hending hkept
    exact ⟨congrArg (· + 1) hlength, _, .next hbetween hcreate hcs, .cons ⟨rfl, rfl, rfl⟩ hall⟩

/-- Migrations without a slash in their names have the files that are seen from the migrations directory. -/
theorem names_of_createdBy {cs : List Creation} {es : List (Artifact × Path × Int)} (h : List.Forall₂ CreatedBy cs es)
    (hslash : ∀ e ∈ es, e.1.kind = .migration → '/' ∉ e.1.target.toList)
    (hfile : ∀ c ∈ cs, ∀ p, c.kind = .migration → c.answer = .ok p → '/' ∉ c.name.toList →
      p.name = (l.directory .migration).shownFrom p) :
    (es.filter fun e => e.1.kind = .migration).map (·.2.1.name) = cs.filterMap (Creation.file? l) := by
  induction h with
  | nil => rfl
  | @cons c e cs es hce _ ih =>
    have ih := ih (fun e he => hslash e (List.mem_cons_of_mem _ he)) fun c hc => hfile c (List.mem_cons_of_mem _ hc)
    rw [List.filterMap_cons, List.filter_cons]
    by_cases hkind : e.1.kind = .migration
    · have hname := hfile c List.mem_cons_self e.2.1 (hce.kind.trans hkind) hce.answer
        (hce.name ▸ hslash e List.mem_cons_self hkind)
      have hsome : c.file? l = some ((l.directory .migration).shownFrom e.2.1) :=
        Creation.file?_eq_some_iff.2 ⟨hce.kind.trans hkind, _, hce.answer, rfl⟩
      rw [if_pos (by simpa using hkind), hsome, List.map_cons, hname, ih]
    · have hnone : c.file? l = none := if_neg (hce.kind ▸ hkind)
      rw [if_neg (by simpa using hkind), hnone, ih]

theorem targets_of_places {as : List Artifact} {files : List (Path × Int)} {names : EntityNames}
    {pivots : List PivotTable} (hlength : files.length = as.length)
    (hplaces : as.map Artifact.place = placesOf names pivots) :
    (migrationsOf as files).map (·.1.target) = names.migrationName :: pivots.map PivotTable.migrationName := by
  have hzip : (as.zip files).map Prod.fst = as := List.map_fst_zip (Nat.le_of_eq hlength.symm)
  have hmap : (migrationsOf as files).map (·.1.target) =
      ((as.map Artifact.place).filter fun p => p.1 = .migration).map Prod.snd := by
    rw [← hzip, List.map_map, List.filter_map, List.map_map, hzip]
    rfl
  rw [hmap, hplaces]
  simp [placesOf, List.filter_map, Function.comp_def]

theorem slash_notMem_of_mem_zip {g : Generator} {v : View} {r : Request} {slice : Slice} {history : List Phase}
    (h : Course g v r (.ok slice) history) {files : List (Path × Int)} {e : Artifact × Path × Int}
    (he : e ∈ slice.artifacts.zip files) (hkind : e.1.kind = .migration) : '/' ∉ e.1.target.toList :=
  (allFresh_artifacts h).2 e.1 (List.of_mem_zip he).1 hkind

/-- Whatever the clock tells and whatever happens to the files between the calls, the migrations of one backend sort as
they are made, and each takes a file that is not there.  After a run that succeeds the migration of the table sorts
before those of the join tables, and these sort in their order. -/
theorem migrations_sorted (l : Layout) {kind : BackendKind} (hkind : kind ≠ .artisan) :
    (∀ (s : Scene Bench) (cs : List Creation), Timely s.surroundings → Creations (.ofKind l kind) s cs →
      (cs.filterMap (Creation.file? l)).Pairwise (· < ·) ∧
      ∀ c ∈ cs, ∀ p, c.kind = .migration → c.answer = .ok p → Unused l c.found p ∧
        ('/' ∉ c.name.toList → p.name = (l.directory .migration).shownFrom p)) ∧
    ∀ (g : Generator) (v : View) (started : Moment) (r : Request) (s s' : Session Bench) (report : Report),
      Timely s.surroundings → (g.generate (.ofKind l kind) v started r).run.run s = (.ok report, s') →
      report.success = true → ∃ names slice files,
        EntityNames.ofEntity r.entity g.settings.modelNamespace = .ok names ∧ g.outcome v r = .ok slice ∧
        report.manifest.map (·.files) = some (recordsOf (.ofKind l kind) slice.artifacts files) ∧
        files.length = slice.artifacts.length ∧
        (migrationsOf slice.artifacts files).map (·.1.target) =
          names.migrationName :: slice.pivots.map PivotTable.migrationName ∧
        ((migrationsOf slice.artifacts files).map (·.2.1.name)).Pairwise (· < ·) := by
  have hb := dates_ofKind l hkind
  -- a migration that has been made has its stamp from a moment
  have hcalls : ∀ (s : Scene Bench) (cs : List Creation), Timely s.surroundings → Creations (.ofKind l kind) s cs →
      ∀ c ∈ cs, ∀ p, c.kind = .migration → c.answer = .ok p → Unused l c.found p ∧
        ('/' ∉ c.name.toList → p.name = (l.directory .migration).shownFrom p) := by
    intro s cs hs hcs c hc p hmigration hp
    have hfile : c.file? l = some ((l.directory .migration).shownFrom p) :=
      Creation.file?_eq_some_iff.2 ⟨hmigration, p, hp, rfl⟩
    obtain ⟨m, hstamped, -⟩ := hcs.stamped hb hs c hc _ hfile
    exact hstamped.unused hp
  refine ⟨fun s cs hs hcs => ⟨hcs.sorted hb hs, hcalls s cs hs hcs⟩, ?_⟩
  intro g v started r s s' report hs hrun hsuccess
  obtain ⟨slice, history, before, files, after, houtcome, hcourse, hbefore, hdelivery, hmanifest, -⟩ :=
    delivery_of_success hrun hsuccess
  obtain ⟨names, hnames, hplaces⟩ := places_of_course hcourse
  rw [← hbefore] at hs
  -- the calls of the delivery are creations, so their files are sorted
  obtain ⟨hlength, cs, hcs, hall⟩ := creations_of_delivery hb hdelivery rfl (Remembers.refl before.surroundings)
  refine ⟨names, slice, files, hnames, houtcome, hmanifest, hlength, targets_of_places hlength hplaces, ?_⟩
  have hfiles := names_of_createdBy hall (fun e he => slash_notMem_of_mem_zip hcourse he) fun c hc p hmigration hp =>
    (hcalls before cs hs hcs c hc p hmigration hp).2
  rw [migrationsOf, hfiles]
  exact hcs.sorted hb hs

theorem timely_sessionOn (t : Tree) : Timely (sessionOn t).surroundings := by
  have hclock : (⟨2024, 1, 1, 0⟩ : Moment).Stampable := ⟨by decide, by decide⟩
  exact ⟨fun _ => hclock, nofun⟩

/-- A clock that stands still: two migrations that are made in an empty project, and a run with a join table. -/
theorem migrations_sorted_frozen : BackendKind.filesystem ≠ .artisan ∧
    (∃ cs, Creations (.ofKind topLayout .filesystem) ⟨(sessionOn .empty).surroundings, []⟩ cs ∧
      cs.filterMap (Creation.file? topLayout) = ["2024_01_01_000000_b.php", "2024_01_01_000001_a.php"] ∧
      (cs.filterMap (Creation.file? topLayout)).Pairwise (· < ·)) ∧
    ∃ report s', (letterGenerator.generate (.ofKind topLayout .filesystem) ⟨.empty, []⟩ ⟨2024, 1, 1, 0⟩
        ⟨"Post", "title:string", some "belongsToMany:Tag:post_id:tag_id"⟩).run.run (sessionOn .empty) =
          (.ok report, s') ∧
      report.success = true ∧ ∃ names slice files,
        EntityNames.ofEntity "Post" letterGenerator.settings.modelNamespace = .ok names ∧
        letterGenerator.outcome ⟨.empty, []⟩ ⟨"Post", "title:string", some "belongsToMany:Tag:post_id:tag_id"⟩ =
          .ok slice ∧
        report.manifest.map (·.files) = some (recordsOf (.ofKind topLayout .filesystem) slice.artifacts files) ∧
        files.length = slice.artifacts.length ∧
        (migrationsOf slice.artifacts files).map (·.1.target) =
          names.migrationName :: slice.pivots.map PivotTable.migrationName ∧
        ((migrationsOf slice.artifacts files).map (·.2.1.name)).Pairwise (· < ·) := by
  have hkind : BackendKind.filesystem ≠ .artisan := by decide
  have hcalls := creations_callsFor (.ofKind topLayout .filesystem) ⟨(sessionOn .empty).surroundings, []⟩
    [(.migration, "b"), (.migration, "a")]
  have hsorted := ((migrations_sorted topLayout hkind).1 _ _ (timely_sessionOn .empty) hcalls).1
  obtain ⟨report, s', hrun, hsuccess⟩ := exists_of_success
    (x := (letterGenerator.generate (.ofKind topLayout .filesystem) ⟨.empty, []⟩ ⟨2024, 1, 1, 0⟩
      ⟨"Post", "title:string", some "belongsToMany:Tag:post_id:tag_id"⟩).run.run (sessionOn .empty)) (by decide +kernel)
  have hordered := (migrations_sorted topLayout hkind).2 letterGenerator ⟨.empty, []⟩ ⟨2024, 1, 1, 0⟩
    ⟨"Post", "title:string", some "belongsToMany:Tag:post_id:tag_id"⟩ (sessionOn .empty) s' report
    (timely_sessionOn .empty) hrun hsuccess
  have hfiles : (callsFor (.ofKind topLayout .filesystem) ⟨(sessionOn .empty).surroundings, []⟩
      [(.migration, "b"), (.migration, "a")]).filterMap (Creation.file? topLayout) =
        ["2024_01_01_000000_b.php", "2024_01_01_000001_a.php"] := by decide +kernel
  exact ⟨hkind, ⟨_, hcalls, hfiles, hsorted⟩, report, s', hrun, hsuccess, hordered⟩

end CrudScaffold.Generation
