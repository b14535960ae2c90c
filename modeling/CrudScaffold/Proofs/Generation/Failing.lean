import CrudScaffold.Proofs.Backend.Escapes
import CrudScaffold.Proofs.Generation.Filing
import CrudScaffold.Proofs.Generation.Transcript

/-!
# CrudScaffold.Proofs.Generation.Failing — how a run of the filesystem backend fails

A delivery that a fault ends is one that gets through the artifacts before, and then a call that fails
(`delivery_some_iff`).  So a run lets a fault through exactly when the fault escapes from the creation of one of its
artifacts; whatever else goes wrong is in the report (`generate_escapes_iff`).

A run that reports a failure has filed the artifacts in its manifest.  It leaves no other new file, unless the failing
artifact has been created and could not be written (`generate_leaves`).
-/

namespace CrudScaffold.Generation

open CrudScaffold.Backend CrudScaffold.Calendar CrudScaffold.Files CrudScaffold.Text
open CrudScaffold.Files.Tree

variable {σ : Type} {l : Layout}

/-! ### Where a delivery ends -/

/-- The call for an artifact, to create it or to write it, that ends a delivery. -/
inductive Fails (b : Backend σ) (s : Scene σ) (a : Artifact) (f : Fault) (s' : Scene σ) : Prop
  | creating (hcreate : (b.create a.kind a.target).run.run s = (.error f, s'))
  | writing {p : Path} {s₁ : Scene σ} (hcreate : (b.create a.kind a.target).run.run s = (.ok p, s₁))
      (hwrite : (b.write p a.content).run.run s₁ = (.error f, s'))

/-- A delivery that a fault ends gets through the artifacts before the one that fails. -/
theorem delivery_some_iff {b : Backend σ} {s s' : Scene σ} {as : List Artifact} {files : List (Path × Int)}
    {f : Fault} : Delivery b s as files (some f) s' ↔ ∃ done a rest s₁, as = done ++ a :: rest ∧
      Delivery b s done files none s₁ ∧ Fails b s₁ a f s' := by
  constructor
  · generalize hending : some f = ending
    intro h
    -- the induction is on the delivery: what comes before the failing call has been stored
    induction h with
    | finished s => cases hending
    | @notCreated s s' a rest f' hcreate =>
      obtain rfl := Option.some.inj hending
      exact ⟨[], a, rest, s, rfl, .finished s, .creating hcreate⟩
    | @notWritten s s₁ s' a rest p f' hcreate hwrite =>
      obtain rfl := Option.some.inj hending
      exact ⟨[], a, rest, s, rfl, .finished s, .writing hcreate hwrite⟩
    | @stored s s₁ s₂ s' a rest p size files ending hcreate hwrite hrest ih =>
      obtain ⟨done, a', rest', s₃, rfl, hdone, hfails⟩ := ih hending
      exact ⟨a :: done, a', rest', s₃, rfl, .stored hcreate hwrite hdone, hfails⟩
  · rintro ⟨done, a, rest, s₁, rfl, hdone, hfails⟩
    generalize hending : (none : Option Fault) = ending at hdone
    induction hdone with
    | finished s =>
      cases hfails with
      | creating hcreate => exact .notCreated hcreate
      | writing hcreate hwrite => exact .notWritten hcreate hwrite
    | notCreated hcreate => cases hending
    | notWritten hcreate hwrite => cases hending
    | stored hcreate hwrite hrest ih => exact .stored hcreate hwrite (ih hfails hending)

/-! ### Faults that a run lets through -/

theorem Fails.explained {s s' : Scene Bench} {a : Artifact} {f : Fault}
    (h : Fails (Backend.ofKind l .filesystem) s a f s') : Explained l s.surroundings a.kind a.target f := by
  cases h with
  | creating hcreate => exact createFile_error hcreate
  | @writing p s₁ hcreate hwrite =>
    obtain ⟨hnul, -⟩ := makeBare_ok (createFile_ok hcreate).2.2
    obtain ⟨reason, rfl⟩ := writeFile_reports hnul hwrite
    exact Or.inl ⟨_, rfl⟩

theorem fails_of_escapes {s : Scene Bench} {a : Artifact} {c : Crash}
    (h : Escapes l s.surroundings a.kind a.target c) :
    ∃ s', Fails (Backend.ofKind l .filesystem) s a (.crash c) s' := by
  obtain ⟨s', hcreate⟩ := createFile_crash_iff.2 h
  exact ⟨s', .creating hcreate⟩

/-- A run of the filesystem backend whose build succeeds lets a fault through exactly when the fault escapes from the
creation of an artifact, all those before it being stored.  In all other cases there is a report, and it tells of the
delivery: the records of the artifacts that got through, and the failure. -/
theorem generate_escapes_iff (g : Generator) (l : Layout) (v : Template.View) (started : Moment) {r : Request}
    {slice : Slice} (hbuild : g.outcome v r = .ok slice) (s : Session Bench) : ∃ res s' journal,
      (g.generate (Backend.ofKind l .filesystem) v started r).run.run s = (res, s') ∧
      (∀ f, res = .error f ↔ ∃ c done a rest files found, f = .crash c ∧ slice.artifacts = done ++ a :: rest ∧
        Delivery (Backend.ofKind l .filesystem) ⟨s.surroundings, journal⟩ done files none found ∧
        Escapes l found.surroundings a.kind a.target c) ∧
      ∀ report, res = .ok report → ∃ files fault scene,
        Delivery (Backend.ofKind l .filesystem) ⟨s.surroundings, journal⟩ slice.artifacts files
          (fault.map fun f => .failure (.backend f)) scene ∧
        scene.surroundings = s'.surroundings ∧ Tells (Backend.ofKind l .filesystem) slice files fault report := by
  obtain ⟨history, added, -, hrun⟩ := run_generate_of_delivery hbuild
  obtain ⟨files, ending, scene, hdelivery⟩ := exists_delivery (Backend.ofKind l .filesystem) slice.artifacts
    ⟨s.surroundings, s.journal ++ added⟩
  refine ⟨_, _, s.journal ++ added, hrun started hdelivery, fun f => ⟨fun hf => ?_, ?_⟩, fun report hreport => ?_⟩
  · -- an escaping fault ends the delivery, and it is no failure of the backend
    cases hw : writingOf (recordsOf (Backend.ofKind l .filesystem) slice.artifacts files) ending with
    | ok w =>
      rw [hw] at hf
      cases hf
    | error e =>
      rw [hw] at hf
      obtain rfl := Except.error.inj hf
      obtain ⟨rfl, hother⟩ := writingOf_error hw
      obtain ⟨done, a, rest, found, hsplit, hdone, hfails⟩ := delivery_some_iff.1 hdelivery
      rcases hfails.explained with ⟨e, he⟩ | ⟨c, hc, hescapes⟩
      · exact absurd he (hother e)
      · exact ⟨c, done, a, rest, files, found, hc, hsplit, hdone, hescapes⟩
  -- a run goes one way only, so the delivery that ends in the escaping fault is the one of this run
  · rintro ⟨c, done, a, rest, files', found, rfl, hsplit, hdone, hescapes⟩
    obtain ⟨scene', hfails⟩ := fails_of_escapes hescapes
    have hother := delivery_some_iff.2 ⟨done, a, rest, found, hsplit, hdone, hfails⟩
    exact congrArg Prod.fst ((hrun started hdelivery).symm.trans (hrun started hother))
  · -- a report tells how far the delivery has come
    cases hw : writingOf (recordsOf (Backend.ofKind l .filesystem) slice.artifacts files) ending with
    | error e =>
      rw [hw] at hreport
      cases hreport
    | ok w =>
      rw [hw] at hreport
      obtain rfl := Except.ok.inj hreport
      obtain ⟨hrecords, rfl⟩ := writingOf_ok hw
      refine ⟨files, w.fault, scene, hdelivery, rfl, ?_⟩
      have htells := tells_reportOf (Backend.ofKind l .filesystem) started r slice files w.fault
      rw [← hrecords] at htells
      exact htells

/-- A run in an empty project. -/
theorem generate_escapes_iff_empty : ∃ slice,
    letterGenerator.outcome ⟨.empty, []⟩ ⟨"Post", "title:string", none⟩ = .ok slice ∧ ∃ res s' journal,
      (letterGenerator.generate (Backend.ofKind topLayout .filesystem) ⟨.empty, []⟩ ⟨2024, 1, 1, 0⟩
        ⟨"Post", "title:string", none⟩).run.run (sessionOn .empty) = (res, s') ∧
      (∀ f, res = .error f ↔ ∃ c done a rest files found, f = .crash c ∧ slice.artifacts = done ++ a :: rest ∧
        Delivery (Backend.ofKind topLayout .filesystem) ⟨(sessionOn .empty).surroundings, journal⟩ done files none
          found ∧ Escapes topLayout found.surroundings a.kind a.target c) ∧
      ∀ report, res = .ok report → ∃ files fault scene,
        Delivery (Backend.ofKind topLayout .filesystem) ⟨(sessionOn .empty).surroundings, journal⟩ slice.artifacts
          files (fault.map fun f => .failure (.backend f)) scene ∧
        scene.surroundings = s'.surroundings ∧
        Tells (Backend.ofKind topLayout .filesystem) slice files fault report := by
  obtain ⟨slice, hbuild⟩ := exists_of_isOk
    (x := letterGenerator.outcome ⟨.empty, []⟩ ⟨"Post", "title:string", none⟩) (by decide +kernel)
  exact ⟨slice, hbuild, generate_escapes_iff letterGenerator topLayout ⟨.empty, []⟩ ⟨2024, 1, 1, 0⟩ hbuild
    (sessionOn .empty)⟩

/-- A name that is too long for a directory. -/
def longName : String := String.ofList (List.replicate 256 'a')

/-- The layout of a project whose models are to go to a directory with that name. -/
def longLayout : Layout := ⟨{ Settings.default with modelsPath := longName }, ⟨.top, []⟩⟩

theorem toList_longName : longName.toList = List.replicate 256 'a' := String.toList_ofList

theorem isName_longName : Path.IsName longName := by
  have hlong : longName.toList.length = 256 := by rw [toList_longName, List.length_replicate]
  refine ⟨fun hmem => ?_, ?_, ?_, ?_⟩
  · rw [toList_longName] at hmem
    exact absurd (List.eq_of_mem_replicate hmem) (by decide)
  all_goals
    intro h
    rw [h] at hlong
    exact absurd hlong (by decide)

theorem hasNul_longName : (longName.toList.any fun c => c.toNat = 0) = false := by
  rw [toList_longName]
  refine List.any_eq_false.2 fun c hc => ?_
  rw [List.eq_of_mem_replicate hc]
  decide

theorem classPath_longLayout : longLayout.classPath .model "Post" = .ok ⟨.top, [longName, "Post.php"]⟩ := by
  have hdirectory : longLayout.directory .model = ⟨.top, [longName]⟩ := by
    show Path.join ⟨.top, []⟩ (Path.ofString longName) = _
    rw [Path.ofString_of_isName isName_longName]
    rfl
  have hsegments : (Naming.segments "Post".toList).map String.ofList = ["Post"] := by decide
  have hfile : Path.ofString ("Post" ++ ".php") = ⟨.here, ["Post.php"]⟩ := by decide
  simp only [Layout.classPath, hsegments, hdirectory, List.getLast?_singleton, List.dropLast_singleton,
    List.foldl_nil, Path.child, hfile]
  rfl

theorem escapes_longLayout : Escapes longLayout (sessionOn .empty).surroundings .model "Post"
    (.access (refuse .nameTooLong ⟨.top, [longName, "Post.php"]⟩)) := by
  refine .tooLong nofun classPath_longLayout ?_ ?_
  · simp only [Path.hasNul, List.any_cons, hasNul_longName, Bool.false_or]
    decide
  · have hlong : nameLimit < longName.utf8ByteSize := by decide +kernel
    rw [find_of_isAbsolute _ _ rfl, follow_of_tooLong rfl isName_longName.2.2.2 hlong, ite_self]

/-- Not every run whose build succeeds gives a report: whether there is a file whose path is too long, one cannot even
ask. -/
theorem not_generate_reports : ¬∀ (g : Generator) (l : Layout) (v : Template.View) (started : Moment) (r : Request)
    (slice : Slice) (s : Session Bench), g.outcome v r = .ok slice → l.root.isAbsolute = true →
      s.surroundings.lastStamp = none → s.surroundings.tree.Closed → ∃ report s',
        (g.generate (Backend.ofKind l .filesystem) v started r).run.run s = (.ok report, s') := by
  intro h
  obtain ⟨slice, hbuild⟩ := exists_of_isOk
    (x := letterGenerator.outcome ⟨.empty, []⟩ ⟨"Post", "title:string", none⟩) (by decide +kernel)
  have hclosed : (sessionOn .empty).surroundings.tree.Closed := closed_of_entries nofun
  obtain ⟨report, s', hrun⟩ := h letterGenerator longLayout ⟨.empty, []⟩ ⟨2024, 1, 1, 0⟩
    ⟨"Post", "title:string", none⟩ slice (sessionOn .empty) hbuild rfl rfl hclosed
  obtain ⟨history, added, hcourse, hgenerate⟩ := run_generate_of_delivery hbuild
  obtain ⟨names, hnames, hplaces⟩ := places_of_course hcourse
  obtain ⟨a, rest, hsplit, hplace, -⟩ := List.map_eq_cons_iff.1 hplaces
  have htarget : names.modelTarget = "Post" := by
    have heval : (EntityNames.ofEntity "Post" letterGenerator.settings.modelNamespace).map (·.modelTarget) =
        .ok "Post" := by decide
    rw [hnames] at heval
    exact Except.ok.inj heval
  obtain ⟨hkind, hname⟩ := Prod.mk.inj hplace
  -- the name of the file of the model is too long to be looked for
  have hescapes : Escapes longLayout (sessionOn .empty).surroundings a.kind a.target
      (.access (refuse .nameTooLong ⟨.top, [longName, "Post.php"]⟩)) := by
    rw [hkind, hname, htarget]
    exact escapes_longLayout
  obtain ⟨scene, hfails⟩ := fails_of_escapes (s := ⟨(sessionOn .empty).surroundings, added⟩) hescapes
  have hdelivery := delivery_some_iff.2 ⟨[], a, rest, _, hsplit, .finished _, hfails⟩
  have hfailed := hgenerate (s := sessionOn .empty) ⟨2024, 1, 1, 0⟩ hdelivery
  exact absurd (congrArg Prod.fst (hrun.symm.trans hfailed)) nofun

/-! ### What a run that fails leaves -/

/-- A file that was not there before. -/
def NewFile (before after : Tree) (a : Location) : Prop :=
  (∃ c, after.node? a = some (.file c)) ∧ ∀ c, before.node? a ≠ some (.file c)

theorem AllFresh.left {done xs ys : List Place} (h : AllFresh done (xs ++ ys)) : AllFresh done xs := by
  induction xs generalizing done with
  | nil => trivial
  | cons x xs ih => exact ⟨h.1, ih h.2⟩

/-- What a call that fails with the fault `f` may leave: new directories, and an empty file if an artifact that has been
created cannot be written. -/
def Leaves (l : Layout) (cwd : Location) (a : Artifact) (f : Fault) (x : Location) (n : Node) : Prop :=
  n = .directory ∨ ∃ p reason, f = .failure (.backend (.notWritten (l.shown p) p reason)) ∧
    Assigns l a.kind a.target p ∧ EmptyAt cwd p x n

theorem leaves_of_creating {s s' : Scene Bench} {a : Artifact} {f : Fault}
    (h : (Backend.createFile l a.kind a.target).run.run s = (.error f, s')) :
    GrowsBy (Leaves l s.surroundings.cwd a f) s.surroundings.tree s'.surroundings.tree := by
  rw [run_createFile_eq] at h
  cases hpath : pathIn l [] s.surroundings a.kind a.target with
  | error e =>
    rw [hpath] at h
    obtain rfl := (Prod.mk.inj h).2
    simp only [tree_afterChoice]
    exact GrowsBy.refl _ _
  | ok p =>
    simp only [hpath] at h
    rcases hbare : Backend.makeBare s.surroundings.tree s.surroundings.cwd p with ⟨e | u, t⟩ <;> rw [hbare] at h
    · obtain rfl := (Prod.mk.inj h).2
      exact (makeBare_error hbare).mono fun x n hway => Or.inl hway.1
    · cases h

theorem leaves_of_writing {s s₁ s' : Scene Bench} {a : Artifact} {p : Path} {f : Fault}
    (hcreate : (Backend.createFile l a.kind a.target).run.run s = (.ok p, s₁))
    (hwrite : (Backend.writeFile l p a.content).run.run s₁ = (.error f, s')) :
    GrowsBy (Leaves l s.surroundings.cwd a f) s.surroundings.tree s'.surroundings.tree := by
  obtain ⟨hpath, -, hbare⟩ := createFile_ok hcreate
  obtain ⟨reason, rfl⟩ := writeFile_reports (makeBare_ok hbare).1 hwrite
  have hmade := makeBare_grows s.surroundings.tree s.surroundings.cwd p
  rw [hbare] at hmade
  -- making the file leaves directories, and the empty file that was to be filled
  have hmade : GrowsBy (Leaves l s.surroundings.cwd a (.failure (.backend (.notWritten (l.shown p) p reason))))
      s.surroundings.tree s₁.surroundings.tree := by
    refine hmade.mono fun x n hn => ?_
    rcases hn with hway | hempty
    · exact Or.inl hway.1
    · exact Or.inr ⟨p, reason, rfl, assigns_of_pathIn hpath, hempty⟩
  obtain ⟨r, s₂, hrun, -, hcases⟩ := run_writeFile l p a.content s₁
  obtain ⟨rfl, rfl⟩ := Prod.mk.inj (hrun.symm.trans hwrite)
  -- the writing that fails leaves directories only
  rcases hcases with ⟨-, hway⟩ | ⟨hok, -⟩
  · exact hmade.trans (hway.mono fun x n hn => Or.inl hn.1)
  · cases hok

theorem Fails.leaves {s s' : Scene Bench} {a : Artifact} {f : Fault}
    (h : Fails (Backend.ofKind l .filesystem) s a f s') :
    GrowsBy (Leaves l s.surroundings.cwd a f) s.surroundings.tree s'.surroundings.tree := by
  cases h with
  | creating hcreate => exact leaves_of_creating hcreate
  | writing hcreate hwrite => exact leaves_of_writing hcreate hwrite

/-- A file that is there in the end, but not in the beginning. -/
theorem Filing.place_of_newFile {cwd : Location} {t₀ t t' : Tree} {done : List (Artifact × Path)} {a : Artifact}
    {f : Fault} (h : Filing l cwd t₀ done t) (hleaves : GrowsBy (Leaves l cwd a f) t t') {x : Location}
    (hx : NewFile t₀ t' x) : x ∈ done.map (spot cwd) ∨
      ∃ p reason, f = .failure (.backend (.notWritten (l.shown p) p reason)) ∧ Assigns l a.kind a.target p ∧
        x = p.locationFrom cwd ∧ t'.node? x = some (.file ByteArray.empty) := by
  obtain ⟨⟨c, hc⟩, hnew⟩ := hx
  by_cases hmem : x ∈ done.map (spot cwd)
  · exact Or.inl hmem
  right
  -- what the delivery has filed stands at one of its places
  have hbefore : t.node? x ≠ some (.file c) := by
    intro hfile
    rcases h.around x hmem with hsame | ⟨-, hdir, -⟩
    · exact hnew c (hsame ▸ hfile)
    · rw [hdir] at hfile
      cases hfile
  rcases hleaves x with hsame | ⟨-, n, hn, hleft⟩
  · exact absurd (hsame ▸ hc) hbefore
  rcases hleft with rfl | ⟨p, reason, hf, hassigned, rfl, hat⟩
  · rw [hn] at hc
    cases hc
  · exact ⟨p, reason, hf, hassigned, hat, hn⟩

/-- How an artifact that has been filed has come to its place: as a new file, or over another one.  That is for classes,
with the permission to replace files, or else for a path that was not found; in a tree in which everything stands in a
directory such a path goes back by `..`. -/
def Entered (l : Layout) (cwd : Location) (before after : Tree) (e : Artifact × Path) : Prop :=
  NewFile before after (spot cwd e) ∨ e.1.kind ≠ .migration ∧ l.settings.overwrite = true ∨
    (∀ at_, before.find cwd e.2 ≠ .ok at_) ∧ (before.Closed →
      ".." ∈ (l.directory e.1.kind).names ∨ "..".toList ∈ Naming.segments e.1.target.toList)

theorem Filing.entered {cwd : Location} {t₀ t t' : Tree} {done : List (Artifact × Path)} (h : Filing l cwd t₀ done t)
    (hkept : ∀ e ∈ done, t'.node? (spot cwd e) = some (.file e.1.content.toUTF8)) {e : Artifact × Path}
    (he : e ∈ done) : Entered l cwd t₀ t' e := by
  -- where a file was, it may be replaced, or it could not be found under the path
  by_cases hold : ∃ c, t₀.node? (spot cwd e) = some (.file c)
  · right
    obtain ⟨c, hc⟩ := hold
    by_cases hmay : e.1.kind ≠ .migration ∧ l.settings.overwrite = true
    · exact Or.inl hmay
    right
    have hkind : e.1.kind = .migration ∨ l.settings.overwrite = false := by
      by_cases hmigration : e.1.kind = .migration
      · exact Or.inl hmigration
      · exact Or.inr (Bool.eq_false_iff.2 fun hover => hmay ⟨hmigration, hover⟩)
    have hunfound := h.unfound e he hkind
    refine ⟨hunfound, fun hclosed => h.dots e he (Classical.byContradiction fun hdots => ?_)⟩
    exact hunfound _ (find_of_closed hclosed hdots (h.found e he) (by rw [hc]; rfl))
  · exact Or.inl ⟨⟨_, hkept e he⟩, fun c hc => hold ⟨c, hc⟩⟩

/-- A run that reports a failure has filed the artifacts before the one that fails, each in a file of its own, and its
manifest has their records.  There is no other new file, but for an empty one where the artifact that fails could be
created and not be written. -/
theorem generate_leaves {g : Generator} {l : Layout} {v : Template.View} {started : Moment} {r : Request}
    {s s' : Session Bench} {report : Report} {f : Failure}
    (hrun : (g.generate (Backend.ofKind l .filesystem) v started r).run.run s = (.ok report, s'))
    (hfailed : report.failure = some f) :
    ∃ (slice : Slice) (written : List (Artifact × Path)) (a : Artifact) (rest : List Artifact),
      g.outcome v r = .ok slice ∧ slice.artifacts = written.map Prod.fst ++ a :: rest ∧
      report.manifest.map (·.files) = some (written.map (filedRecord l)) ∧
      (written.map (spot s.surroundings.cwd)).Nodup ∧
      (∀ e ∈ written, readBytes s'.surroundings.tree s.surroundings.cwd e.2 = .ok e.1.content.toUTF8 ∧
        Entered l s.surroundings.cwd s.surroundings.tree s'.surroundings.tree e) ∧
      ∀ x, NewFile s.surroundings.tree s'.surroundings.tree x → x ∈ written.map (spot s.surroundings.cwd) ∨
        ∃ p reason, f = .backend (.notWritten (l.shown p) p reason) ∧ Assigns l a.kind a.target p ∧
          x = p.locationFrom s.surroundings.cwd ∧ s'.surroundings.tree.node? x = some (.file ByteArray.empty) := by
  obtain ⟨slice, history, before, files, fault, after, hbuild, hcourse, hbefore, hdelivery, rfl, hafter⟩ :=
    delivery_of_report hrun
  obtain ⟨e, rfl, rfl⟩ := Option.map_eq_some_iff.1 hfailed
  -- the delivery breaks off at `a`; the artifacts before it have been filed
  obtain ⟨done, a, rest, found, hsplit, hdone, hfails⟩ := delivery_some_iff.1 hdelivery
  obtain ⟨hfresh, hslash⟩ := allFresh_artifacts hcourse
  rw [hsplit, List.map_append] at hfresh
  have hslash' : ∀ a ∈ done, a.kind = .migration → '/' ∉ a.target.toList :=
    fun a ha => hslash a (hsplit ▸ List.mem_append_left _ ha)
  obtain ⟨written, t, rfl, -, hend, hfiling, -⟩ := filing_of_delivery hdone [] hslash' hfresh.left
    (Filing.start l before.surroundings.cwd before.surroundings.tree)
  obtain ⟨rfl, rfl⟩ := hend rfl
  -- the call that fails takes nothing away, so what has been filed before it is still there
  have hleaves := hfails.leaves
  rw [(leads_of_delivery hdone hslash').cwd, hbefore, hafter] at hleaves
  rw [List.nil_append, hbefore] at hfiling
  have hkept : ∀ e ∈ written, s'.surroundings.tree.node? (spot s.surroundings.cwd e) =
      some (.file e.1.content.toUTF8) := fun e he => hleaves.node (hfiling.content e he)
  refine ⟨slice, written, a, rest, hbuild, hsplit, ?_, hfiling.distinct, fun e he => ⟨?_, ?_⟩, fun x hx => ?_⟩
  · exact congrArg some (recordsOf_filed l ⟨a :: rest, hsplit.symm⟩)
  · have hfind := find_keeps hleaves.keeps (hfiling.found e he)
    simp only [readBytes, hfiling.noNul e he, hfind, hkept e he, Bool.false_eq_true, if_false]
  · exact hfiling.entered hkept he
  · simpa using hfiling.place_of_newFile hleaves hx

/-- A project with a model of posts, and a directory where their controller would go. -/
def blockedTree : Tree :=
  ⟨[(["app"], .directory), (["app", "Models"], .directory), (["app", "Models", "Post.php"], .file "old".toUTF8),
    (["app", "Http"], .directory), (["app", "Http", "Controllers"], .directory),
    (["app", "Http", "Controllers", "PostController.php"], .directory)]⟩

/-- The layout of a project whose classes may be replaced. -/
def replacingLayout : Layout := ⟨{ Settings.default with overwrite := true }, ⟨.top, []⟩⟩

/-- The places that the manifest of a run names, as seen from the working directory. -/
def listedPlaces (cwd : Location) (report : Report) : List Location :=
  ((report.manifest.map (·.files)).getD []).map fun r => (Path.ofString r.absolutePath).locationFrom cwd

theorem exists_of_failure {x : Except Fault Report × Session Bench} {a : Location}
    (h : (match x.1 with
      | .ok report => report.failure.isSome && decide (a ∈ listedPlaces [] report)
      | .error _ => false) = true) :
    ∃ report s' f, x = (.ok report, s') ∧ report.failure = some f ∧ a ∈ listedPlaces [] report := by
  obtain ⟨f | report, s'⟩ := x
  · cases h
  · obtain ⟨hfailed, hlisted⟩ := Bool.and_eq_true_iff.1 h
    obtain ⟨f, hf⟩ := Option.isSome_iff_exists.1 hfailed
    exact ⟨report, s', f, rfl, hf, of_decide_eq_true hlisted⟩

theorem run_blockedTree : ∃ report s' f,
    (letterGenerator.generate (Backend.ofKind replacingLayout .filesystem) ⟨blockedTree, []⟩ ⟨2024, 1, 1, 0⟩
      ⟨"Post", "title:string", none⟩).run.run (sessionOn blockedTree) = (.ok report, s') ∧
    report.failure = some f ∧ ["app", "Models", "Post.php"] ∈ listedPlaces [] report :=
  exists_of_failure (by decide +kernel)

/-- A run that replaces the model, stores the migration and cannot write the controller. -/
theorem generate_leaves_blocked : ∃ report s' f,
    (letterGenerator.generate (Backend.ofKind replacingLayout .filesystem) ⟨blockedTree, []⟩ ⟨2024, 1, 1, 0⟩
      ⟨"Post", "title:string", none⟩).run.run (sessionOn blockedTree) = (.ok report, s') ∧ report.failure = some f ∧
    ∃ (slice : Slice) (written : List (Artifact × Path)) (a : Artifact) (rest : List Artifact),
      letterGenerator.outcome ⟨blockedTree, []⟩ ⟨"Post", "title:string", none⟩ = .ok slice ∧
      slice.artifacts = written.map Prod.fst ++ a :: rest ∧
      report.manifest.map (·.files) = some (written.map (filedRecord replacingLayout)) ∧
      (written.map (spot [])).Nodup ∧
      (∀ e ∈ written, readBytes s'.surroundings.tree [] e.2 = .ok e.1.content.toUTF8 ∧
        Entered replacingLayout [] blockedTree s'.surroundings.tree e) ∧
      ∀ x, NewFile blockedTree s'.surroundings.tree x → x ∈ written.map (spot []) ∨
        ∃ p reason, f = .backend (.notWritten (replacingLayout.shown p) p reason) ∧
          Assigns replacingLayout a.kind a.target p ∧ x = p.locationFrom [] ∧
          s'.surroundings.tree.node? x = some (.file ByteArray.empty) := by
  obtain ⟨report, s', f, hrun, hfailed, -⟩ := run_blockedTree
  exact ⟨report, s', f, hrun, hfailed, generate_leaves hrun hfailed⟩

theorem closed_blockedTree : blockedTree.Closed := closed_of_entries (by decide)

/-- The manifest of a run that fails does not list the new files alone: it lists a model that has been replaced. -/
theorem not_generate_lists_new : ¬∀ (g : Generator) (l : Layout) (v : Template.View) (started : Moment) (r : Request)
    (s s' : Session Bench) (report : Report) (f : Failure), l.root.isAbsolute = true →
      s.surroundings.lastStamp = none → s.surroundings.tree.Closed →
      (g.generate (Backend.ofKind l .filesystem) v started r).run.run s = (.ok report, s') →
      report.failure = some f → ∀ x, NewFile s.surroundings.tree s'.surroundings.tree x ↔
        x ∈ listedPlaces s.surroundings.cwd report := by
  intro h
  obtain ⟨report, s', f, hrun, hfailed, hlisted⟩ := run_blockedTree
  have hnew := (h letterGenerator replacingLayout ⟨blockedTree, []⟩ ⟨2024, 1, 1, 0⟩ ⟨"Post", "title:string", none⟩
    (sessionOn blockedTree) s' report f rfl rfl closed_blockedTree hrun hfailed ["app", "Models", "Post.php"]).2 hlisted
  exact hnew.2 "old".toUTF8 rfl

end CrudScaffold.Generation
