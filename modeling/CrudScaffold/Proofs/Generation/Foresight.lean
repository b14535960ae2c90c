import CrudScaffold.Proofs.Backend.Planning
import CrudScaffold.Proofs.Generation.Filing

/-!
# CrudScaffold.Proofs.Generation.Foresight — how far a dry run foretells a real one

`Shadows l t₀ done b d` says that a dry run in the surroundings `d` is in step with a real run in the surroundings `b`:
the tree is still `t₀`, and what the real run has filed is planned.  One more artifact keeps the two in step, unless
the names that they see in the migrations directory mislead the dry run (`Shadows.step`, `Misleads`).

So a dry run foretells a successful run, or a name that begins with a stamp has misled it (`generate_foretold`).  The
file of a class is such a name wherever it stands, since a dry run takes all that it has planned for migrations.
-/

namespace CrudScaffold.Generation

open CrudScaffold.Backend CrudScaffold.Calendar CrudScaffold.Files CrudScaffold.Text
open CrudScaffold.Files.Tree

variable {l : Layout} {cwd : Location} {t₀ t t' : Tree} {done : List (Artifact × Path)}

/-! ### What a real run leaves of the tree -/

/-- A run that files artifacts leaves directories directories, and files files. -/
theorem Filing.retains (h : Filing l cwd t₀ done t) : Retains t₀ t := by
  intro a n hn
  by_cases hmem : a ∈ done.map (spot cwd)
  · obtain ⟨e, he, rfl⟩ := List.mem_map.1 hmem
    refine ⟨_, h.content e he, iff_of_false nofun fun hdir => ?_⟩
    have hthere := (h.keeps (spot cwd e)).1 (by simp [isDirectoryAt, hn, hdir])
    simp [isDirectoryAt, h.content e he] at hthere
  · rcases h.around a hmem with hsame | ⟨hnone, -⟩
    · exact ⟨n, hsame.trans hn, Iff.rfl⟩
    · rw [hnone] at hn
      cases hn

/-! ### What misleads a dry run -/

/-- A name that a dry run on the tree `t₀` and a real run do not see alike in the migrations directory; the real run
has filed the artifacts `done`, and its tree is `t`. -/
inductive Misleads (l : Layout) (cwd : Location) (t₀ : Tree) (done : List (Artifact × Path)) (t : Tree)
    (n : String) : Prop
  /-- It is the file of a class, which the dry run has planned, and which is no entry of the migrations directory; or
  one cannot tell, since the way to that directory goes back. -/
  | elsewhere {e : Artifact × Path} (he : e ∈ done) (hkind : e.1.kind ≠ .migration) (hname : e.2.name = n)
      (haway : spot cwd e ≠ entryAt l cwd n ∨ ".." ∈ (l.directory .migration).names)
  /-- It is an entry of the migrations directory, to which the dry run finds no way. -/
  | hidden (hmissing : t₀.find cwd (l.directory .migration) = .error .noSuchFile)
      (hthere : (t₀.node? (entryAt l cwd n)).isSome)
  /-- It is a directory that the real run has made. -/
  | made (hnone : t₀.node? (entryAt l cwd n) = none) (hmade : t.node? (entryAt l cwd n) = some .directory)

theorem Misleads.mono {n : String} (h : Misleads l cwd t₀ done t n) (added : List (Artifact × Path))
    (hkeeps : Keeps t t') : Misleads l cwd t₀ (done ++ added) t' n := by
  cases h with
  | elsewhere he hkind hname haway => exact .elsewhere (List.mem_append_left _ he) hkind hname haway
  | hidden hmissing hthere => exact .hidden hmissing hthere
  | made hnone hmade =>
    have hdir := (hkeeps (entryAt l cwd n)).1 (by simp [isDirectoryAt, hmade])
    exact .made hnone (by simpa [isDirectoryAt] using hdir)

theorem Filing.spot_eq (h : Filing l cwd t₀ done t) {e : Artifact × Path} (he : e ∈ done) :
    spot cwd e = e.2.parent.locationFrom cwd ++ [e.2.name] := by
  obtain ⟨n, hn, hdots, -⟩ := h.named e he
  rw [spot, Path.locationFrom_concat hn hdots, Path.name, hn]
  rfl

theorem find_of_entry {p directory : Path} {n : String} (hp : p.isAbsolute = true)
    (hdirectory : directory.isAbsolute = true) (hdots : ".." ∉ directory.names)
    (hfind : t.find cwd p = .ok (directory.locationFrom cwd ++ [n])) :
    t.find cwd directory = .ok (directory.locationFrom cwd) ∨ t.find cwd directory = .error .nameTooLong := by
  have hreached := reached_of_find hp hfind
  have hplace := Path.locationFrom_of_notMem cwd hdirectory hdots
  rw [hplace] at hreached ⊢
  rw [find_of_isAbsolute _ _ hdirectory]
  split
  · exact Or.inr rfl
  · exact Or.inl (follow_of_reached (hreached.of_prefix (List.prefix_append _ _)))

/-- A name that the real run lists and that the dry run neither lists nor has planned. -/
theorem Filing.misleads_of_listed (h : Filing l cwd t₀ done t) {names names' : List String} {n : String}
    (hnames : namesIn t₀ cwd (l.directory .migration) = .ok names)
    (hnames' : namesIn t cwd (l.directory .migration) = .ok names') (hreal : n ∈ names')
    (hlisted : n ∉ names) (hplanned : n ∉ done.map (·.2.name)) : Misleads l cwd t₀ done t n := by
  have hthere : (t.node? (entryAt l cwd n)).isSome := by
    obtain ⟨-, ⟨-, rfl⟩ | ⟨a, ha, -⟩⟩ := namesIn_eq_ok_iff.1 hnames'
    · cases hreal
    · exact (mem_names_iff hnames' ha).1 hreal
  -- a planned file of that name would be the one at this place
  have hnew : entryAt l cwd n ∉ done.map (spot cwd) := by
    intro hmem
    obtain ⟨e, he, hspot⟩ := List.mem_map.1 hmem
    rw [h.spot_eq he] at hspot
    have hname : e.2.name = n := by simpa using (List.append_inj' hspot rfl).2
    exact hplanned (List.mem_map.2 ⟨e, he, hname⟩)
  rcases h.around _ hnew with hsame | ⟨hnone, hmade, -⟩
  · rw [hsame] at hthere
    obtain ⟨-, ⟨hmissing, -⟩ | ⟨a, ha, -⟩⟩ := namesIn_eq_ok_iff.1 hnames
    · exact .hidden hmissing hthere
    · exact absurd ((mem_names_iff hnames ha).2 hthere) hlisted
  · exact .made hnone hmade

/-- A name that the dry run has planned and that the real run does not list. -/
theorem Filing.misleads_of_planned (h : Filing l cwd t₀ done t) (hroot : l.root.isAbsolute = true)
    {names' : List String} {n : String} (hnames' : namesIn t cwd (l.directory .migration) = .ok names')
    (hreal : n ∉ names') {e : Artifact × Path} (he : e ∈ done) (hname : e.2.name = n)
    (habsolute : e.2.isAbsolute = true) (hparent : e.1.kind = .migration → e.2.parent = l.directory .migration) :
    Misleads l cwd t₀ done t n := by
  -- were the directory found, the listing would have the file
  have hunfound : spot cwd e = entryAt l cwd n → ∀ a, t.find cwd (l.directory .migration) ≠ .ok a := by
    intro hspot a ha
    refine hreal ((mem_names_iff hnames' ha).2 ?_)
    rw [← entryAt, ← hspot, h.content e he]
    rfl
  by_cases hkind : e.1.kind = .migration
  · have hspot : spot cwd e = entryAt l cwd n := by rw [h.spot_eq he, hparent hkind, hname, entryAt]
    exact absurd (h.listed ⟨e, he, hkind⟩) (hunfound hspot _)
  refine .elsewhere he hkind hname ?_
  -- the artifact stands in the migrations directory by another way, or not at all
  by_cases hspot : spot cwd e = entryAt l cwd n
  · refine Or.inr (Classical.byContradiction fun hdots => ?_)
    have hfind := h.found e he
    rw [hspot] at hfind
    rcases find_of_entry habsolute (isAbsolute_directory hroot .migration) hdots hfind with hok | hlong
    · exact hunfound hspot _ hok
    · obtain ⟨-, ⟨hmissing, -⟩ | ⟨a, ha, -⟩⟩ := namesIn_eq_ok_iff.1 hnames'
      · rw [hmissing] at hlong
        cases hlong
      · rw [ha] at hlong
        cases hlong
  · exact Or.inl hspot

/-! ### Two runs in step -/

/-- A dry run in the surroundings `d` is in step with a real run in the surroundings `b` that has filed `done`. -/
structure Shadows (l : Layout) (t₀ : Tree) (done : List (Artifact × Path)) (b d : Bench) : Prop where
  tree : d.tree = t₀
  cwd : d.cwd = b.cwd
  clock : d.clock = b.clock
  readings : d.readings = b.readings
  lastStamp : d.lastStamp = b.lastStamp
  planned : d.planned = done.map fun e => (e.2, e.1.content)
  absolute : ∀ e ∈ done, e.2.isAbsolute = true
  parent : ∀ e ∈ done, e.1.kind = .migration → e.2.parent = l.directory .migration

/-- A name that begins with the stamp of a moment has misled the dry run, and not every reading of the clock has left
that moment behind. -/
def Misled (l : Layout) (cwd : Location) (clock : Nat → Moment) (t₀ : Tree) (done : List (Artifact × Path))
    (t : Tree) : Prop :=
  ∃ (m : Moment) (n : String), (∃ i, m.earlier (clock i) = false) ∧ beginsWith m.stamp n = true ∧
    Misleads l cwd t₀ done t n

/-- The dry run chooses the path that the real run has chosen, or it is misled. -/
theorem Shadows.pathIn {b d : Bench} (h : Shadows l t₀ done b d) (hroot : l.root.isAbsolute = true)
    (hfiling : Filing l b.cwd t₀ done b.tree) {kind : ArtifactKind} {name : String} {p : Path}
    (hpath : Backend.pathIn l [] b kind name = .ok p) :
    (Backend.pathIn l (d.planned.map (·.1.name)) d kind name = .ok p ∧
      (afterChoice l (d.planned.map (·.1.name)) d kind).readings = (afterChoice l [] b kind).readings ∧
      (afterChoice l (d.planned.map (·.1.name)) d kind).lastStamp = (afterChoice l [] b kind).lastStamp) ∨
    Misled l b.cwd b.clock t₀ done b.tree := by
  have hretains : Retains d.tree b.tree := h.tree ▸ hfiling.retains
  unfold Backend.pathIn at hpath ⊢
  unfold afterChoice
  -- a class gets the same path in both runs
  by_cases hkind : kind = .migration
  · simp only [hkind, if_true] at hpath ⊢
    cases hm : momentIn l b [] with
    | error f =>
      rw [hm] at hpath
      cases hpath
    | ok m =>
      rw [hm] at hpath
      -- both runs find the same moment, or a name misleads one of them
      rcases momentIn_retains hroot (d.planned.map (·.1.name)) hretains h.cwd h.clock h.readings h.lastStamp hm with
        hsame | ⟨names, names', hnames, hnames', k, n, hk, hbegins, hdiffer⟩
      · rw [hsame]
        exact Or.inl ⟨hpath, congrArg (· + 1) h.readings, rfl⟩
      · have hplanned : d.planned.map (·.1.name) = done.map (·.2.name) := by
          rw [h.planned, List.map_map]
          rfl
        rw [h.tree] at hnames
        rw [hplanned] at hdiffer
        refine Or.inr ⟨k, n, ⟨b.readings, hk⟩, hbegins, ?_⟩
        rcases hdiffer with ⟨hreal, hlisted, hnew⟩ | ⟨hreal, hmem⟩
        · exact hfiling.misleads_of_listed hnames hnames' hreal hlisted hnew
        · obtain ⟨e, he, hname⟩ := List.mem_map.1 hmem
          exact hfiling.misleads_of_planned hroot hnames' hreal he hname (h.absolute e he) (h.parent e he)
  · simp only [hkind, if_false] at hpath ⊢
    exact Or.inl ⟨classIn_retains hroot hretains h.cwd hpath hkind, h.readings, h.lastStamp⟩

theorem Misled.mono {clock : Nat → Moment} (h : Misled l cwd clock t₀ done t) (added : List (Artifact × Path))
    (hkeeps : Keeps t t') : Misled l cwd clock t₀ (done ++ added) t' := by
  obtain ⟨m, n, hm, hbegins, hmisleads⟩ := h
  exact ⟨m, n, hm, hbegins, hmisleads.mono added hkeeps⟩

theorem putPlanned_concat {planned : List (Path × String)} {p : Path} (hp : ∀ e ∈ planned, e.1 ≠ p)
    (content : String) : Backend.putPlanned (planned ++ [(p, "")]) p content = planned ++ [(p, content)] := by
  have hkept : (planned.map fun e => if e.1 = p then (p, content) else e) = planned := by
    have hsame : ∀ e ∈ planned, (if e.1 = p then (p, content) else e) = id e := fun e he => if_neg (hp e he)
    rw [List.map_congr_left hsame, List.map_id]
  have hany : (planned ++ [(p, "")]).any (·.1 = p) = true := by simp
  rw [Backend.putPlanned, if_pos hany, List.map_append, hkept, List.map_singleton, if_pos rfl]

theorem not_any_planned {planned : List (Path × String)} {p : Path} (hp : ∀ e ∈ planned, e.1 ≠ p) :
    planned.any (·.1 = p) = false := by
  rw [List.any_eq_false]
  intro e he
  simpa using hp e he

/-- One more artifact that the real run gets through: the dry run plans it under the same path, or it is misled. -/
theorem Shadows.step {s s₁ s₂ d : Scene Bench} {a : Artifact} {p : Path} {size : Int}
    (h : Shadows l t₀ done s.surroundings d.surroundings) (hroot : l.root.isAbsolute = true)
    (hslash : a.kind = .migration → '/' ∉ a.target.toList)
    (hfiling : Filing l s.surroundings.cwd t₀ done s.surroundings.tree)
    (hnew : p.locationFrom s.surroundings.cwd ∉ done.map (spot s.surroundings.cwd))
    (hcreate : (Backend.createFile l a.kind a.target).run.run s = (.ok p, s₁))
    (hwrite : (Backend.writeFile l p a.content).run.run s₁ = (.ok size, s₂)) :
    (∃ d₁ d₂, (Backend.createPlanned l a.kind a.target).run.run d = (.ok p, d₁) ∧
      (Backend.writePlanned l p a.content).run.run d₁ = (.ok a.content.toUTF8.size, d₂) ∧
      Shadows l t₀ (done ++ [(a, p)]) s₂.surroundings d₂.surroundings) ∨
    Misled l s.surroundings.cwd s.surroundings.clock t₀ done s.surroundings.tree := by
  obtain ⟨hpath, hchosen, -⟩ := createFile_ok hcreate
  rcases h.pathIn hroot hfiling hpath with ⟨hdry, hreadings, hlast⟩ | hmisled
  · left
    -- the path has not been planned yet
    have hunplanned : ∀ e ∈ d.surroundings.planned, e.1 ≠ p := by
      rw [h.planned]
      intro e he heq
      obtain ⟨x, hx, rfl⟩ := List.mem_map.1 he
      refine hnew (List.mem_map.2 ⟨x, hx, ?_⟩)
      rw [spot, ← heq]
    have hwritten := surroundings_writeFile l p a.content s₁
    rw [hwrite, hchosen] at hwritten
    have hassigned := assigns_of_pathIn hpath
    rw [run_createPlanned_eq, hdry]
    simp only [planned_afterChoice, not_any_planned hunplanned, Bool.false_eq_true, if_false]
    refine ⟨_, _, rfl, rfl, ?_⟩
    rw [hwritten]
    refine ⟨(tree_afterChoice ..).trans h.tree, ?_, ?_, hreadings, hlast, ?_, ?_, ?_⟩
    · simpa using h.cwd
    · simpa using h.clock
    · show Backend.putPlanned (d.surroundings.planned ++ [(p, "")]) p a.content = _
      rw [putPlanned_concat hunplanned, h.planned, List.map_append, List.map_singleton]
    · refine List.forall_mem_append.2 ⟨h.absolute, List.forall_mem_singleton.2 ?_⟩
      exact hassigned.isAbsolute hroot
    · refine List.forall_mem_append.2 ⟨h.parent, List.forall_mem_singleton.2 fun hkind => ?_⟩
      have hmigration : Assigns l .migration a.target p := hkind ▸ hassigned
      exact hmigration.migration (hslash hkind)
  · exact Or.inr hmisled

/-- A dry run goes in step with a delivery that gets through, or it is misled on the way.  The induction is on the
delivery; both runs are in step and the artifacts so far are filed. -/
theorem shadows_of_delivery (hroot : l.root.isAbsolute = true) {s s' : Scene Bench} {as : List Artifact}
    {files : List (Path × Int)} {ending : Option Fault}
    (h : Delivery (Backend.ofKind l .filesystem) s as files ending s') (hending : ending = none)
    {added : List (Artifact × Path)} (hall : added.map Prod.fst = as) (hfiles : files = added.map fileOf)
    (done : List (Artifact × Path)) (hslash : ∀ a ∈ as, a.kind = .migration → '/' ∉ a.target.toList)
    (hfresh : AllFresh (done.map fun e => e.1.place) (as.map Artifact.place))
    (hfiling : Filing l s.surroundings.cwd t₀ done s.surroundings.tree) {d : Scene Bench}
    (hd : Shadows l t₀ done s.surroundings d.surroundings) :
    (∃ d', Delivery (Backend.ofKind l .dryRun) d as files none d' ∧
      Shadows l t₀ (done ++ added) s'.surroundings d'.surroundings) ∨
    Misled l s.surroundings.cwd s.surroundings.clock t₀ (done ++ added) s'.surroundings.tree := by
  -- the induction is on the delivery of the real run; `Shadows` says how far the dry run agrees with it
  induction h generalizing added done d with
  | finished s =>
    obtain rfl := List.map_eq_nil_iff.1 hall
    refine Or.inl ⟨d, .finished d, ?_⟩
    rwa [List.append_nil]
  | notCreated hcreate => cases hending
  | notWritten hcreate hwrite => cases hending
  | @stored s s₁ s₂ s' a rest p size files ending hcreate hwrite hrest ih =>
    obtain ⟨⟨a', p'⟩, added, rfl, rfl, hothers⟩ := List.map_eq_cons_iff.1 hall
    obtain ⟨hfile, htail⟩ := List.cons.inj hfiles
    obtain ⟨rfl, -⟩ := Prod.mk.inj hfile
    obtain ⟨rfl, hcwd, hstep⟩ := hfiling.stored (hslash _ List.mem_cons_self) hfresh.1 hcreate hwrite
    have hrest' : ∀ a ∈ rest, a.kind = .migration → '/' ∉ a.target.toList :=
      fun a ha => hslash a (List.mem_cons_of_mem _ ha)
    -- the path of this artifact is a new place
    have hnew : p.locationFrom s.surroundings.cwd ∉ done.map (spot s.surroundings.cwd) := by
      have hdistinct := hstep.distinct
      rw [List.map_append, List.nodup_append] at hdistinct
      exact fun hmem => hdistinct.2.2 _ hmem _ List.mem_cons_self rfl
    -- once misled, always misled: what is in the tree stays there
    rcases hd.step hroot (hslash _ List.mem_cons_self) hfiling hnew hcreate hwrite with
      ⟨d₁, d₂, hplan, htext, hd₂⟩ | hmisled
    · rw [← hcwd] at hstep
      have hfresh' : AllFresh ((done ++ [(a', p)]).map fun e => e.1.place) (rest.map Artifact.place) := by
        simpa using hfresh.2
      rcases ih hending hothers htail (done ++ [(a', p)]) hrest' hfresh' hstep hd₂ with ⟨d', hdelivery, hd'⟩ | hmisled
      · rw [List.append_assoc] at hd'
        exact Or.inl ⟨d', .stored hplan htext hdelivery, hd'⟩
      · rw [List.append_assoc] at hmisled
        rw [← hcwd, ← clock_of_stored hcreate hwrite]
        exact Or.inr hmisled
    · exact Or.inr (hmisled.mono _ (leads_of_delivery (.stored hcreate hwrite hrest) hslash).keeps)

/-! ### Runs -/

/-- A dry run leaves the tree as it is, whatever becomes of it. -/
theorem tree_of_delivery_dryRun {s s' : Scene Bench} {as : List Artifact} {files : List (Path × Int)}
    {ending : Option Fault} (h : Delivery (Backend.ofKind l .dryRun) s as files ending s') :
    s'.surroundings.tree = s.surroundings.tree := by
  have hcreates : ∀ {kind : ArtifactKind} {name : String} {s s' : Scene Bench} {r : Except Fault Path},
      (Backend.createPlanned l kind name).run.run s = (r, s') → s'.surroundings.tree = s.surroundings.tree := by
    intro kind name s s' r hcreate
    have hscene := congrArg (fun x => x.2.surroundings.tree) hcreate
    rw [run_createPlanned_eq] at hscene
    rw [← hscene]
    split
    · exact tree_afterChoice ..
    · simp only
      split <;> exact tree_afterChoice ..
  have hwrites : ∀ {p : Path} {content : String} {s s' : Scene Bench} {r : Except Fault Int},
      (Backend.writePlanned l p content).run.run s = (r, s') → s'.surroundings.tree = s.surroundings.tree := by
    intro p content s s' r hwrite
    exact (congrArg (fun x => x.2.surroundings.tree) hwrite).symm
  -- no call of a dry run writes
  induction h with
  | finished s => rfl
  | notCreated hcreate => exact hcreates hcreate
  | notWritten hcreate hwrite => exact (hwrites hwrite).trans (hcreates hcreate)
  | stored hcreate hwrite hrest ih => exact ih.trans ((hwrites hwrite).trans (hcreates hcreate))

/-- What a dry run tells of a run that has filed `written`. -/
structure Foretells (written : List (Artifact × Path)) (report dry : Report) (d : Bench) : Prop where
  success : dry.success = true
  manifest : dry.manifest.map (·.files) = report.manifest.map (·.files)
  recorded : d.planned = written.map fun e => (e.2, e.1.content)

/-- A dry run on the tree in which a real run has begun leaves the tree as it is.  It foretells what the real run has
filed, or a name that begins with a stamp has misled it: the file of a class that is no entry of the migrations
directory, an entry to which it finds no way, or a directory that the real run has made. -/
theorem generate_foretold {g : Generator} {l : Layout} (hroot : l.root.isAbsolute = true) {v : Template.View}
    {started : Moment} {r : Request} {s s' : Session Bench} {report : Report} (hfresh : s.surroundings.planned = [])
    (hrun : (g.generate (Backend.ofKind l .filesystem) v started r).run.run s = (.ok report, s'))
    (hsuccess : report.success = true) :
    ∃ slice written res after, g.outcome v r = .ok slice ∧ written.map Prod.fst = slice.artifacts ∧
      report.manifest.map (·.files) = some (written.map (filedRecord l)) ∧
      Holds s.surroundings.cwd s.surroundings.tree s'.surroundings.tree written ∧
      (g.generate (Backend.ofKind l .dryRun) v started r).run.run s = (res, after) ∧
      after.surroundings.tree = s.surroundings.tree ∧
      ((∃ dry, res = .ok dry ∧ Foretells written report dry after.surroundings) ∨
        Misled l s.surroundings.cwd s.surroundings.clock s.surroundings.tree written s'.surroundings.tree) := by
  obtain ⟨slice, history, before, files, after, houtcome, hcourse, hbefore, hdelivery, hmanifest, hafter⟩ :=
    delivery_of_success hrun hsuccess
  obtain ⟨hallFresh, hslash⟩ := allFresh_artifacts hcourse
  obtain ⟨written, t, rfl, -, hend, hfiling, -⟩ := filing_of_delivery hdelivery [] hslash hallFresh
    (Filing.start l before.surroundings.cwd before.surroundings.tree)
  obtain ⟨hall, rfl⟩ := hend rfl
  have hprefix : written.map Prod.fst <+: slice.artifacts := hall ▸ List.prefix_refl _
  have hrecords := recordsOf_filed l hprefix
  rw [hrecords] at hmanifest
  rw [List.nil_append, hbefore, hafter] at hfiling
  -- the dry run begins after the same build, and its delivery decides how it ends
  obtain ⟨history', added, -, hgenerate⟩ := run_generate_of_delivery houtcome
  have hshadows : Shadows l s.surroundings.tree [] before.surroundings s.surroundings :=
    ⟨rfl, by rw [hbefore], by rw [hbefore], by rw [hbefore], by rw [hbefore], hfresh, nofun, nofun⟩
  have hstart : Filing l before.surroundings.cwd s.surroundings.tree [] before.surroundings.tree := by
    rw [hbefore]
    exact Filing.start l s.surroundings.cwd s.surroundings.tree
  rcases shadows_of_delivery hroot hdelivery rfl hall rfl [] hslash hallFresh hstart
    (d := ⟨s.surroundings, s.journal ++ added⟩) hshadows with ⟨d, hdry, hd⟩ | hmisled
  · refine ⟨slice, written, _, _, houtcome, hall, hmanifest, hfiling.holds, hgenerate (s := s) started hdry,
      tree_of_delivery_dryRun hdry, Or.inl ⟨_, rfl, rfl, ?_, hd.planned⟩⟩
    rw [hmanifest, ← hrecords]
    rfl
  · obtain ⟨files, ending, d, hdry⟩ := exists_delivery (Backend.ofKind l .dryRun) slice.artifacts
      ⟨s.surroundings, s.journal ++ added⟩
    rw [List.nil_append, hbefore, hafter] at hmisled
    exact ⟨slice, written, _, _, houtcome, hall, hmanifest, hfiling.holds, hgenerate (s := s) started hdry,
      tree_of_delivery_dryRun hdry, Or.inr hmisled⟩

/-- A dry run in an empty project. -/
theorem generate_foretold_empty : topLayout.root.isAbsolute = true ∧
    (sessionOn .empty).surroundings.planned = [] ∧ ∃ report s',
      (letterGenerator.generate (Backend.ofKind topLayout .filesystem) ⟨.empty, []⟩ ⟨2024, 1, 1, 0⟩
        ⟨"Post", "title:string", none⟩).run.run (sessionOn .empty) = (.ok report, s') ∧
      report.success = true ∧ ∃ slice written res after,
        letterGenerator.outcome ⟨.empty, []⟩ ⟨"Post", "title:string", none⟩ = .ok slice ∧
        written.map Prod.fst = slice.artifacts ∧
        report.manifest.map (·.files) = some (written.map (filedRecord topLayout)) ∧
        Holds (sessionOn .empty).surroundings.cwd (sessionOn .empty).surroundings.tree s'.surroundings.tree written ∧
        (letterGenerator.generate (Backend.ofKind topLayout .dryRun) ⟨.empty, []⟩ ⟨2024, 1, 1, 0⟩
          ⟨"Post", "title:string", none⟩).run.run (sessionOn .empty) = (res, after) ∧
        after.surroundings.tree = (sessionOn .empty).surroundings.tree ∧
        ((∃ dry, res = .ok dry ∧ Foretells written report dry after.surroundings) ∨
          Misled topLayout (sessionOn .empty).surroundings.cwd (sessionOn .empty).surroundings.clock
            (sessionOn .empty).surroundings.tree written s'.surroundings.tree) := by
  obtain ⟨report, s', hrun, hsuccess⟩ := exists_of_success
    (x := (letterGenerator.generate (Backend.ofKind topLayout .filesystem) ⟨.empty, []⟩ ⟨2024, 1, 1, 0⟩
      ⟨"Post", "title:string", none⟩).run.run (sessionOn .empty)) (by decide +kernel)
  exact ⟨rfl, rfl, report, s', hrun, hsuccess, generate_foretold rfl rfl hrun hsuccess⟩

/-- The paths in the manifest of a run. -/
def listedPaths (report : Report) : List String := ((report.manifest.map (·.files)).getD []).map (·.relativePath)

theorem exists_of_listedPaths_ne {x y : Except Fault Report × Session Bench}
    (h : (match x.1, y.1 with
      | .ok report, .ok dry => report.success && decide (listedPaths dry ≠ listedPaths report)
      | _, _ => false) = true) :
    ∃ report s' dry after, x = (.ok report, s') ∧ y = (.ok dry, after) ∧ report.success = true ∧
      listedPaths dry ≠ listedPaths report := by
  obtain ⟨f | report, s'⟩ := x
  · cases h
  obtain ⟨f | dry, after⟩ := y
  · cases h
  · obtain ⟨hsuccess, hne⟩ := Bool.and_eq_true_iff.1 h
    exact ⟨report, s', dry, after, rfl, rfl, hsuccess, of_decide_eq_true hne⟩

/-- Not every successful run is foretold: a model that is named by the stamp of its migration misleads the dry run. -/
theorem not_generate_foretold : ¬∀ (g : Generator) (l : Layout) (v : Template.View) (started : Moment) (r : Request)
    (s s' : Session Bench) (report : Report), l.root.isAbsolute = true → s.surroundings.planned = [] →
      s.surroundings.lastStamp = none → s.surroundings.tree.Closed →
      (g.generate (Backend.ofKind l .filesystem) v started r).run.run s = (.ok report, s') → report.success = true →
        ∃ dry after, (g.generate (Backend.ofKind l .dryRun) v started r).run.run s = (.ok dry, after) ∧
          dry.manifest.map (·.files) = report.manifest.map (·.files) := by
  intro h
  obtain ⟨report, s', dry, after, hrun, hdry, hsuccess, hne⟩ := exists_of_listedPaths_ne
    (x := (letterGenerator.generate (Backend.ofKind topLayout .filesystem) ⟨.empty, []⟩ ⟨2024, 1, 1, 0⟩
      ⟨"2024_01_01_000000", "title:string", none⟩).run.run (sessionOn .empty))
    (y := (letterGenerator.generate (Backend.ofKind topLayout .dryRun) ⟨.empty, []⟩ ⟨2024, 1, 1, 0⟩
      ⟨"2024_01_01_000000", "title:string", none⟩).run.run (sessionOn .empty)) (by decide +kernel)
  have hclosed : (sessionOn .empty).surroundings.tree.Closed := closed_of_entries nofun
  obtain ⟨dry', after', hdry', hsame⟩ := h letterGenerator topLayout ⟨.empty, []⟩ ⟨2024, 1, 1, 0⟩
    ⟨"2024_01_01_000000", "title:string", none⟩ (sessionOn .empty) s' report rfl rfl rfl hclosed hrun hsuccess
  obtain rfl : dry' = dry := Except.ok.inj (congrArg Prod.fst (hdry'.symm.trans hdry))
  exact hne (by simp only [listedPaths, hsame])

end CrudScaffold.Generation
