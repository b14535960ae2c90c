import CrudScaffold.Proofs.Generation.Targets
import CrudScaffold.Proofs.Generation.Writing

/-!
# CrudScaffold.Proofs.Generation.Filing — what the filesystem backend leaves in the tree

`Filing l cwd t₀ done t` is what holds between two artifacts of a run that began with the tree `t₀`: the artifacts
`done` stand under their paths, no two of them in one place, and around them there are only new directories on the way.
One more artifact keeps it (`Filing.step`), so it holds along every delivery (`filing_of_delivery`).

A successful run has filed every artifact of its slice (`generate_files`).  Without the permission to replace files, a
run replaces one only by going past a missing directory and back by `..` (`generate_replaces`).
-/

namespace CrudScaffold.Generation

open CrudScaffold.Backend CrudScaffold.Calendar CrudScaffold.Files CrudScaffold.Template
open CrudScaffold.Files.Tree

variable {l : Layout} {cwd : Location} {t₀ t t₁ t₂ : Tree}

/-! ### One more artifact -/

/-- Away from its own place, an artifact that is created and written leaves only new directories on its way. -/
theorem around_of_placed {kind : ArtifactKind} {target content : String} {p : Path}
    (hcreate : Creates l kind target cwd t p t₁) (hwrite : Writes cwd p content t₁ t₂) {a : Location}
    (ha : a ≠ p.locationFrom cwd) :
    t₂.node? a = t.node? a ∨ t.node? a = none ∧ t₂.node? a = some .directory ∧ p.Passes cwd a := by
  have hgrow : t₁.node? a = t.node? a ∨ t.node? a = none ∧ t₁.node? a = some .directory ∧ p.Passes cwd a := by
    rcases hcreate.grows a with h | ⟨h, n, hn, ⟨rfl, hpasses⟩ | ⟨-, hat⟩⟩
    · exact Or.inl h
    · exact Or.inr ⟨h, hn, Path.passes_of_parent hpasses⟩
    · exact absurd hat ha
  rcases hwrite.around a ha with h | ⟨h, n, hn, rfl, hpasses⟩
  · rw [h]
    exact hgrow
  · rcases hgrow with h' | ⟨-, h', -⟩
    · exact Or.inr ⟨h' ▸ h, hn, Path.passes_of_parent hpasses⟩
    · rw [h'] at h
      cases h

/-! ### The invariant -/

/-- The place in the tree where an artifact has been filed. -/
def spot (cwd : Location) (e : Artifact × Path) : Location := e.2.locationFrom cwd

/-- The artifacts `done` have been filed since the tree was `t₀`. -/
structure Filing (l : Layout) (cwd : Location) (t₀ : Tree) (done : List (Artifact × Path)) (t : Tree) : Prop where
  named : ∀ e ∈ done, ∃ n, e.2.names.getLast? = some n ∧ n ≠ ".." ∧ FileName e.1.kind e.1.target n
  dots : ∀ e ∈ done, ".." ∈ e.2.names →
    ".." ∈ (l.directory e.1.kind).names ∨ "..".toList ∈ Naming.segments e.1.target.toList
  unfound : ∀ e ∈ done, e.1.kind = .migration ∨ l.settings.overwrite = false → ∀ at_, t₀.find cwd e.2 ≠ .ok at_
  noNul : ∀ e ∈ done, e.2.hasNul = false
  found : ∀ e ∈ done, t.find cwd e.2 = .ok (spot cwd e)
  content : ∀ e ∈ done, t.node? (spot cwd e) = some (.file e.1.content.toUTF8)
  distinct : (done.map (spot cwd)).Nodup
  /-- Once there is a migration, the migrations directory can be listed. -/
  listed : (∃ e ∈ done, e.1.kind = .migration) →
    t.find cwd (l.directory .migration) = .ok ((l.directory .migration).locationFrom cwd)
  around : ∀ a, a ∉ done.map (spot cwd) →
    t.node? a = t₀.node? a ∨ t₀.node? a = none ∧ t.node? a = some .directory ∧ ∃ e ∈ done, e.2.Passes cwd a
  keeps : Keeps t₀ t

namespace Filing

theorem start (l : Layout) (cwd : Location) (t : Tree) : Filing l cwd t [] t where
  named := fun _ h => absurd h List.not_mem_nil
  dots := fun _ h => absurd h List.not_mem_nil
  unfound := fun _ h => absurd h List.not_mem_nil
  noNul := fun _ h => absurd h List.not_mem_nil
  found := fun _ h => absurd h List.not_mem_nil
  content := fun _ h => absurd h List.not_mem_nil
  distinct := List.nodup_nil
  listed := nofun
  around _ _ := Or.inl rfl
  keeps := Keeps.refl t

variable {done : List (Artifact × Path)}

/-- A fresh artifact gets a place that none of those before it has: by the name of its file, or because the listing
of the migrations directory has shown that the place is free. -/
theorem spot_notMem (h : Filing l cwd t₀ done t) {a : Artifact} {p : Path}
    (hchosen : Chosen l a.kind a.target cwd t p) (hfresh : Fresh (done.map fun e => e.1.place) a.place) :
    p.locationFrom cwd ∉ done.map (spot cwd) := by
  intro hmem
  obtain ⟨e, he, hspot⟩ := List.mem_map.1 hmem
  rcases hfresh with hapart | ⟨hkind, d, hd, hdkind⟩
  · obtain ⟨n, hn, hname, hfile⟩ := hchosen.named
    obtain ⟨n', hn', hdots, hfile'⟩ := h.named e he
    rw [spot, Path.locationFrom_concat hn' hdots, Path.locationFrom_concat hn hname.2.2.2] at hspot
    obtain rfl : n' = n := by simpa using (List.append_inj' hspot rfl).2
    exact hapart e.1.place (List.mem_map_of_mem he) n' hfile hfile'
  · obtain ⟨e', he', rfl⟩ := List.mem_map.1 hd
    have hnode := hchosen.vacant hkind _ (h.listed ⟨e', he', hdkind⟩)
    rw [← hspot, h.content e he] at hnode
    cases hnode

/-- One more artifact. -/
theorem step (h : Filing l cwd t₀ done t) {a : Artifact} {p : Path}
    (hcreate : Creates l a.kind a.target cwd t p t₁) (hwrite : Writes cwd p a.content t₁ t₂)
    (hfresh : Fresh (done.map fun e => e.1.place) a.place) : Filing l cwd t₀ (done ++ [(a, p)]) t₂ := by
  have hnew := h.spot_notMem hcreate.chosen hfresh
  have hkeeps : Keeps t t₂ := hcreate.grows.keeps.trans hwrite.keeps
  -- what holds of the older artifacts and of the new one holds of all
  have hforall : ∀ {P : Artifact × Path → Prop}, (∀ e ∈ done, P e) → P (a, p) → ∀ e ∈ done ++ [(a, p)], P e := by
    intro P hdone hlast e he
    rcases List.mem_append.1 he with he | he
    · exact hdone e he
    · obtain rfl := List.mem_singleton.1 he
      exact hlast
  refine ⟨hforall h.named ?_, hforall h.dots hcreate.chosen.dots, hforall h.unfound ?_, hforall h.noNul hcreate.noNul,
    hforall (fun e he => find_keeps hkeeps (h.found e he)) hwrite.found, hforall (fun e he => ?_) hwrite.node, ?_, ?_,
    ?_, h.keeps.trans hkeeps⟩
  · -- the new path has a proper name
    obtain ⟨n, hn, hname, hfile⟩ := hcreate.chosen.named
    exact ⟨n, hn, hname.2.2.2, hfile⟩
  · -- nothing was found under the new path
    intro hkind at_ hfind
    rcases hcreate.chosen.unfound hkind with hnul | hunfound
    · rw [hcreate.noNul] at hnul
      cases hnul
    · exact hunfound at_ (find_keeps h.keeps hfind)
  · -- an earlier artifact stands elsewhere, and what stands there stays
    have hne : spot cwd e ≠ p.locationFrom cwd := fun heq => hnew (heq ▸ List.mem_map_of_mem he)
    rcases around_of_placed hcreate hwrite hne with hsame | ⟨hnone, -⟩
    · rw [hsame, h.content e he]
    · rw [h.content e he] at hnone
      cases hnone
  · -- the new place is none of the older ones
    rw [List.map_append, List.nodup_append]
    refine ⟨h.distinct, List.nodup_cons.2 ⟨List.not_mem_nil, List.nodup_nil⟩, fun x hx y hy heq => ?_⟩
    obtain rfl := List.mem_singleton.1 hy
    rw [heq] at hx
    exact hnew hx
  · -- the migrations directory stays listed
    rintro ⟨e, he, hkind⟩
    rcases List.mem_append.1 he with he | he
    · exact find_keeps hkeeps (h.listed ⟨e, he, hkind⟩)
    · obtain rfl := List.mem_singleton.1 he
      have hparent := hcreate.chosen.parent hkind
      exact hparent ▸ find_keeps hwrite.keeps hcreate.listed
  · -- around all places only directories have been added
    intro x hx
    rw [List.map_append, List.mem_append, not_or] at hx
    have hne : x ≠ p.locationFrom cwd := fun heq => hx.2 (by simp [spot, heq])
    rcases around_of_placed hcreate hwrite hne with hsame | ⟨hnone, hnode, hpasses⟩
    · rw [hsame]
      rcases h.around x hx.1 with h' | ⟨h₀, h', e, he, hpasses⟩
      · exact Or.inl h'
      · exact Or.inr ⟨h₀, h', e, List.mem_append_left _ he, hpasses⟩
    · rcases h.around x hx.1 with h' | ⟨-, h', -⟩
      · exact Or.inr ⟨h' ▸ hnone, hnode, (a, p), by simp, hpasses⟩
      · rw [hnone] at h'
        cases h'

/-- An artifact that gets through is filed. -/
theorem stored {s s₁ s₂ : Scene Bench} {a : Artifact} {p : Path} {size : Int}
    (h : Filing l s.surroundings.cwd t₀ done s.surroundings.tree) (hslash : a.kind = .migration → '/' ∉ a.target.toList)
    (hfresh : Fresh (done.map fun e => e.1.place) a.place)
    (hcreate : ((Backend.ofKind l .filesystem).create a.kind a.target).run.run s = (.ok p, s₁))
    (hwrite : ((Backend.ofKind l .filesystem).write p a.content).run.run s₁ = (.ok size, s₂)) :
    size = a.content.toUTF8.size ∧ s₂.surroundings.cwd = s.surroundings.cwd ∧
      Filing l s.surroundings.cwd t₀ (done ++ [(a, p)]) s₂.surroundings.tree := by
  obtain ⟨r, s₃, hrun, hcwd, -, hcreates⟩ := run_createFile l a.kind a.target hslash s
  obtain ⟨rfl, rfl⟩ := Prod.mk.inj (hrun.symm.trans hcreate)
  obtain ⟨r, s₄, hrun', hcwd', hcases⟩ := run_writeFile l p a.content s₃
  obtain ⟨rfl, rfl⟩ := Prod.mk.inj (hrun'.symm.trans hwrite)
  rcases hcases with ⟨⟨f, hf⟩, -⟩ | ⟨hsize, hwrites⟩
  · cases hf
  · rw [hcwd] at hwrites hcwd'
    exact ⟨Except.ok.inj hsize, hcwd', h.step (hcreates p rfl) hwrites hfresh⟩

end Filing

/-! ### Along a delivery -/

/-- The path and the size of an artifact that has been filed. -/
def fileOf (e : Artifact × Path) : Path × Int := (e.2, e.1.content.toUTF8.size)

/-- The working directory is the same, and nothing that stood in the tree is lost. -/
structure Leads (b b' : Bench) : Prop where
  cwd : b'.cwd = b.cwd
  keeps : Keeps b.tree b'.tree

theorem Leads.trans {b₁ b₂ b₃ : Bench} (h : Leads b₁ b₂) (h' : Leads b₂ b₃) : Leads b₁ b₃ :=
  ⟨h'.cwd.trans h.cwd, h.keeps.trans h'.keeps⟩

theorem leads_of_createFile {kind : ArtifactKind} {name : String} {s s' : Scene Bench} {r : Except Fault Path}
    (hname : kind = .migration → '/' ∉ name.toList) (h : (Backend.createFile l kind name).run.run s = (r, s')) :
    Leads s.surroundings s'.surroundings := by
  obtain ⟨r, s₁, hrun, hcwd, hgrows, -⟩ := run_createFile l kind name hname s
  obtain ⟨-, rfl⟩ := Prod.mk.inj (hrun.symm.trans h)
  exact ⟨hcwd, hgrows.keeps⟩

theorem leads_of_writeFile {p : Path} {content : String} {s s' : Scene Bench} {r : Except Fault Int}
    (h : (Backend.writeFile l p content).run.run s = (r, s')) : Leads s.surroundings s'.surroundings := by
  obtain ⟨r, s₁, hrun, hcwd, hcases⟩ := run_writeFile l p content s
  obtain ⟨-, rfl⟩ := Prod.mk.inj (hrun.symm.trans h)
  rcases hcases with ⟨-, hgrows⟩ | ⟨-, hwrites⟩
  · exact ⟨hcwd, hgrows.keeps⟩
  · exact ⟨hcwd, hwrites.keeps⟩

/-- Nothing that stands in the tree is lost by a delivery, however it ends. -/
theorem leads_of_delivery {s s' : Scene Bench} {as : List Artifact} {files : List (Path × Int)} {ending : Option Fault}
    (h : Delivery (Backend.ofKind l .filesystem) s as files ending s')
    (hslash : ∀ a ∈ as, a.kind = .migration → '/' ∉ a.target.toList) : Leads s.surroundings s'.surroundings := by
  induction h with
  | finished s => exact ⟨rfl, Keeps.refl _⟩
  | notCreated hcreate => exact leads_of_createFile (hslash _ List.mem_cons_self) hcreate
  | notWritten hcreate hwrite =>
    exact (leads_of_createFile (hslash _ List.mem_cons_self) hcreate).trans (leads_of_writeFile hwrite)
  | stored hcreate hwrite hrest ih =>
    have hcreated := leads_of_createFile (hslash _ List.mem_cons_self) hcreate
    exact (hcreated.trans (leads_of_writeFile hwrite)).trans (ih fun a ha => hslash a (List.mem_cons_of_mem _ ha))

/-- A delivery of the filesystem backend files one artifact after the other.  A fault leaves at most new directories
and new empty files behind. -/
theorem filing_of_delivery {s s' : Scene Bench} {as : List Artifact} {files : List (Path × Int)} {ending : Option Fault}
    (h : Delivery (Backend.ofKind l .filesystem) s as files ending s') (done : List (Artifact × Path))
    (hslash : ∀ a ∈ as, a.kind = .migration → '/' ∉ a.target.toList)
    (hfresh : AllFresh (done.map fun e => e.1.place) (as.map Artifact.place))
    (hfiling : Filing l s.surroundings.cwd t₀ done s.surroundings.tree) :
    ∃ added t, files = added.map fileOf ∧ added.map Prod.fst <+: as ∧
      (ending = none → added.map Prod.fst = as ∧ t = s'.surroundings.tree) ∧
      Filing l s.surroundings.cwd t₀ (done ++ added) t ∧ GrowsBy Leftover t s'.surroundings.tree := by
  -- the induction is on the delivery, and `Filing` is its invariant
  induction h generalizing done with
  | finished s =>
    refine ⟨[], s.surroundings.tree, rfl, List.nil_prefix, fun _ => ⟨rfl, rfl⟩, ?_, GrowsBy.refl _ _⟩
    rw [List.append_nil]
    exact hfiling
  | @notCreated s s' a rest f hcreate =>
    obtain ⟨r, s₁, hrun, -, hgrows, -⟩ := run_createFile l a.kind a.target (hslash a List.mem_cons_self) s
    obtain ⟨rfl, rfl⟩ := Prod.mk.inj (hrun.symm.trans hcreate)
    refine ⟨[], s.surroundings.tree, rfl, List.nil_prefix, nofun, ?_, hgrows⟩
    rw [List.append_nil]
    exact hfiling
  | @notWritten s s₁ s' a rest p f hcreate hwrite =>
    obtain ⟨r, s₂, hrun, hcwd, hgrows, -⟩ := run_createFile l a.kind a.target (hslash a List.mem_cons_self) s
    obtain ⟨rfl, rfl⟩ := Prod.mk.inj (hrun.symm.trans hcreate)
    obtain ⟨r, s₃, hrun', -, hcases⟩ := run_writeFile l p a.content s₂
    obtain ⟨rfl, rfl⟩ := Prod.mk.inj (hrun'.symm.trans hwrite)
    -- a writing that fails leaves less than an artifact
    rcases hcases with ⟨-, hgrows'⟩ | ⟨hok, -⟩
    · refine ⟨[], s.surroundings.tree, rfl, List.nil_prefix, nofun, ?_,
        hgrows.trans (hgrows'.mono fun a n h => Or.inl h.1)⟩
      rw [List.append_nil]
      exact hfiling
    · cases hok
  | @stored s s₁ s₂ s' a rest p size files ending hcreate hwrite hrest ih =>
    obtain ⟨rfl, hcwd, hstep⟩ := hfiling.stored (hslash a List.mem_cons_self) hfresh.1 hcreate hwrite
    rw [← hcwd] at hstep
    obtain ⟨added, t, hfiles, hprefix, hend, hdone, hleft⟩ :=
      ih (done ++ [(a, p)]) (fun a ha => hslash a (List.mem_cons_of_mem _ ha)) (by simpa using hfresh.2) hstep
    refine ⟨(a, p) :: added, t, by rw [hfiles]; rfl, List.cons_prefix_cons.2 ⟨rfl, hprefix⟩, fun hnone => ?_, ?_, hleft⟩
    · obtain ⟨hall, ht⟩ := hend hnone
      exact ⟨by rw [List.map_cons, hall], ht⟩
    · rw [List.append_assoc, hcwd] at hdone
      exact hdone

/-! ### Along a run -/

/-- The record of an artifact that has been filed. -/
def filedRecord (l : Layout) (e : Artifact × Path) : FileRecord :=
  FileRecord.ofContent e.1.target e.1.kind (l.shown e.2) e.2 e.1.content e.1.content.toUTF8.size

theorem recordsOf_filed (l : Layout) {written : List (Artifact × Path)} {as : List Artifact}
    (h : written.map Prod.fst <+: as) :
    recordsOf (Backend.ofKind l .filesystem) as (written.map fileOf) = written.map (filedRecord l) := by
  obtain ⟨rest, rfl⟩ := h
  induction written with
  | nil => exact List.zipWith_nil_right
  | cons e written ih => exact congrArg (filedRecord l e :: ·) ih

/-- A run of the filesystem backend leaves the tree as it is when the build fails, and files artifacts of its slice
when it succeeds. -/
theorem run_generate_filesystem (g : Generator) (l : Layout) (v : View) (started : Moment) (r : Request)
    (s : Session Bench) :
    ∃ res s', (g.generate (Backend.ofKind l .filesystem) v started r).run.run s = (res, s') ∧
      ((∃ f, res = .error f ∧ s'.surroundings.tree = s.surroundings.tree) ∨
        ∃ slice written t ending, g.outcome v r = .ok slice ∧ written.map Prod.fst <+: slice.artifacts ∧
          (ending = none → written.map Prod.fst = slice.artifacts ∧ t = s'.surroundings.tree) ∧
          res = (writingOf (written.map (filedRecord l)) ending).map
            (reportOf (Backend.ofKind l .filesystem) started r slice) ∧
          Filing l s.surroundings.cwd s.surroundings.tree written t ∧ GrowsBy Leftover t s'.surroundings.tree) := by
  obtain ⟨res, s', hrun, hcases⟩ := run_generate_cases g (Backend.ofKind l .filesystem) v started r s
  rcases hcases with ⟨f, -, hf, hsame⟩ |
    ⟨slice, history, before, files, ending, after, houtcome, hcourse, hbefore, hdelivery, hafter, hres⟩
  · exact ⟨res, s', hrun, Or.inl ⟨f, hf, by rw [hsame]⟩⟩
  obtain ⟨hfresh, hslash⟩ := allFresh_artifacts hcourse
  obtain ⟨written, t, rfl, hprefix, hend, hfiling, hleft⟩ :=
    filing_of_delivery hdelivery [] hslash hfresh (Filing.start l before.surroundings.cwd before.surroundings.tree)
  rw [recordsOf_filed l hprefix] at hres
  rw [hbefore] at hfiling
  rw [hafter] at hend hleft
  exact ⟨res, s', hrun, Or.inr ⟨slice, written, t, ending, houtcome, hprefix, hend, hres, hfiling, hleft⟩⟩

/-! ### Successful runs -/

/-- The tree after a run holds every artifact in a file of its own, and besides only new directories on the way. -/
structure Holds (cwd : Location) (before after : Tree) (written : List (Artifact × Path)) : Prop where
  contents : ∀ e ∈ written, readBytes after cwd e.2 = .ok e.1.content.toUTF8
  distinct : (written.map (spot cwd)).Nodup
  others : ∀ a, a ∉ written.map (spot cwd) → after.node? a = before.node? a ∨
    before.node? a = none ∧ after.node? a = some .directory ∧ ∃ e ∈ written, e.2.Passes cwd a

theorem Filing.holds {done : List (Artifact × Path)} (h : Filing l cwd t₀ done t) : Holds cwd t₀ t done := by
  refine ⟨fun e he => ?_, h.distinct, h.around⟩
  simp only [readBytes, h.noNul e he, h.found e he, h.content e he, Bool.false_eq_true, if_false]

/-- A session on a tree, from the working directory at its top. -/
def sessionOn (t : Tree) : Session Bench :=
  ⟨[.idle], ⟨t, [], fun _ => ⟨2024, 1, 1, 0⟩, 0, fun _ _ t => (.timedOut, t), [], none, []⟩, []⟩

/-- A run that is known to have succeeded. -/
theorem exists_of_success {x : Except Fault Report × Session Bench}
    (h : (match x.1 with | .ok report => report.success | .error _ => false) = true) :
    ∃ report s', x = (.ok report, s') ∧ report.success = true := by
  obtain ⟨f | report, s'⟩ := x
  · cases h
  · exact ⟨report, s', rfl, h⟩

/-- A run that may not replace files does so in one way only.  What stood in a file is still there, or the file is the
place of an artifact whose path was not found when the run began.  In a tree in which everything stands in a directory
such a path goes back by `..`: in the directory of its kind, or in a qualifier of its name. -/
theorem generate_replaces (g : Generator) {l : Layout} (hkeep : l.settings.overwrite = false) (v : View)
    (started : Moment) (r : Request) (s : Session Bench) :
    ∃ res s' written, (g.generate (Backend.ofKind l .filesystem) v started r).run.run s = (res, s') ∧
      (written = [] ∨ ∃ slice, g.outcome v r = .ok slice ∧ written.map Prod.fst <+: slice.artifacts) ∧
      ∀ a c, s.surroundings.tree.node? a = some (.file c) →
        (s'.surroundings.tree.node? a = some (.file c) ∧ a ∉ written.map (spot s.surroundings.cwd)) ∨
        ∃ e ∈ written, spot s.surroundings.cwd e = a ∧
          s'.surroundings.tree.node? a = some (.file e.1.content.toUTF8) ∧
          (∀ at_, s.surroundings.tree.find s.surroundings.cwd e.2 ≠ .ok at_) ∧
          (s.surroundings.tree.Closed →
            ".." ∈ (l.directory e.1.kind).names ∨ "..".toList ∈ Naming.segments e.1.target.toList) := by
  obtain ⟨res, s', hrun, hcases⟩ := run_generate_filesystem g l v started r s
  rcases hcases with ⟨f, -, htree⟩ | ⟨slice, written, t, ending, houtcome, hprefix, -, -, hfiling, hleft⟩
  · refine ⟨res, s', [], hrun, Or.inl rfl, fun a c ha => Or.inl ⟨?_, List.not_mem_nil⟩⟩
    rw [htree, ha]
  refine ⟨res, s', written, hrun, Or.inr ⟨slice, houtcome, hprefix⟩, fun a c ha => ?_⟩
  -- a file at one of the places has been replaced; any other one has been left alone
  by_cases hmem : a ∈ written.map (spot s.surroundings.cwd)
  · obtain ⟨e, he, rfl⟩ := List.mem_map.1 hmem
    have hunfound := hfiling.unfound e he (Or.inr hkeep)
    refine Or.inr ⟨e, he, rfl, hleft.node (hfiling.content e he), hunfound, fun hclosed => ?_⟩
    refine hfiling.dots e he (Classical.byContradiction fun hdots => hunfound (spot s.surroundings.cwd e) ?_)
    exact find_of_closed hclosed hdots (hfiling.found e he) (by rw [ha]; rfl)
  · refine Or.inl ⟨hleft.node ?_, hmem⟩
    rcases hfiling.around a hmem with hsame | ⟨hnone, -⟩
    · rw [hsame, ha]
    · rw [ha] at hnone
      cases hnone

/-- A project whose only file is the model of posts. -/
def postTree : Tree :=
  ⟨[(["app"], .directory), (["app", "Models"], .directory), (["app", "Models", "Post.php"], .file "old".toUTF8)]⟩

theorem closed_postTree : postTree.Closed := closed_of_entries (by decide)

/-- A run for an entity whose qualifiers go past a missing directory and back. -/
theorem generate_replaces_post : topLayout.settings.overwrite = false ∧
    ∃ res s' written, (letterGenerator.generate (Backend.ofKind topLayout .filesystem) ⟨postTree, []⟩ ⟨2024, 1, 1, 0⟩
        ⟨"nope/../Post", "title:string", none⟩).run.run (sessionOn postTree) = (res, s') ∧
      (written = [] ∨ ∃ slice, letterGenerator.outcome ⟨postTree, []⟩ ⟨"nope/../Post", "title:string", none⟩ =
        .ok slice ∧ written.map Prod.fst <+: slice.artifacts) ∧
      ∀ a c, (sessionOn postTree).surroundings.tree.node? a = some (.file c) →
        (s'.surroundings.tree.node? a = some (.file c) ∧
          a ∉ written.map (spot (sessionOn postTree).surroundings.cwd)) ∨
        ∃ e ∈ written, spot (sessionOn postTree).surroundings.cwd e = a ∧
          s'.surroundings.tree.node? a = some (.file e.1.content.toUTF8) ∧
          (∀ at_, (sessionOn postTree).surroundings.tree.find (sessionOn postTree).surroundings.cwd e.2 ≠ .ok at_) ∧
          ((sessionOn postTree).surroundings.tree.Closed →
            ".." ∈ (topLayout.directory e.1.kind).names ∨ "..".toList ∈ Naming.segments e.1.target.toList) :=
  ⟨rfl, generate_replaces letterGenerator rfl ⟨postTree, []⟩ ⟨2024, 1, 1, 0⟩ ⟨"nope/../Post", "title:string", none⟩
    (sessionOn postTree)⟩

/-- Not every run that may not replace files keeps them: `nope/../Post` replaces the model of posts. -/
theorem not_generate_keeps : ¬∀ (g : Generator) (l : Layout) (v : View) (started : Moment) (r : Request)
    (s : Session Bench), l.settings.overwrite = false → s.surroundings.lastStamp = none →
      s.surroundings.tree.Closed → ∀ a c, s.surroundings.tree.node? a = some (.file c) →
        ((g.generate (Backend.ofKind l .filesystem) v started r).run.run s).2.surroundings.tree.node? a =
          some (.file c) := by
  intro h
  have hkept := h letterGenerator topLayout ⟨postTree, []⟩ ⟨2024, 1, 1, 0⟩ ⟨"nope/../Post", "title:string", none⟩
    (sessionOn postTree) rfl rfl closed_postTree ["app", "Models", "Post.php"] "old".toUTF8 rfl
  exact absurd hkept (by decide +kernel)

end CrudScaffold.Generation
