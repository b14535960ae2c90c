import CrudScaffold.Proofs.Backend.Choices
import CrudScaffold.Proofs.Files.Routes
import CrudScaffold.Proofs.Generation.Filing

/-!
# CrudScaffold.Proofs.Generation.Confinement — which files stay in the directories of their kinds

The file of a class lies where the qualifiers of its name lead from the directory of its kind
(`location_of_classPath`), and that of a migration in the migrations directory itself.  Only models have qualifiers, so
the artifacts of an entity stay in their directories exactly if the route of its qualifiers returns to the directory
of the models.

A step that creates or writes an artifact changes no file but that under its path (`stays_createFile`,
`stays_writeFile`); so along a run all changes are confined to where the paths of the artifacts may lead
(`stays_of_delivery`).
-/

namespace CrudScaffold.Generation

open CrudScaffold.Backend CrudScaffold.Calendar CrudScaffold.Files CrudScaffold.Naming CrudScaffold.Spec
open CrudScaffold.Text
open CrudScaffold.Template hiding segments

variable {l : Layout} {kind : ArtifactKind} {name : String} {p : Path}

/-! ### Where the paths lead -/

/-- The names in front of the last one. -/
def qualifiersIn (name : String) : List String := (segments name.toList).dropLast.map String.ofList

theorem child_of_isSegment (p : Path) {w : List Char} (h : IsSegment w) :
    p.child (String.ofList w) = ⟨p.anchor, p.names ++ [String.ofList w].filter (· ≠ ".")⟩ := by
  have hslash : '/' ∉ w := fun hmem => absurd (h.2 _ hmem) (by decide)
  have hempty : String.ofList w ≠ "" := fun he => h.1 (by simpa using congrArg String.toList he)
  have hhead : (String.ofList w).toList.head? ≠ some '/' := by
    rw [String.toList_ofList]
    exact fun he => hslash (List.mem_of_mem_head? he)
  have hnames : Path.namesOf (String.ofList w) = [String.ofList w].filter (· ≠ ".") := by
    rw [Path.namesOf, splitAll, String.toList_ofList, cutAll_of_notMem hslash]
    simp [List.filter_cons, hempty]
  rw [Path.child_of_relative p hhead, hnames]

theorem foldl_child {ws : List (List Char)} (h : ∀ w ∈ ws, IsSegment w) (p : Path) :
    (ws.map String.ofList).foldl Path.child p =
      ⟨p.anchor, p.names ++ (ws.map String.ofList).filter (· ≠ ".")⟩ := by
  induction ws generalizing p with
  | nil => simp
  | cons w ws ih =>
    obtain ⟨hw, hws⟩ := List.forall_mem_cons.1 h
    rw [List.map_cons, List.foldl_cons, ih hws, child_of_isSegment p hw, List.append_assoc, ← List.filter_append,
      List.singleton_append]

/-- The file of a class is an entry of the place to which the qualifiers lead from the directory of its kind. -/
theorem location_of_classPath (h : l.classPath kind name = .ok p) (cwd : Location) : ∃ n,
    p.locationFrom cwd =
      (Route.ofNames (qualifiersIn name)).lead ((l.directory kind).locationFrom cwd) ++ [n] := by
  unfold Layout.classPath at h
  simp only [List.getLast?_map] at h
  cases hlast : (segments name.toList).getLast? with
  | none =>
    rw [hlast] at h
    cases h
  | some last =>
    rw [hlast] at h
    obtain rfl := Except.ok.inj h
    -- the qualifiers lead away from the directory of the kind; the last segment names the file
    have hsegments : ∀ w ∈ (segments name.toList).dropLast, IsSegment w := fun w hw =>
      isSegment_of_mem (List.dropLast_subset _ hw)
    refine ⟨String.ofList last ++ ".php", ?_⟩
    rw [Path.locationFrom_child _ _ (isName_php (isSegment_of_mem (List.mem_of_getLast? hlast))), ← List.map_dropLast,
      foldl_child hsegments, Path.locationFrom_append, Route.walkNames_eq_lead, qualifiersIn]

/-- The path of an artifact stays in the directory of its kind exactly if the qualifiers of its name return there. -/
theorem assigned_inside_iff (h : Assigns l kind name p) (hname : kind = .migration → '/' ∉ name.toList)
    (cwd : Location) : Inside ((l.directory kind).locationFrom cwd) (p.locationFrom cwd) ↔
      (kind ≠ .migration → (Route.ofNames (qualifiersIn name)).Returns ((l.directory kind).locationFrom cwd)) := by
  unfold Assigns at h
  split at h
  · rename_i hkind
    subst hkind
    obtain ⟨m, hp⟩ := h
    rw [hp, Path.locationFrom_child _ _ (isName_migrationFile (hname rfl)), inside_concat_iff]
    exact ⟨fun _ hother => absurd rfl hother, fun _ => List.prefix_rfl⟩
  · rename_i hkind
    obtain ⟨n, hn⟩ := location_of_classPath h cwd
    rw [hn, Route.inside_lead_iff]
    exact ⟨fun hreturns _ => hreturns, fun hreturns => hreturns hkind⟩

/-! ### The names of an entity -/

theorem Derived.qualifiersIn_modelTarget {given root : String} {names : EntityNames} {qualifiers : List String}
    (h : Derived given root names qualifiers) : qualifiersIn names.modelTarget = qualifiers := by
  rw [qualifiersIn, h.segments_modelTarget, qualifier_ok h.front]

theorem Derived.qualifier_given {given root : String} {names : EntityNames} {qualifiers : List String}
    (h : Derived given root names qualifiers) : qualifier given = .ok qualifiers := by
  have htrim := require_ok h.entity
  have hne : trim given.toList ≠ [] := by
    intro hnil
    have hbase := baseName_ok h.model
    rw [htrim, hnil] at hbase
    cases hbase
  rw [qualifier, nameChars_of_ne_nil hne, qualifier_ok h.front, htrim, trim_trim]
  rfl

theorem qualifiersIn_suffixed {model suffix : String} (h : IsSegment model.toList)
    (hsuffix : suffix.toList.all (fun c => !isSeparator c) = true) : qualifiersIn (model ++ suffix) = [] := by
  rw [qualifiersIn, segments_of_suffixed h hsuffix]
  rfl

theorem qualifiersIn_of_place {given root : String} {names : EntityNames} {qualifiers : List String}
    (h : Derived given root names qualifiers) (hmodel : IsSegment names.modelName.toList) {pivots : List PivotTable}
    {a : Place} (ha : a ∈ placesOf names pivots) :
    a.1 = .migration ∨ qualifiersIn a.2 = if a.1 = .model then qualifiers else [] := by
  simp only [placesOf, List.mem_cons, List.mem_append, List.mem_map, List.not_mem_nil, or_false] at ha
  rcases ha with rfl | rfl | ⟨pivot, -, rfl⟩ | rfl | rfl | rfl
  · exact Or.inr h.qualifiersIn_modelTarget
  · exact Or.inl rfl
  · exact Or.inl rfl
  · exact Or.inr (h.controller ▸ qualifiersIn_suffixed hmodel (by decide))
  · exact Or.inr (h.storeRequest ▸ qualifiersIn_suffixed hmodel (by decide))
  · exact Or.inr (h.updateRequest ▸ qualifiersIn_suffixed hmodel (by decide))

/-! ### Files that stay -/

/-- The working directory is the same, and so are the files but for some places: elsewhere no file is new or has got
another content. -/
structure Stays (P : Location → Prop) (b b' : Bench) : Prop where
  cwd : b'.cwd = b.cwd
  files : ∀ a c, b'.tree.node? a = some (.file c) → b.tree.node? a = some (.file c) ∨ P a

variable {P : Location → Prop}

theorem Stays.refl (P : Location → Prop) (b : Bench) : Stays P b b := ⟨rfl, fun _ _ => Or.inl⟩

theorem Stays.trans {b₁ b₂ b₃ : Bench} (h : Stays P b₁ b₂) (h' : Stays P b₂ b₃) : Stays P b₁ b₃ :=
  ⟨h'.cwd.trans h.cwd, fun a c ha => (h'.files a c ha).elim (h.files a c) Or.inr⟩

/-- To create an artifact changes no file but the one under its path. -/
theorem stays_createFile {s s' : Scene Bench} {r : Except Fault Path}
    (h : (Backend.createFile l kind name).run.run s = (r, s'))
    (hP : ∀ p, Assigns l kind name p → P (p.locationFrom s.surroundings.cwd)) :
    Stays P s.surroundings s'.surroundings := by
  rw [run_createFile_eq] at h
  cases hpath : pathIn l [] s.surroundings kind name with
  | error f =>
    rw [hpath] at h
    obtain ⟨-, rfl⟩ := Prod.mk.inj h
    exact ⟨cwd_afterChoice .., fun a c ha => Or.inl (tree_afterChoice l [] s.surroundings kind ▸ ha)⟩
  | ok p =>
    rw [hpath] at h
    obtain ⟨-, rfl⟩ := Prod.mk.inj h
    refine ⟨cwd_afterChoice .., fun a c ha => ?_⟩
    -- a new entry is a directory, or the bare file of the artifact
    rcases makeBare_grows s.surroundings.tree s.surroundings.cwd p a with hsame | ⟨-, n, hn, ⟨rfl, -⟩ | ⟨-, rfl⟩⟩
    · exact Or.inl (hsame.symm.trans ha)
    · cases hn.symm.trans ha
    · exact Or.inr (hP p (assigns_of_pathIn hpath))

/-- To write an artifact changes no file but the one under its path. -/
theorem stays_writeFile {s s' : Scene Bench} {content : String} {r : Except Fault Int}
    (h : (Backend.writeFile l p content).run.run s = (r, s')) (hP : P (p.locationFrom s.surroundings.cwd)) :
    Stays P s.surroundings s'.surroundings := by
  obtain ⟨r, s₁, hrun, hcwd, hcases⟩ := run_writeFile l p content s
  obtain ⟨-, rfl⟩ := Prod.mk.inj (hrun.symm.trans h)
  refine ⟨hcwd, fun a c ha => ?_⟩
  -- what is new above the path is no file
  have hnew : ∀ {n}, s₁.surroundings.tree.node? a = some n → n = .directory → False := by
    rintro n hn rfl
    cases hn.symm.trans ha
  rcases hcases with ⟨-, hgrows⟩ | ⟨-, hwrites⟩
  · rcases hgrows a with hsame | ⟨-, n, hn, hdirectory, -⟩
    · exact Or.inl (hsame.symm.trans ha)
    · exact (hnew hn hdirectory).elim
  · by_cases hat : a = p.locationFrom s.surroundings.cwd
    · exact Or.inr (hat ▸ hP)
    rcases hwrites.around a hat with hsame | ⟨-, n, hn, hdirectory, -⟩
    · exact Or.inl (hsame.symm.trans ha)
    · exact (hnew hn hdirectory).elim

/-- A delivery changes no files but those under the paths of its artifacts. -/
theorem stays_of_delivery {s s' : Scene Bench} {as : List Artifact} {files : List (Path × Int)} {ending : Option Fault}
    (h : Delivery (Backend.ofKind l .filesystem) s as files ending s')
    (hP : ∀ a ∈ as, ∀ p, Assigns l a.kind a.target p → P (p.locationFrom s.surroundings.cwd)) :
    Stays P s.surroundings s'.surroundings := by
  -- each artifact adds files only where its path may lead
  induction h with
  | finished s => exact .refl P _
  | notCreated hcreate => exact stays_createFile hcreate (hP _ List.mem_cons_self)
  | notWritten hcreate hwrite =>
    have hcreated := stays_createFile hcreate (hP _ List.mem_cons_self)
    have hpath := hP _ List.mem_cons_self _ (assigns_of_pathIn (createFile_ok hcreate).1)
    exact hcreated.trans (stays_writeFile hwrite (hcreated.cwd ▸ hpath))
  | stored hcreate hwrite hrest ih =>
    have hcreated := stays_createFile hcreate (hP _ List.mem_cons_self)
    have hpath := hP _ List.mem_cons_self _ (assigns_of_pathIn (createFile_ok hcreate).1)
    have hstored := hcreated.trans (stays_writeFile hwrite (hcreated.cwd ▸ hpath))
    refine hstored.trans (ih fun a ha p hp => ?_)
    rw [hstored.cwd]
    exact hP a (List.mem_cons_of_mem _ ha) p hp

/-! ### Whole runs -/

/-- What is built for an entity has paths in the directories of their kinds exactly as far as the qualifiers return. -/
theorem assigned_artifact_iff {g : Generator} {v : View} {r : Request} {slice : Slice} {history : List Phase}
    (h : Course g v r (.ok slice) history) : ∃ qualifiers, qualifier r.entity = .ok qualifiers ∧
      ∀ a ∈ slice.artifacts, ∀ p, Assigns l a.kind a.target p → ∀ cwd,
        (Inside ((l.directory a.kind).locationFrom cwd) (p.locationFrom cwd) ↔
          (a.kind = .model → (Route.ofNames qualifiers).Returns ((l.directory .model).locationFrom cwd))) := by
  obtain ⟨names, hnames, hplaces⟩ := places_of_course h
  obtain ⟨qualifiers, hderived⟩ := ofEntity_ok hnames
  refine ⟨qualifiers, hderived.qualifier_given, fun a ha p hp cwd => ?_⟩
  rw [assigned_inside_iff hp ((allFresh_artifacts h).2 a ha) cwd]
  have hplace : a.place ∈ placesOf names slice.pivots := hplaces ▸ List.mem_map_of_mem ha
  -- only the model takes the qualifiers of the entity along
  rcases qualifiersIn_of_place hderived (named_of_ofEntity hnames).model hplace with hkind | hqualifiers
  · have hkind : a.kind = .migration := hkind
    simp [hkind]
  have hqualifiers : qualifiersIn a.target = if a.kind = .model then qualifiers else [] := hqualifiers
  rw [hqualifiers]
  by_cases hkind : a.kind = .model
  · simp [hkind]
  · have hnone : ".." ∉ ([] : List String) := List.not_mem_nil
    simp [hkind, Route.returns_of_notMem hnone]

/-- **The artifacts of an entity stay in the directories of their kinds exactly if its qualifiers return there.**  For
all settings, templates and trees: the path that the filesystem backend gives to an artifact lies inside the directory
of its kind, unless it is a model whose qualifiers lead out of the directory and not back by the names that they have
left.  If they return, a run changes no file and makes none but inside these directories, however it ends.  Qualifiers
without `..` always return. -/
theorem artifacts_inside_iff {g : Generator} {v : View} {r : Request} {slice : Slice}
    (hbuild : g.outcome v r = .ok slice) (l : Layout) : ∃ qualifiers, qualifier r.entity = .ok qualifiers ∧
      (∀ a ∈ slice.artifacts, ∀ s p s',
        ((Backend.ofKind l .filesystem).create a.kind a.target).run.run s = (.ok p, s') → ∀ cwd,
          (Inside ((l.directory a.kind).locationFrom cwd) (p.locationFrom cwd) ↔
            (a.kind = .model → (Route.ofNames qualifiers).Returns ((l.directory .model).locationFrom cwd)))) ∧
      (∀ started s, (Route.ofNames qualifiers).Returns ((l.directory .model).locationFrom s.surroundings.cwd) →
        ∀ at_ c, ((g.generate (Backend.ofKind l .filesystem) v started r).run.run s).2.surroundings.tree.node? at_ =
            some (.file c) → s.surroundings.tree.node? at_ = some (.file c) ∨
          ∃ a ∈ slice.artifacts, Inside ((l.directory a.kind).locationFrom s.surroundings.cwd) at_) ∧
      (".." ∉ qualifiers → ∀ d, (Route.ofNames qualifiers).Returns d) := by
  obtain ⟨history, added, hcourse, -⟩ := run_build g v r
  rw [hbuild] at hcourse
  obtain ⟨qualifiers, hqualifiers, hinside⟩ := assigned_artifact_iff (l := l) hcourse
  refine ⟨qualifiers, hqualifiers, fun a ha s p s' hcreate cwd => ?_, fun started s hreturns at_ c hfile => ?_,
    Route.returns_of_notMem⟩
  · -- the path of a file that has been made is the one it is assigned
    exact hinside a ha p (assigns_of_pathIn (createFile_ok hcreate).1) cwd
  obtain ⟨res, s', hrun, hcases⟩ := run_generate_cases g (Backend.ofKind l .filesystem) v started r s
  rw [hrun] at hfile
  rcases hcases with ⟨f, -, -, hsame⟩ |
    ⟨slice', history', before, files, ending, after, houtcome, -, hbefore, hdelivery, hafter, -⟩
  · rw [hsame] at hfile
    exact Or.inl hfile
  obtain rfl := Except.ok.inj (hbuild.symm.trans houtcome)
  -- the files of the whole delivery stay where the paths stay
  have hstays := stays_of_delivery (P := fun at_ => ∃ a ∈ slice.artifacts,
    Inside ((l.directory a.kind).locationFrom before.surroundings.cwd) at_) hdelivery
    fun a ha p hp => ⟨a, ha, (hinside a ha p hp _).2 fun _ => hbefore ▸ hreturns⟩
  rw [hbefore, hafter] at hstays
  exact hstays.files at_ c hfile

/-- The artifacts of a qualified name whose qualifiers lead down only. -/
theorem artifacts_inside_iff_admin : ∃ slice,
    letterGenerator.outcome ⟨.empty, []⟩ ⟨"Admin/Post", "title:string", none⟩ = .ok slice ∧
    ∀ a ∈ slice.artifacts, ∀ s p s',
      ((Backend.ofKind topLayout .filesystem).create a.kind a.target).run.run s = (.ok p, s') → ∀ cwd,
        Inside ((topLayout.directory a.kind).locationFrom cwd) (p.locationFrom cwd) := by
  obtain ⟨slice, hbuild⟩ := exists_of_isOk
    (x := letterGenerator.outcome ⟨.empty, []⟩ ⟨"Admin/Post", "title:string", none⟩) (by decide +kernel)
  obtain ⟨qualifiers, hqualifiers, hinside, -, hdown⟩ := artifacts_inside_iff hbuild topLayout
  have hadmin : qualifier "Admin/Post" = .ok ["Admin"] := by decide
  obtain rfl := Except.ok.inj (hadmin.symm.trans hqualifiers)
  exact ⟨slice, hbuild, fun a ha s p s' hcreate cwd =>
    (hinside a ha s p s' hcreate cwd).2 fun _ => hdown (by decide) _⟩

/-- Not all artifacts stay: the model of `../Post` goes to the directory above that of the models. -/
theorem not_artifacts_inside : ¬∀ (g : Generator) (l : Layout) (v : View) (r : Request) (slice : Slice),
    g.outcome v r = .ok slice → ∀ a ∈ slice.artifacts, ∀ s p s',
      ((Backend.ofKind l .filesystem).create a.kind a.target).run.run s = (.ok p, s') →
        Inside ((l.directory a.kind).locationFrom s.surroundings.cwd) (p.locationFrom s.surroundings.cwd) := by
  intro h
  obtain ⟨slice, hbuild⟩ := exists_of_isOk
    (x := letterGenerator.outcome ⟨.empty, []⟩ ⟨"../Post", "title:string", none⟩) (by decide +kernel)
  have hplaces : (letterGenerator.outcome ⟨.empty, []⟩ ⟨"../Post", "title:string", none⟩).map
      (fun slice => slice.artifacts.head?.map Artifact.place) = .ok (some (.model, "../Post")) := by decide +kernel
  rw [hbuild] at hplaces
  obtain ⟨a, hhead, hplace⟩ := Option.map_eq_some_iff.1 (Except.ok.inj hplaces)
  obtain ⟨hkind, htarget⟩ := Prod.mk.inj hplace
  have hkind : a.kind = .model := hkind
  have htarget : a.target = "../Post" := htarget
  have hpath : ((Backend.createFile topLayout .model "../Post").run.run ⟨(sessionOn .empty).surroundings, []⟩).1 =
      .ok ⟨.top, ["app", "Models", "..", "Post.php"]⟩ := by decide +kernel
  rcases hrun : (Backend.createFile topLayout .model "../Post").run.run ⟨(sessionOn .empty).surroundings, []⟩ with
    ⟨path, s'⟩
  rw [hrun] at hpath
  obtain rfl : path = _ := hpath
  have hcreate : ((Backend.ofKind topLayout .filesystem).create a.kind a.target).run.run
      ⟨(sessionOn .empty).surroundings, []⟩ = (.ok ⟨.top, ["app", "Models", "..", "Post.php"]⟩, s') := by
    rw [hkind, htarget]
    exact hrun
  have hinside := h letterGenerator topLayout _ _ slice hbuild a (List.mem_of_mem_head? hhead) _ _ _ hcreate
  rw [hkind] at hinside
  have houtside : ¬Inside ((topLayout.directory .model).locationFrom [])
      (Path.locationFrom [] ⟨.top, ["app", "Models", "..", "Post.php"]⟩) := by decide
  exact houtside hinside

end CrudScaffold.Generation
