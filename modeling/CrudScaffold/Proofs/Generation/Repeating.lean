import CrudScaffold.Proofs.Backend.Restoring
import CrudScaffold.Proofs.Generation.Failing
import CrudScaffold.Proofs.Generation.Foresight
import CrudScaffold.Proofs.Generation.Ordering
import CrudScaffold.Proofs.Generation.Sessions
import CrudScaffold.Proofs.Template.Stability

/-!
# CrudScaffold.Proofs.Generation.Repeating — running twice

A second run meets the files of the first one.  They are no templates, so it builds the same slice
(`Filing.undisturbed`).  If files may not be replaced, it stops at the model and leaves the tree as it is
(`generate_refused`).  If they may, every artifact can be stored again, and only the end of the calendar can stop the
run (`ending_again`): the classes take their old paths, and each migration takes a new place (`repeats_of_filing`).
-/

namespace CrudScaffold.Generation

open CrudScaffold.Backend CrudScaffold.Calendar CrudScaffold.Files CrudScaffold.Spec CrudScaffold.Text
open CrudScaffold.Files.Tree
open CrudScaffold.Template hiding segments

variable {l : Layout} {cwd : Location} {t₀ t t' : Tree} {done first second : List (Artifact × Path)}

/-! ### The build of the second run -/

theorem php_of_fileName {kind : ArtifactKind} {target n : String} (h : FileName kind target n) :
    ".php".toList <:+ n.toList := by
  unfold FileName at h
  split at h
  · obtain ⟨m, rfl⟩ := h
    rw [toList_migrationFile]
    exact ⟨m.stamp.toList ++ '_' :: target.toList, by simp⟩
  · obtain ⟨last, -, rfl⟩ := h
    rw [String.toList_append]
    exact List.suffix_append _ _

theorem not_isStub {n : String} (h : ".php".toList <:+ n.toList) : ¬IsStub n := by
  rintro ⟨-, back, hback⟩
  obtain ⟨front, hfront⟩ := h
  have hlast := congrArg List.getLast? (hfront.trans hback.symm)
  have hphp : ".php".toList.getLast? = some 'p' := rfl
  have hstub : ".stub".toList.getLast? = some 'b' := rfl
  rw [List.getLast?_append, List.getLast?_append, hphp, hstub, Option.some_or, Option.some_or] at hlast
  exact absurd hlast (by decide)

/-- Filed artifacts leave the templates alone. -/
theorem Filing.undisturbed (h : Filing l cwd t₀ done t) : Undisturbed ⟨t₀, cwd⟩ ⟨t, cwd⟩ where
  cwd := rfl
  keeps := h.keeps
  stubs a n hn := by
    have hplace : a ++ [n] ∉ done.map (spot cwd) := by
      intro hmem
      obtain ⟨e, he, hspot⟩ := List.mem_map.1 hmem
      obtain ⟨k, hk, hdots, hfile⟩ := h.named e he
      rw [spot, Path.locationFrom_concat hk hdots] at hspot
      obtain rfl : k = n := by simpa using (List.append_inj' hspot rfl).2
      exact not_isStub (php_of_fileName hfile) hn
    exact (h.around _ hplace).imp_right fun hmade => And.intro hmade.1 hmade.2.1

theorem outcome_again {g : Generator} {settings : Settings} (h : Filing l cwd t₀ done t)
    (hstore : Store.ofSettings ⟨t₀, cwd⟩ settings = .ok g.renderer.store) (r : Request) :
    g.outcome ⟨t, cwd⟩ r = g.outcome ⟨t₀, cwd⟩ r :=
  outcome_of_get (get_undisturbed h.undisturbed hstore) r

/-! ### What a delivery tells of its artifacts -/

theorem assigns_of_delivery {s s' : Scene Bench} {as : List Artifact} {files : List (Path × Int)}
    {ending : Option Fault} (h : Delivery (Backend.ofKind l .filesystem) s as files ending s')
    (hending : ending = none) : List.Forall₂ (fun a f => Assigns l a.kind a.target f.1) as files := by
  induction h with
  | finished s => exact .nil
  | notCreated hcreate => cases hending
  | notWritten hcreate hwrite => cases hending
  | stored hcreate hwrite hrest ih => exact .cons (assigns_of_pathIn (createFile_ok hcreate).1) (ih hending)

/-- Whatever gets through can be stored again in the end, if the stamps have the usual width. -/
theorem restorable_of_delivery {s s' : Scene Bench} {as : List Artifact} {files : List (Path × Int)}
    {ending : Option Fault} (h : Delivery (Backend.ofKind l .filesystem) s as files ending s')
    (hending : ending = none) (hs : Timely s.surroundings)
    (hslash : ∀ a ∈ as, a.kind = .migration → '/' ∉ a.target.toList) : Timely s'.surroundings ∧
      List.Forall₂ (fun a f => Restorable l s.surroundings.cwd s'.surroundings.tree a.kind a.target f.1) as files := by
  induction h with
  | finished s => exact ⟨hs, .nil⟩
  | notCreated hcreate => cases hending
  | notWritten hcreate hwrite => cases hending
  | @stored s s₁ s₂ s' a rest p size files ending hcreate hwrite hrest ih =>
    have hrest' : ∀ a ∈ rest, a.kind = .migration → '/' ∉ a.target.toList :=
      fun a ha => hslash a (List.mem_cons_of_mem _ ha)
    have hfirst := leads_of_createFile (hslash a List.mem_cons_self) hcreate
    have hcwd := (hfirst.trans (leads_of_writeFile hwrite)).cwd
    obtain ⟨hs', hall⟩ := ih hending (timely_of_writeFile (timely_of_createFile hs hcreate) hwrite) hrest'
    rw [hcwd] at hall
    exact ⟨hs', .cons ((restorable_of_stored hs hcreate hwrite).keeps (leads_of_delivery hrest hrest').keeps) hall⟩

/-- The latest stamp is the one that the backend began with, or that of a migration which has got through. -/
theorem lastStamp_of_delivery {s s' : Scene Bench} {as : List Artifact} {files : List (Path × Int)}
    {ending : Option Fault} (h : Delivery (Backend.ofKind l .filesystem) s as files ending s')
    (hending : ending = none) : s'.surroundings.lastStamp = s.surroundings.lastStamp ∨
      ∃ e ∈ as.zip files, e.1.kind = .migration ∧ ∃ m, s'.surroundings.lastStamp = some m ∧
        e.2.1 = (l.directory .migration).child (migrationFile m e.1.target) := by
  -- the last migration that has been made sets the last stamp
  induction h with
  | finished s => exact Or.inl rfl
  | notCreated hcreate => cases hending
  | notWritten hcreate hwrite => cases hending
  | @stored s s₁ s₂ s' a rest p size files ending hcreate hwrite hrest ih =>
    -- nothing after it has changed the last stamp, or an artifact after it has set it
    rcases ih hending with hsame | ⟨e, he, hkind, hlast⟩
    swap
    · exact Or.inr ⟨e, List.mem_cons_of_mem _ he, hkind, hlast⟩
    obtain ⟨hpath, -, -⟩ := createFile_ok hcreate
    rw [hsame, lastStamp_of_stored hcreate hwrite]
    unfold afterChoice
    by_cases hkind : a.kind = .migration
    · obtain ⟨m, hm, hp⟩ := momentIn_of_pathIn hkind hpath
      rw [if_pos hkind, hm]
      exact Or.inr ⟨_, List.mem_cons_self, hkind, m, rfl, hp⟩
    · rw [if_neg hkind]
      exact Or.inl rfl

theorem forall_filed {P : Artifact → Path → Prop}
    (h : List.Forall₂ (fun a f => P a f.1) (done.map Prod.fst) (done.map fileOf)) : ∀ e ∈ done, P e.1 e.2 := by
  rw [List.forall₂_map_left_iff, List.forall₂_map_right_iff, List.forall₂_same] at h
  exact h

/-! ### Without the permission to replace files -/

/-- A run whose first artifact is a class that is there is refused, and leaves the tree as it is. -/
theorem generate_refused {g : Generator} {v : View} {r : Request} {slice : Slice} {a : Artifact}
    {rest : List Artifact} {p : Path} {x : Location} {d : Session Bench} (hbuild : g.outcome v r = .ok slice)
    (hsplit : slice.artifacts = a :: rest) (hkind : a.kind ≠ .migration) (hkeep : l.settings.overwrite = false)
    (hclass : l.classPath a.kind a.target = .ok p) (hnul : p.hasNul = false)
    (hfind : d.surroundings.tree.find d.surroundings.cwd p = .ok x) (started : Moment) : ∃ report d',
    (g.generate (Backend.ofKind l .filesystem) v started r).run.run d = (.ok report, d') ∧
      report.success = false ∧ report.manifest.map (·.files) = some [] ∧
      d'.surroundings.tree = d.surroundings.tree := by
  obtain ⟨history, added, -, hgenerate⟩ := run_generate_of_delivery hbuild
  have hcreate : ((Backend.ofKind l .filesystem).create a.kind a.target).run.run
      ⟨d.surroundings, d.journal ++ added⟩ = _ := run_createFile_eq l a.kind a.target _
  rw [pathIn, if_neg hkind, classIn_of_find hclass hnul hfind, if_neg (by simp [hkeep])] at hcreate
  have hdelivery : Delivery (Backend.ofKind l .filesystem) _ (a :: rest) [] _ _ := .notCreated hcreate
  rw [← hsplit] at hdelivery
  refine ⟨_, _, hgenerate started hdelivery, rfl, ?_, tree_afterChoice ..⟩
  rw [recordsOf, List.zipWith_nil_right]
  rfl

/-! ### With the permission to replace files -/

/-- The calendar is used up: an entry of the migrations directory begins with the stamp of its last moment. -/
def UsedUp (l : Layout) (cwd : Location) (t : Tree) : Prop :=
  ∃ n, beginsWith Moment.last.stamp n = true ∧ (t.node? (entryAt l cwd n)).isSome

/-- A backend that has just been made finds the calendar at its end only when it is used up. -/
theorem usedUp_of_momentIn {s s' : Scene Bench} {files : List (Path × Int)}
    (hdelivery : Delivery (Backend.ofKind l .filesystem) s (done.map Prod.fst) files none s')
    (hfiles : files = done.map fileOf) (hfiling : Filing l s'.surroundings.cwd t₀ done s'.surroundings.tree)
    (hslash : ∀ a ∈ done.map Prod.fst, a.kind = .migration → '/' ∉ a.target.toList)
    (hnew : s.surroundings.lastStamp = none) (hs' : Timely s'.surroundings)
    (hlisted : s'.surroundings.tree.find s'.surroundings.cwd (l.directory .migration) =
      .ok ((l.directory .migration).locationFrom s'.surroundings.cwd))
    (h : momentIn l s'.surroundings [] = .error (.crash .endOfCalendar)) :
    UsedUp l s'.surroundings.cwd s'.surroundings.tree := by
  rcases last_of_momentIn hs' h with hlast | ⟨names, hnames, n, hn, hbegins⟩
  · rcases lastStamp_of_delivery hdelivery rfl with hsame | ⟨e, he, hkind, m, hm, hpath⟩
    · rw [hsame, hnew] at hlast
      cases hlast
    obtain rfl := Option.some.inj (hm.symm.trans hlast)
    rw [hfiles, List.zip_map'] at he
    obtain ⟨x, hx, rfl⟩ := List.mem_map.1 he
    have hname := isName_migrationFile (m := .last) (hslash _ (List.mem_map_of_mem hx) hkind)
    have hcontent := hfiling.content x hx
    rw [spot, show x.2 = _ from hpath, Path.locationFrom_child _ _ hname] at hcontent
    exact ⟨_, beginsWith_migrationFile _ _, by rw [entryAt, hcontent]; rfl⟩
  · exact ⟨n, hbegins, (mem_names_iff hnames hlisted).1 hn⟩

/-- A delivery of artifacts that can all be stored again gets through, or it comes to the end of the calendar. -/
theorem ending_again (hover : l.settings.overwrite = true) {s s' : Scene Bench} {as : List Artifact}
    {files : List (Path × Int)} {ending : Option Fault}
    (h : Delivery (Backend.ofKind l .filesystem) s as files ending s') (hs : Timely s.surroundings)
    (hnew : s.surroundings.lastStamp = none) (hslash : ∀ a ∈ as, a.kind = .migration → '/' ∉ a.target.toList)
    (hfresh : AllFresh [] (as.map Artifact.place))
    (hagain : ∀ a ∈ as, ∃ p content, Restorable l s.surroundings.cwd s.surroundings.tree a.kind a.target p ∧
      s.surroundings.tree.node? (p.locationFrom s.surroundings.cwd) = some (.file content)) :
    ending = none ∨ ending = some (.crash .endOfCalendar) ∧ UsedUp l s.surroundings.cwd s'.surroundings.tree := by
  -- where it breaks off, the artifact has been stored in the first run and can be stored again
  rcases ending with _ | f
  · exact Or.inl rfl
  obtain ⟨before, a, rest, s₁, rfl, hbefore, hfails⟩ := delivery_some_iff.1 h
  have hslash' : ∀ a ∈ before, a.kind = .migration → '/' ∉ a.target.toList :=
    fun a ha => hslash a (List.mem_append_left _ ha)
  have hmem : a ∈ before ++ a :: rest := List.mem_append_right _ List.mem_cons_self
  rw [List.map_append] at hfresh
  obtain ⟨written, t, hfiles, -, hend, hfiling, -⟩ :=
    filing_of_delivery hbefore [] hslash' hfresh.left (Filing.start l s.surroundings.cwd s.surroundings.tree)
  obtain ⟨rfl, rfl⟩ := hend rfl
  rw [List.nil_append, ← (leads_of_delivery hbefore hslash').cwd] at hfiling
  obtain ⟨p, content, hrestorable, hnode⟩ := hagain a hmem
  rw [← (leads_of_delivery hbefore hslash').cwd] at hrestorable hnode
  -- what was a file in the first run is no directory now
  have hfile : s₁.surroundings.tree.isDirectoryAt (p.locationFrom s₁.surroundings.cwd) = false := by
    obtain ⟨n, hn, hkind⟩ := hfiling.retains _ _ hnode
    have hne : n ≠ .directory := by simpa using hkind
    simp [isDirectoryAt, hn, hne]
  have hs₁ := (restorable_of_delivery hbefore rfl hs hslash').1
  have hrestorable := hrestorable.keeps hfiling.keeps
  -- making it again fails at the end of the calendar only, and writing it never does
  cases hfails with
  | creating hcreate =>
    rcases createFile_again hrestorable hover (hslash a hmem) hs₁ hfile hcreate with
      ⟨hkind, hmoment, hf, htree⟩ | ⟨q, hq, -⟩
    · rw [hkind] at hrestorable
      have hlisted := (hrestorable.listed (hslash a hmem hkind)).2.1
      have hused := usedUp_of_momentIn hbefore hfiles hfiling hslash' hnew hs₁ hlisted hmoment
      rw [(leads_of_delivery hbefore hslash').cwd] at hused
      exact Or.inr ⟨congrArg some (Except.error.inj hf), htree ▸ hused⟩
    · cases hq
  | writing hcreate hwrite =>
    rcases createFile_again hrestorable hover (hslash a hmem) hs₁ hfile hcreate with ⟨-, -, hf, -⟩ | ⟨q, hq, hwritten⟩
    · cases hf
    · obtain rfl := Except.ok.inj hq
      have hboth := (hwritten a.content).symm.trans (congrArg Prod.fst hwrite)
      cases hboth

/-- The migrations among the artifacts that have been filed. -/
def filedMigrations (es : List (Artifact × Path)) : List (Artifact × Path) := es.filter fun e => e.1.kind = .migration

/-- What a second run does to the tree that the first one has left: the classes stay under their paths, each migration
is filed anew in a place of its own, and whatever stands elsewhere stays as it is. -/
structure Repeats (l : Layout) (cwd : Location) (before after : Tree) (first second : List (Artifact × Path)) :
    Prop where
  classes : ∀ e ∈ second, e.1.kind ≠ .migration → e ∈ first
  /-- Every file of the first run is there as it was. -/
  kept : ∀ e ∈ first, before.node? (spot cwd e) = some (.file e.1.content.toUTF8) ∧
    after.node? (spot cwd e) = some (.file e.1.content.toUTF8)
  added : ∀ e ∈ filedMigrations second,
    (∃ m : Moment, m.Stampable ∧ e.2 = (l.directory .migration).child (migrationFile m e.1.target)) ∧
      before.node? (spot cwd e) = none ∧ after.node? (spot cwd e) = some (.file e.1.content.toUTF8)
  distinct : ((filedMigrations second).map (spot cwd)).Nodup
  /-- Away from the new migrations, nothing has changed. -/
  others : ∀ a, a ∉ (filedMigrations second).map (spot cwd) → after.node? a = before.node? a

theorem repeats_of_filing (h : Filing l cwd t₀ first t) (h' : Filing l cwd t second t')
    (hfirst : ∀ e ∈ first, Restorable l cwd t e.1.kind e.1.target e.2)
    (hsecond : ∀ e ∈ second, Restorable l cwd t' e.1.kind e.1.target e.2)
    (hsame : second.map Prod.fst = first.map Prod.fst)
    (hslash : ∀ e ∈ first, e.1.kind = .migration → '/' ∉ e.1.target.toList) : Repeats l cwd t t' first second := by
  have hbefore : ∀ e ∈ second, ∃ x ∈ first, x.1 = e.1 := fun e he =>
    List.mem_map.1 (hsame ▸ List.mem_map_of_mem he)
  -- a class has one path only
  have hclasses : ∀ e ∈ second, e.1.kind ≠ .migration → e ∈ first := by
    intro e he hkind
    obtain ⟨x, hx, hartifact⟩ := hbefore e he
    have hpath := (hfirst x hx).ofClass (hartifact ▸ hkind)
    rw [hartifact, (hsecond e he).ofClass hkind] at hpath
    rwa [show x = e from Prod.ext hartifact (Except.ok.inj hpath).symm] at hx
  -- where the second run has written, the first one could have written
  have hwritable : ∀ e ∈ second, Writable t cwd e.2 := by
    intro e he
    by_cases hkind : e.1.kind = .migration
    · obtain ⟨x, hx, hartifact⟩ := hbefore e he
      obtain ⟨m, hm, hpath⟩ := (hsecond e he).dated hkind
      have hold := hfirst x hx
      rw [hartifact, hkind] at hold
      rw [hpath]
      exact hold.redated (hartifact ▸ hslash x hx (hartifact ▸ hkind)) hm
    · exact (hfirst e (hclasses e he hkind)).writable
  -- migrations get names under which nothing was found
  have hvacant : ∀ e ∈ second, e.1.kind = .migration → t.node? (spot cwd e) = none := by
    intro e he hkind
    refine Option.not_isSome_iff_eq_none.1 fun hthere => ?_
    exact h'.unfound e he (Or.inl hkind) _ (find_of_slot (hwritable e he).slot hthere)
  have hmigrations : ∀ e ∈ filedMigrations second, e ∈ second ∧ e.1.kind = .migration := fun e he => by
    simpa [filedMigrations] using he
  -- around the new migrations nothing changes: classes have the texts they had
  have hothers : ∀ a, a ∉ (filedMigrations second).map (spot cwd) → t'.node? a = t.node? a := by
    intro a ha
    by_cases hmem : a ∈ second.map (spot cwd)
    · obtain ⟨e, he, rfl⟩ := List.mem_map.1 hmem
      have hkind : e.1.kind ≠ .migration := fun hkind =>
        ha (List.mem_map_of_mem (List.mem_filter.2 ⟨he, by simpa using hkind⟩))
      rw [h'.content e he, h.content e (hclasses e he hkind)]
    · rcases h'.around a hmem with hsame | ⟨hnone, -, e, he, hpasses⟩
      · exact hsame
      rcases passes_cases hpasses with rfl | hpasses
      · exact absurd (List.mem_map_of_mem he) hmem
      · have hdir := isDirectoryAt_of_passes (hwritable e he).above (hwritable e he).directory hpasses
        simp [isDirectoryAt, hnone] at hdir
  refine ⟨hclasses, fun e he => ⟨h.content e he, ?_⟩, fun e he => ?_, ?_, hothers⟩
  · -- the classes keep their texts
    rw [hothers, h.content e he]
    intro hmem
    obtain ⟨x, hx, hspot⟩ := List.mem_map.1 hmem
    have hnone := hvacant x (hmigrations x hx).1 (hmigrations x hx).2
    rw [hspot, h.content e he] at hnone
    cases hnone
  · obtain ⟨he, hkind⟩ := hmigrations e he
    exact ⟨(hsecond e he).dated hkind, hvacant e he hkind, h'.content e he⟩
  · exact h'.distinct.sublist (List.filter_sublist.map _)

/-! ### Two runs -/

theorem filed_of_success {g : Generator} {v : View} {started : Moment} {r : Request} {s s' : Session Bench}
    {report : Report} (hrun : (g.generate (Backend.ofKind l .filesystem) v started r).run.run s = (.ok report, s'))
    (hsuccess : report.success = true) : ∃ slice history written before after, g.outcome v r = .ok slice ∧
      Course g v r (.ok slice) history ∧ before.surroundings = s.surroundings ∧
      after.surroundings = s'.surroundings ∧ written.map Prod.fst = slice.artifacts ∧
      Delivery (Backend.ofKind l .filesystem) before slice.artifacts (written.map fileOf) none after ∧
      report.manifest.map (·.files) = some (written.map (filedRecord l)) ∧
      Filing l s.surroundings.cwd s.surroundings.tree written s'.surroundings.tree := by
  obtain ⟨slice, history, before, files, after, houtcome, hcourse, hbefore, hdelivery, hmanifest, hafter⟩ :=
    delivery_of_success hrun hsuccess
  obtain ⟨hfresh, hslash⟩ := allFresh_artifacts hcourse
  obtain ⟨written, t, rfl, hprefix, hend, hfiling, -⟩ := filing_of_delivery hdelivery [] hslash hfresh
    (Filing.start l before.surroundings.cwd before.surroundings.tree)
  obtain ⟨hall, rfl⟩ := hend rfl
  rw [recordsOf_filed l hprefix] at hmanifest
  rw [List.nil_append, hbefore, hafter] at hfiling
  exact ⟨slice, history, written, before, after, houtcome, hcourse, hbefore, hafter, hall, hdelivery, hmanifest,
    hfiling⟩

theorem targets_of_filed {names : EntityNames} {pivots : List PivotTable} {as : List Artifact}
    (hall : done.map Prod.fst = as) (hplaces : as.map Artifact.place = placesOf names pivots) :
    (filedMigrations done).map (·.1.target) = names.migrationName :: pivots.map PivotTable.migrationName := by
  have hmap : (filedMigrations done).map (·.1.target) =
      ((as.map Artifact.place).filter fun p => p.1 = .migration).map Prod.snd := by
    rw [← hall, List.map_map, List.filter_map, List.map_map]
    rfl
  rw [hmap, hplaces]
  simp [placesOf, List.filter_map, Function.comp_def]

/-- A second run that may replace files, on what the first one has left: it comes to the end of the calendar, or it
succeeds and repeats the first one. -/
theorem generate_repeats {g : Generator} {v : View} {r : Request} {slice : Slice} {d : Session Bench}
    (hbuild : g.outcome v r = .ok slice) (hover : l.settings.overwrite = true)
    (hfiling : Filing l d.surroundings.cwd t₀ first d.surroundings.tree)
    (hall : first.map Prod.fst = slice.artifacts)
    (hagain : ∀ e ∈ first, Restorable l d.surroundings.cwd d.surroundings.tree e.1.kind e.1.target e.2)
    (hd : Timely d.surroundings) (hnew : d.surroundings.lastStamp = none) (started : Moment) : ∃ res d',
    (g.generate (Backend.ofKind l .filesystem) v started r).run.run d = (res, d') ∧
      ((res = .error (.crash .endOfCalendar) ∧ UsedUp l d.surroundings.cwd d'.surroundings.tree) ∨
        ∃ report second, res = .ok report ∧ report.success = true ∧ second.map Prod.fst = slice.artifacts ∧
          report.manifest.map (·.files) = some (second.map (filedRecord l)) ∧
          Repeats l d.surroundings.cwd d.surroundings.tree d'.surroundings.tree first second) := by
  obtain ⟨history, added, hcourse, hgenerate⟩ := run_generate_of_delivery hbuild
  obtain ⟨hfresh, hslash⟩ := allFresh_artifacts hcourse
  obtain ⟨files, ending, scene, hdelivery⟩ := exists_delivery (Backend.ofKind l .filesystem) slice.artifacts
    ⟨d.surroundings, d.journal ++ added⟩
  -- everything that was stored can be stored again
  have hstored : ∀ a ∈ slice.artifacts, ∃ p content,
      Restorable l d.surroundings.cwd d.surroundings.tree a.kind a.target p ∧
        d.surroundings.tree.node? (p.locationFrom d.surroundings.cwd) = some (.file content) := by
    intro a ha
    rw [← hall] at ha
    obtain ⟨e, he, rfl⟩ := List.mem_map.1 ha
    exact ⟨e.2, _, hagain e he, hfiling.content e he⟩
  refine ⟨_, _, hgenerate started hdelivery, ?_⟩
  -- the second run goes through, or the calendar has ended
  rcases ending_again hover hdelivery hd hnew hslash hfresh hstored with rfl | ⟨rfl, hused⟩
  · obtain ⟨second, t', rfl, hprefix, hend, hfiling', -⟩ :=
      filing_of_delivery hdelivery [] hslash hfresh (Filing.start l d.surroundings.cwd d.surroundings.tree)
    obtain ⟨hall', rfl⟩ := hend rfl
    have hstorable := (restorable_of_delivery hdelivery rfl hd hslash).2
    rw [← hall'] at hstorable
    refine Or.inr ⟨_, second, rfl, rfl, hall', ?_, repeats_of_filing hfiling hfiling' hagain (forall_filed hstorable)
      (hall'.trans hall.symm) fun e he => hslash e.1 (hall ▸ List.mem_map_of_mem he)⟩
    rw [recordsOf_filed l hprefix]
    rfl
  · exact Or.inl ⟨rfl, hused⟩

/-- A request that has been generated once is generated again, in the same project and from the same settings, by a
backend that has just been made.  The settings ask for the templates as before.  Without the permission to replace
files the second run is refused: its manifest is empty, and the tree stays as it is.  With the permission, and with
clocks that keep to years of four digits, it succeeds unless the calendar is used up: the classes keep their files, no
migration of the first run changes, and there is one new migration for the table and one for each join table. -/
theorem generate_twice {settings : Settings} {g : Generator} {l : Layout} {started : Moment} {r : Request}
    {s s' : Session Bench} {report : Report}
    (hstore : Store.ofSettings ⟨s.surroundings.tree, s.surroundings.cwd⟩ settings = .ok g.renderer.store)
    (hrun : (g.generate (Backend.ofKind l .filesystem) ⟨s.surroundings.tree, s.surroundings.cwd⟩ started r).run.run s =
      (.ok report, s')) (hsuccess : report.success = true) :
    Store.ofSettings ⟨s'.surroundings.tree, s.surroundings.cwd⟩ settings = .ok g.renderer.store ∧
    ∃ names slice first, EntityNames.ofEntity r.entity g.settings.modelNamespace = .ok names ∧
      g.outcome ⟨s.surroundings.tree, s.surroundings.cwd⟩ r = .ok slice ∧ first.map Prod.fst = slice.artifacts ∧
      report.manifest.map (·.files) = some (first.map (filedRecord l)) ∧
      ∀ (again : Moment) (d : Session Bench), d.surroundings.tree = s'.surroundings.tree →
        d.surroundings.cwd = s.surroundings.cwd → d.surroundings.lastStamp = none → ∃ res d',
        (g.generate (Backend.ofKind l .filesystem) ⟨d.surroundings.tree, d.surroundings.cwd⟩ again r).run.run d =
          (res, d') ∧
        (l.settings.overwrite = false → d'.surroundings.tree = s'.surroundings.tree ∧ ∃ report',
          res = .ok report' ∧ report'.success = false ∧ report'.manifest.map (·.files) = some []) ∧
        (l.settings.overwrite = true → Timely s.surroundings → Timely d.surroundings →
          (res = .error (.crash .endOfCalendar) ∧ UsedUp l s.surroundings.cwd d'.surroundings.tree) ∨
          ∃ report' second, res = .ok report' ∧ report'.success = true ∧ second.map Prod.fst = slice.artifacts ∧
            report'.manifest.map (·.files) = some (second.map (filedRecord l)) ∧
            (filedMigrations second).map (·.1.target) =
              names.migrationName :: slice.pivots.map PivotTable.migrationName ∧
            Repeats l s.surroundings.cwd s'.surroundings.tree d'.surroundings.tree first second) := by
  obtain ⟨slice, history, first, before, after, houtcome, hcourse, hbefore, hafter, hall, hdelivery, hmanifest,
    hfiling⟩ := filed_of_success hrun hsuccess
  obtain ⟨names, hnames, hplaces⟩ := places_of_course hcourse
  obtain ⟨hfresh, hslash⟩ := allFresh_artifacts hcourse
  refine ⟨ofSettings_undisturbed hfiling.undisturbed hstore, names, slice, first, hnames, houtcome, hall, hmanifest, ?_⟩
  intro again d htree hcwd hnew
  have houtcome' := (outcome_again hfiling hstore r).trans houtcome
  rw [← htree, ← hcwd] at houtcome' hfiling
  -- without leave to replace, the first class is refused; with it, everything is stored once more
  cases hover : l.settings.overwrite with
  | false =>
    -- the first artifact is the model, and its file is there
    obtain ⟨a, rest, hsplit, hplace, -⟩ := List.map_eq_cons_iff.1 hplaces
    have hkind : a.kind ≠ .migration := by
      simp [(Prod.mk.inj hplace).1]
    obtain ⟨e, others, rfl, rfl, -⟩ := List.map_eq_cons_iff.1 (hall.trans hsplit)
    have hassigns := assigns_of_delivery hdelivery rfl
    rw [← hall] at hassigns
    have hclass := forall_filed hassigns e List.mem_cons_self
    rw [Assigns, if_neg hkind] at hclass
    obtain ⟨report', d', hrun', hfailed, hempty, hsame⟩ := generate_refused houtcome' hsplit hkind hover hclass
      (hfiling.noNul e List.mem_cons_self) (hfiling.found e List.mem_cons_self) again
    exact ⟨_, d', hrun', fun _ => ⟨hsame.trans htree, report', rfl, hfailed, hempty⟩, by simp⟩
  | true =>
    by_cases htimely : Timely s.surroundings ∧ Timely d.surroundings
    · obtain ⟨hs, hd⟩ := htimely
      rw [← hbefore] at hs
      have hstorable := (restorable_of_delivery hdelivery rfl hs hslash).2
      rw [hafter, ← htree, hbefore, ← hcwd, ← hall] at hstorable
      obtain ⟨res, d', hrun', hends⟩ :=
        generate_repeats houtcome' hover hfiling hall (forall_filed hstorable) hd hnew again
      rw [hcwd, htree] at hends
      refine ⟨res, d', hrun', by simp, fun _ _ _ => hends.imp_right ?_⟩
      rintro ⟨report', second, hres, hsucceeded, hall', hmanifest', hrepeats⟩
      exact ⟨report', second, hres, hsucceeded, hall', hmanifest', targets_of_filed hall' hplaces, hrepeats⟩
    · exact ⟨_, _, rfl, by simp, fun _ hs hd => absurd ⟨hs, hd⟩ htimely⟩

/-- A project with a directory of templates, which are single letters. -/
def stubTree : Tree :=
  ⟨[(["stubs"], .directory), (["stubs", "model.stub"], .file "m".toUTF8),
    (["stubs", "migration.stub"], .file "t".toUTF8), (["stubs", "pivot_migration.stub"], .file "p".toUTF8),
    (["stubs", "controller.stub"], .file "c".toUTF8), (["stubs", "StoreRequest.stub"], .file "s".toUTF8),
    (["stubs", "UpdateRequest.stub"], .file "u".toUTF8)]⟩

/-- The settings of a project whose templates are all in that directory. -/
def stubSettings : Settings := { Settings.default with templatesPath := some "stubs", usePackaged := false }

/-- The generator that uses them. -/
def stubGenerator : Generator where
  settings := stubSettings
  renderer := ⟨.single (.ofDirectory ⟨.here, ["stubs"]⟩), false, []⟩

theorem ofSettings_stubTree : Store.ofSettings ⟨stubTree, []⟩ stubSettings = .ok stubGenerator.renderer.store := by
  have hpath : directoryOf stubSettings "stubs" = ⟨.here, ["stubs"]⟩ := by decide
  have hthere : isDirectory stubTree [] ⟨.here, ["stubs"]⟩ = .ok true := by decide
  rw [Store.ofSettings, show stubSettings.templatesPath = some "stubs" from rfl]
  simp only [hpath, hthere]
  rfl

/-- A run for posts in such a project. -/
def stubRun (l : Layout) (relations : Option String) (t : Tree) : Except Fault Report × Session Bench :=
  (stubGenerator.generate (Backend.ofKind l .filesystem) ⟨t, []⟩ ⟨2024, 1, 1, 0⟩
    ⟨"Post", "title:string", relations⟩).run.run (sessionOn t)

/-- Posts twice without the permission to replace files, and posts with tags twice with it. -/
theorem generate_twice_stubs :
    (∃ report s' report' d', stubRun topLayout none stubTree = (.ok report, s') ∧ report.success = true ∧
      stubRun topLayout none s'.surroundings.tree = (.ok report', d') ∧ report'.success = false ∧
      report'.manifest.map (·.files) = some [] ∧ d'.surroundings.tree = s'.surroundings.tree) ∧
    ∃ report s' report' d' first second,
      stubRun replacingLayout (some "belongsToMany:Tag:post_id:tag_id") stubTree = (.ok report, s') ∧
      report.success = true ∧
      stubRun replacingLayout (some "belongsToMany:Tag:post_id:tag_id") s'.surroundings.tree = (.ok report', d') ∧
      report'.success = true ∧ second.map Prod.fst = first.map Prod.fst ∧
      Repeats replacingLayout [] s'.surroundings.tree d'.surroundings.tree first second := by
  constructor
  · obtain ⟨report, s', hrun, hsuccess⟩ := exists_of_success (x := stubRun topLayout none stubTree) (by decide +kernel)
    obtain ⟨-, names, slice, first, -, -, -, -, htwice⟩ :=
      generate_twice (s := sessionOn stubTree) ofSettings_stubTree hrun hsuccess
    obtain ⟨res, d', hrun', hrefused, -⟩ := htwice ⟨2024, 1, 1, 0⟩ (sessionOn s'.surroundings.tree) rfl rfl rfl
    obtain ⟨hsame, report', rfl, hfailed, hempty⟩ := hrefused rfl
    exact ⟨report, s', report', d', hrun, hsuccess, hrun', hfailed, hempty, hsame⟩
  · obtain ⟨report, s', hrun, hsuccess⟩ := exists_of_success
      (x := stubRun replacingLayout (some "belongsToMany:Tag:post_id:tag_id") stubTree) (by decide +kernel)
    obtain ⟨again, d, hagain, hsucceeds⟩ := exists_of_success (x := stubRun replacingLayout
      (some "belongsToMany:Tag:post_id:tag_id")
      (stubRun replacingLayout (some "belongsToMany:Tag:post_id:tag_id") stubTree).2.surroundings.tree)
      (by decide +kernel)
    rw [hrun] at hagain
    obtain ⟨-, names, slice, first, -, -, hall, -, htwice⟩ :=
      generate_twice (s := sessionOn stubTree) ofSettings_stubTree hrun hsuccess
    obtain ⟨res, d', hrun', -, hrepeated⟩ := htwice ⟨2024, 1, 1, 0⟩ (sessionOn s'.surroundings.tree) rfl rfl rfl
    obtain ⟨rfl, rfl⟩ := Prod.mk.inj (hagain.symm.trans hrun')
    rcases hrepeated rfl (timely_sessionOn _) (timely_sessionOn _) with
      ⟨hend, -⟩ | ⟨report', second, hres, -, hall', -, -, hrepeats⟩
    · cases hend
    · exact ⟨report, s', again, d, first, second, hrun, hsuccess, hagain, hsucceeds, hall'.trans hall.symm, hrepeats⟩

end CrudScaffold.Generation
