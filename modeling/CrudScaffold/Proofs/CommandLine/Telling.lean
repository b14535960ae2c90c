import CrudScaffold.Proofs.CommandLine.Loading
import CrudScaffold.Proofs.Generation.Keys
import CrudScaffold.Proofs.Generation.Records

/-!
# CrudScaffold.Proofs.CommandLine.Telling — what the command tells of a delivery that has failed

A report with a failure is told by one error, one warning for each file that has been written, and the exit code 3
(`gives_tellReport`).  Nothing else that the command shows of a generation is an error or a warning of its own, since
a generation reports in other channels (`told_journal`).  Between the report and the telling stands the manifest: if it
is asked for and cannot be written, the command ends before it tells anything of the failure.
-/

namespace CrudScaffold.CommandLine

open CrudScaffold.Backend CrudScaffold.Calendar CrudScaffold.Files CrudScaffold.Generation

variable {level : Level}

/-! ### What has been told -/

/-- What the command itself has reported with a level. -/
def told (level : Level) (events : List Event) : List String := events.filterMap fun
  | .record r => if r.level = level ∧ r.channel = .commandLine then some r.message else none
  | _ => none

@[simp] theorem told_append (level : Level) (front back : List Event) :
    told level (front ++ back) = told level front ++ told level back := List.filterMap_append

/-- A record of the command. -/
def spoken (level : Level) (message : String) : Event := .record ⟨level, .commandLine, message⟩

@[simp] theorem told_spoken (level level' : Level) (messages : List String) :
    told level (messages.map (spoken level')) = if level' = level then messages else [] := by
  unfold told spoken
  rw [List.filterMap_map]
  split
  · rename_i h
    simp [h]
  · rename_i h
    simp [h]

@[simp] theorem told_cons (level level' : Level) (message : String) (events : List Event) :
    told level (spoken level' message :: events) = (if level' = level then [message] else []) ++ told level events := by
  rw [← List.singleton_append, told_append, ← told_spoken level level' [message]]
  rfl

@[simp] theorem told_nil (level : Level) : told level [] = [] := rfl

theorem told_diagnostic (level : Level) (c : Prop) [Decidable c] (text : String) :
    told level (if c then [.diagnostic text] else []) = [] := by
  split <;> rfl

/-- Of a journal without records of the command nothing is told. -/
theorem told_journal {journal : Journal} (h : ∀ entry ∈ journal, entry.channel ≠ .commandLine) :
    told level (journal.map Event.record) = [] := by
  rw [told, List.filterMap_map, List.filterMap_eq_nil_iff]
  intro entry hentry
  simp [h entry hentry]

/-! ### The report and its manifest -/

/-- The warnings about the files of a report that have been written. -/
def alreadyWritten (report : Report) : List String :=
  ((report.manifest.map Manifest.files).getD []).map fun record => s!"Already written: {record.relativePath}"

/-- A report with a failure is told by its text, by the files written before, and by the code of the failure. -/
theorem gives_tellReport (o : Options) {report : Report} {f : Failure} (hf : report.failure = some f) :
    Gives (tellReport o report) f.exitCode ((if 1 ≤ o.verbosity then [.diagnostic (report.summary ++ "\n")] else []) ++
      ([spoken .error f.message] ++ ((alreadyWritten report).map (spoken .warning) ++ []))) := by
  have hwarnings : Gives (((report.manifest.map Manifest.files).getD []).forM fun record =>
      Step.log .warning s!"Already written: {record.relativePath}") ()
      ((alreadyWritten report).map (spoken .warning)) := by
    rw [alreadyWritten, List.map_map, List.map_eq_flatMap]
    exact .forM fun record => .emit _
  unfold tellReport
  refine .guarded (.emit _) ?_
  rw [hf]
  exact (Gives.emit _).bind (hwarnings.bind (.pure _))

/-- What the command does with a report: it writes the manifest if one is asked for, and then tells the report. -/
def concludeReport (o : Options) (report : Report) : Step Nat := do
  match Options.nonEmpty o.manifest, report.manifest with
  | some file, some m =>
    if ← writeManifest file m then tellReport o report else return FailureClass.general.exitCode
  | _, _ => tellReport o report

/-- Why the manifest that is asked for cannot be written. -/
def manifestFault (o : Options) (report : Report) (b : Bench) : Option AccessFault :=
  match Options.nonEmpty o.manifest, report.manifest with
  | some file, some m => match (writeAtomically b.tree b.cwd (Path.ofString file) (m.text (some 2) ++ "\n")).1 with
    | .error fault => some fault
    | .ok _ => none
  | _, _ => none

/-- How a report with the failure `f` is concluded: by what keeps the manifest from being written, the status, and
what is shown. -/
inductive Conclusion (report : Report) (f : Failure) : Option AccessFault → Except Fault Nat → List Event → Prop
  /-- The failure is told. -/
  | settled {shown : List Event} (herror : told .error shown = [f.message])
    (hwarning : told .warning shown = alreadyWritten report) : Conclusion report f none (.ok f.exitCode) shown
  /-- The manifest is refused, and nothing is told of the failure. -/
  | refused {path : Path} {r : Refusal} {shown : List Event}
    (herror : told .error shown = [s!"Could not write manifest {path}: {r.message}"])
    (hwarning : told .warning shown = []) : Conclusion report f (some (.refused r)) (.ok 4) shown
  /-- The path of the manifest holds a NUL character. -/
  | crashed : Conclusion report f (some .nulInPath) (.error (.crash (.access .nulInPath))) []

variable {o : Options} {report : Report} {f : Failure}

theorem Conclusion.code_ne_zero {fault : Option AccessFault} {status : Except Fault Nat} {shown : List Event}
    (h : Conclusion report f fault status shown) (code : Nat) (hcode : status = .ok code) : code ≠ 0 := by
  cases h with
  | settled =>
    cases hcode
    exact exitCode_ne_zero f
  | refused =>
    cases hcode
    decide
  | crashed => cases hcode

theorem conclusion_of_gives (hf : report.failure = some f) {front : List Event} (herror : told .error front = [])
    (hwarning : told .warning front = []) (d : Desk) : ∃ shown,
      (tellReport o report).run.run ⟨d.bench, d.events ++ front⟩ = (.ok f.exitCode, ⟨d.bench, d.events ++ shown⟩) ∧
      Conclusion report f none (.ok f.exitCode) shown := by
  refine ⟨_, (gives_tellReport o hf _).trans (by rw [List.append_assoc]), .settled ?_ ?_⟩
  · simp [told_diagnostic, herror]
  · simp [told_diagnostic, hwarning]

/-- The manifest decides how a report with a failure is concluded. -/
theorem run_concludeReport (o : Options) (hf : report.failure = some f) (d : Desk) : ∃ status bench shown,
    (concludeReport o report).run.run d = (status, ⟨bench, d.events ++ shown⟩) ∧
      Conclusion report f (manifestFault o report d.bench) status shown := by
  have hplain : ∃ shown, (tellReport o report).run.run d = (.ok f.exitCode, ⟨d.bench, d.events ++ shown⟩) ∧
      Conclusion report f none (.ok f.exitCode) shown := by
    simpa using conclusion_of_gives hf (told_nil .error) (told_nil .warning) d
  unfold concludeReport manifestFault
  -- a manifest is written only if a file is named and the report has one
  cases Options.nonEmpty o.manifest with
  | none =>
    obtain ⟨shown, hrun, hshown⟩ := hplain
    exact ⟨_, _, _, hrun, hshown⟩
  | some file =>
    cases report.manifest with
    | none =>
      obtain ⟨shown, hrun, hshown⟩ := hplain
      exact ⟨_, _, _, hrun, hshown⟩
    | some m =>
      simp only
      rw [run_bind]
      unfold writeManifest
      rw [run_bind, run_get]
      simp only
      -- the manifest is refused, its path has a NUL in it, or it is written
      rcases writeAtomically d.bench.tree d.bench.cwd (Path.ofString file) (m.text (some 2) ++ "\n") with
        ⟨(r | _) | size, tree⟩
      · exact ⟨_, _, [spoken .error s!"Could not write manifest {Path.ofString file}: {r.message}"], rfl,
          .refused rfl rfl⟩
      · refine ⟨_, { d.bench with tree }, [], ?_, .crashed⟩
        rw [List.append_nil]
        rfl
      · have htold := conclusion_of_gives (o := o) hf
          (show told .error [spoken .info s!"Manifest written to {Path.ofString file}."] = [] from rfl) rfl
          ⟨{ d.bench with tree }, d.events⟩
        obtain ⟨shown, hrun, hshown⟩ := htold
        exact ⟨_, _, shown, hrun, hshown⟩

/-! ### Runs that get as far as a report -/

/-- The command gets as far as the report of a generation, which leaves the session `s`. -/
structure Reports (host : Host) (started : Moment) (b : Bench) (words : List String) (o : Options) (report : Report)
    (s : Session Bench) : Prop where
  parsed : parse host.edition words = .ok o
  writes : o.printOnly = false
  generated : ∃ g r layout, loadGenerator host o b = .ok g ∧ requestOf o = .ok r ∧
    Layout.ofSettings g.settings b.cwd = .ok layout ∧
    (g.generate (.ofLayout layout) ⟨b.tree, b.cwd⟩ started r).run.run ⟨[.idle], b, []⟩ = (.ok report, s)

variable {host : Host} {started : Moment} {b : Bench} {words : List String} {s : Session Bench}

theorem run_runGeneration_of_report {g : Generator} {r : Request} {layout : Layout} {d : Desk}
    (hlayout : Layout.ofSettings g.settings d.bench.cwd = .ok layout)
    (hgenerate : (g.generate (.ofLayout layout) ⟨d.bench.tree, d.bench.cwd⟩ started r).run.run ⟨[.idle], d.bench, []⟩ =
      (.ok report, s)) :
    (runGeneration started g o r).run.run d =
      (concludeReport o report).run.run ⟨s.surroundings, d.events ++ s.journal.map Event.record⟩ := by
  unfold runGeneration
  rw [run_bind, run_get]
  simp only [hlayout, Step.view, run_bind, run_get, run_pure, run_attempt, hgenerate, answered]
  rfl

/-- What comes before the report is neither an error nor a warning of the command. -/
theorem run_execute_of_reports (h : Reports host started b words o report s) : ∃ front : List Event,
    (∀ level, level ≠ .info → told level front = []) ∧
    (execute host started o).run.run ⟨b, []⟩ = (do
      let code ← concludeReport o report
      if code ≠ 0 then Step.log .error s!"crudgen failed with exit code {code}."
      return code : Step Nat).run.run ⟨s.surroundings, front⟩ := by
  obtain ⟨hparsed, hwrites, g, r, layout, hload, hrequest, hlayout, hgenerate⟩ := h
  -- what the generator has journalled is not told by the command
  have hjournal : ∀ entry ∈ s.journal, entry.channel ≠ .commandLine := by
    obtain ⟨added, hadded, hchannel⟩ := emits_generate g layout layout.settings.backend ⟨b.tree, b.cwd⟩ started r
      ⟨[.idle], b, []⟩
    have hrun : (g.generate (Backend.ofKind layout layout.settings.backend) ⟨b.tree, b.cwd⟩ started r).run.run
        ⟨[.idle], b, []⟩ = (.ok report, s) := hgenerate
    rw [hrun] at hadded
    simp only [List.nil_append] at hadded
    exact hadded ▸ hchannel
  let front := [spoken .info s!"Entity:  {o.name}", spoken .info s!"Root:    {g.settings.projectRoot}",
    spoken .info s!"Backend: {g.settings.backend.label}"]
  refine ⟨front ++ s.journal.map Event.record, fun level hlevel => ?_, ?_⟩
  · simp [front, told_journal hjournal, Ne.symm hlevel]
  · have hgenerated := run_runGeneration_of_report (o := o) (d := ⟨b, front⟩) hlayout hgenerate
    unfold execute
    rw [run_bind, run_get]
    simp only [hload, Step.log, run_bind, run_emit, hrequest, run_liftExcept, hwrites, Bool.false_eq_true, if_false]
    rw [← hgenerated]
    rfl

theorem run_closing {x : Step Nat} {d d' : Desk} {code : Nat} (h : x.run.run d = (.ok code, d')) (hcode : code ≠ 0) :
    (do
      let code ← x
      if code ≠ 0 then Step.log .error s!"crudgen failed with exit code {code}."
      return code : Step Nat).run.run d =
        (.ok code, ⟨d'.bench, d'.events ++ [spoken .error s!"crudgen failed with exit code {code}."]⟩) := by
  rw [bind_of_ok h, if_pos hcode]
  rfl

/-- The failure of a report is one of the backend, which has the code 3. -/
theorem Reports.exitCode (h : Reports host started b words o report s) (hf : report.failure = some f) : f.exitCode = 3 := by
  obtain ⟨g, r, layout, -, -, -, hgenerate⟩ := h.generated
  rcases failure_of_report hgenerate with ⟨hnone, -⟩ | ⟨e, he⟩
  · rw [hnone] at hf
    cases hf
  · obtain rfl := Option.some.inj (he.symm.trans hf)
    rfl

/-- The run of the command after a report with a failure: its status is that of the conclusion, and what it has told is
what the conclusion tells, with the code at the end. -/
theorem run_of_reports (h : Reports host started b words o report s) (hf : report.failure = some f) : ∃ shown,
    Conclusion report f (manifestFault o report s.surroundings) (run host started b words).status shown ∧
    told .warning (run host started b words).events = told .warning shown ∧
    told .error (run host started b words).events = told .error shown ++ match (run host started b words).status with
      | .ok code => [s!"crudgen failed with exit code {code}."]
      | .error _ => [] := by
  obtain ⟨front, hfront, hexecute⟩ := run_execute_of_reports h
  obtain ⟨status, bench, shown, hrun, hconclusion⟩ := run_concludeReport o hf ⟨s.surroundings, front⟩
  have herrors := hfront .error (by decide)
  have hwarnings := hfront .warning (by decide)
  have hcode := hconclusion.code_ne_zero
  rw [run_of_parse started b h.parsed, hexecute]
  cases status with
  | ok code =>
    rw [run_closing hrun (hcode code rfl)]
    exact ⟨shown, hconclusion, by simp [hwarnings], by simp [herrors]⟩
  | error fault =>
    rw [bind_of_error hrun]
    exact ⟨shown, hconclusion, by simp [hwarnings], by simp [herrors]⟩

/-- **A failure of the backend is told in full, unless the manifest cannot be written**: the exit code is 3, and there
is one warning for each file of the report in order, whatever else the options say.  A manifest that is refused ends the
command with 4 before the failure and the files are told. -/
theorem failure_told_iff (h : Reports host started b words o report s) (hf : report.failure = some f) :
    ((run host started b words).status = .ok 3 ↔ manifestFault o report s.surroundings = none) ∧
    (manifestFault o report s.surroundings = none →
      told .warning (run host started b words).events = alreadyWritten report ∧
      told .error (run host started b words).events = [f.message, "crudgen failed with exit code 3."]) ∧
    (∀ r, manifestFault o report s.surroundings = some (.refused r) → (run host started b words).status = .ok 4 ∧
      told .warning (run host started b words).events = [] ∧
      ∃ path : Path, told .error (run host started b words).events =
        [s!"Could not write manifest {path}: {r.message}", "crudgen failed with exit code 4."]) ∧
    (manifestFault o report s.surroundings = some .nulInPath →
      (run host started b words).status = .error (.crash (.access .nulInPath)) ∧
      told .warning (run host started b words).events = [] ∧ told .error (run host started b words).events = []) := by
  obtain ⟨shown, hconclusion, hwarnings, herrors⟩ := run_of_reports h hf
  have hthree := h.exitCode hf
  rw [hwarnings, herrors]
  clear hwarnings herrors
  generalize manifestFault o report s.surroundings = fault at hconclusion ⊢
  generalize (run host started b words).status = status at hconclusion ⊢
  -- how the report was concluded says all that is told
  cases hconclusion with
  | settled herror hwarning =>
    rw [hthree, herror, hwarning]
    exact ⟨by simp, fun _ => ⟨rfl, rfl⟩, nofun, nofun⟩
  | @refused path r shown herror hwarning =>
    rw [herror, hwarning]
    refine ⟨by simp, nofun, ?_, nofun⟩
    rintro _ ⟨⟩
    exact ⟨rfl, rfl, path, rfl⟩
  | crashed => exact ⟨by simp, nofun, nofun, fun _ => ⟨rfl, rfl, rfl⟩⟩

/-! ### A project whose model stands already -/

/-- A project with a model of posts, and a directory where a manifest is to be written. -/
def occupiedTree : Tree := postTree.put ["out"] .directory

/-- The request for posts with a title. -/
def titledPost : Request := ⟨"Post", "title:string", none⟩

theorem exists_slice_titledPost (v : Template.View) : ∃ slice content rest,
    (Generator.packaged .default).outcome v titledPost = .ok slice ∧
      slice.artifacts = ⟨.model, .model, "Post", content⟩ :: rest := by
  have hparsed : Parsed (.packaged .default) titledPost postNames [⟨"title", "string"⟩] ⟨[], []⟩ [] := by
    constructor <;> decide
  obtain ⟨history, added, hcourse, -⟩ := run_build (Generator.packaged .default) v titledPost
  rcases course_packaged hcourse with
    ⟨names, fields, list, pivots, drafts, slice, hparsed', hdrafts, hslice, hartifacts⟩ | ⟨hnone, -⟩
  · obtain rfl := Except.ok.inj (hparsed'.entity.symm.trans hparsed.entity)
    obtain ⟨methods, -, rfl⟩ := draftsFor_eq hdrafts
    exact ⟨slice, _, _, hslice, hartifacts⟩
  · exact absurd ⟨_, _, _, _, hparsed⟩ hnone

/-- In this project the model is refused, and the surroundings stay as they are. -/
theorem exists_report_occupied : ∃ report s e m,
    ((Generator.packaged .default).generate (.ofLayout topLayout) ⟨occupiedTree, []⟩ ⟨2024, 1, 1, 0⟩ titledPost).run.run
      (sessionOn occupiedTree) = (.ok report, s) ∧ report.failure = some (.backend e) ∧ report.manifest = some m ∧
    s.surroundings = (sessionOn occupiedTree).surroundings := by
  obtain ⟨slice, content, rest, hslice, hartifacts⟩ := exists_slice_titledPost ⟨occupiedTree, []⟩
  obtain ⟨history, added, -, hrun⟩ := run_generate_of_delivery hslice
  have hpath : pathIn topLayout [] (sessionOn occupiedTree).surroundings .model "Post" =
      .error (.failure (.backend (.occupied "app/Models/Post.php" (Path.ofString "/app/Models/Post.php") "Post"))) := by
    decide
  have hcreate := run_createFile_eq topLayout .model "Post" ⟨(sessionOn occupiedTree).surroundings, [] ++ added⟩
  rw [hpath] at hcreate
  have hdelivery : Delivery (.ofLayout topLayout) ⟨(sessionOn occupiedTree).surroundings, [] ++ added⟩ slice.artifacts []
      (some (.failure (.backend (.occupied "app/Models/Post.php" (Path.ofString "/app/Models/Post.php") "Post"))))
      ⟨(sessionOn occupiedTree).surroundings, [] ++ added⟩ := by
    rw [hartifacts]
    exact .notCreated hcreate
  exact ⟨_, _, _, _, hrun ⟨2024, 1, 1, 0⟩ hdelivery, rfl, rfl, rfl⟩

/-- The options for this request. -/
def titledOptions (manifest : Option Given) : Options :=
  { Options.none with name := "Post", fields := .text "title:string", manifest := manifest }

theorem exists_reports_occupied (words : List String) (manifest : Option Given)
    (hparsed : parse Host.standard.edition words = .ok (titledOptions manifest)) :
    ∃ report s e m, Reports Host.standard ⟨2024, 1, 1, 0⟩ (sessionOn occupiedTree).surroundings words
      (titledOptions manifest) report s ∧ report.failure = some (.backend e) ∧ report.manifest = some m ∧
      s.surroundings = (sessionOn occupiedTree).surroundings := by
  obtain ⟨report, s, e, m, hgenerate, hfailure, hmanifest, hs⟩ := exists_report_occupied
  exact ⟨report, s, e, m, ⟨hparsed, rfl, _, _, _, rfl, rfl, rfl, hgenerate⟩, hfailure, hmanifest, hs⟩

/-- Without a manifest the failure is told. -/
theorem failure_told_iff_occupied : ∃ report s e,
    Reports Host.standard ⟨2024, 1, 1, 0⟩ (sessionOn occupiedTree).surroundings ["Post", "--fields", "title:string"]
      (titledOptions none) report s ∧ report.failure = some (.backend e) ∧
    (run Host.standard ⟨2024, 1, 1, 0⟩ (sessionOn occupiedTree).surroundings
      ["Post", "--fields", "title:string"]).status = .ok 3 := by
  obtain ⟨report, s, e, m, hreports, hfailure, -⟩ :=
    exists_reports_occupied ["Post", "--fields", "title:string"] none (by decide)
  exact ⟨report, s, e, hreports, hfailure, (failure_told_iff hreports hfailure).1.2 rfl⟩

/-- A manifest that is asked for where a directory stands is refused. -/
theorem manifestFault_out {m : Manifest} (hmanifest : report.manifest = some m) :
    manifestFault (titledOptions (some (.text "out"))) report (sessionOn occupiedTree).surroundings =
      some (.refused ⟨.isDirectory, "/.out.XXXXXXXX.tmp", some "out"⟩) := by
  have hnonEmpty : Options.nonEmpty (titledOptions (some (.text "out"))).manifest = some "out" := by decide
  have hensure : ensureDirectory occupiedTree [] (Path.ofString "out").parent = (.ok (), occupiedTree) :=
    ensureDirectory_of_find (a := []) rfl (by decide) (by decide)
  have hnul : (Path.ofString "out").hasNul = false := by decide
  have hslot : (occupiedTree.slot [] (temporaryPath [] (Path.ofString "out"))).isOk = true := by decide
  have htarget : occupiedTree.renameTarget [] (Path.ofString "out") = .error .isDirectory := by decide
  obtain ⟨at_, hslot⟩ := exists_of_isOk hslot
  have hwrite : ∀ text, (writeAtomically occupiedTree [] (Path.ofString "out") text).1 =
      .error (.refused ⟨.isDirectory, "/.out.XXXXXXXX.tmp", some "out"⟩) := by
    intro text
    simp only [writeAtomically, hensure, hnul, hslot, htarget]
    decide
  unfold manifestFault
  rw [hnonEmpty, hmanifest]
  show (match (writeAtomically occupiedTree [] (Path.ofString "out") (m.text (some 2) ++ "\n")).1 with
    | .error fault => some fault
    | .ok _ => none) = _
  rw [hwrite]

/-- Not every failure is told: where the manifest is refused as well, the code is 4. -/
theorem not_failure_told : ¬∀ (host : Host) (started : Moment) (b : Bench) (words : List String) (o : Options)
    (report : Report) (s : Session Bench) (f : Failure), Reports host started b words o report s →
      report.failure = some f → (run host started b words).status = .ok 3 ∧
      told .warning (run host started b words).events = alreadyWritten report := by
  intro h
  obtain ⟨report, s, e, m, hreports, hfailure, hmanifest, hs⟩ := exists_reports_occupied
    ["Post", "--fields", "title:string", "--manifest", "out"] (some (.text "out")) (by decide)
  obtain ⟨hthree, -⟩ := h _ _ _ _ _ _ _ _ hreports hfailure
  obtain ⟨shown, hconclusion, -⟩ := run_of_reports hreports hfailure
  rw [hs, manifestFault_out hmanifest, hthree] at hconclusion
  cases hconclusion

end CrudScaffold.CommandLine
