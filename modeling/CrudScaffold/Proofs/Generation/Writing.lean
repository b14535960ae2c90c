import CrudScaffold.Generation.Generate
import CrudScaffold.Proofs.Generation.Course

/-!
# CrudScaffold.Proofs.Generation.Writing — how a backend gets through the artifacts

`Delivery b s as files ending s'` follows the calls that are made of a backend for a list of artifacts: each artifact
is created and then written, and the first call that fails ends it.  `files` are the paths and sizes of the artifacts
that got through.  Every list of artifacts has its delivery (`exists_delivery`), which decides what is written and
reported (`Delivery.run_writeFrom`, `Delivery.run_deliver`), and every run is a build and then a delivery
(`run_generate`).
-/

namespace CrudScaffold.Generation

open CrudScaffold.Backend CrudScaffold.Calendar CrudScaffold.Files CrudScaffold.Template

variable {σ : Type}

/-! ### Deliveries -/

/-- The course of a delivery: the artifacts that got through with their paths and sizes, and the fault that ended it,
if one did. -/
inductive Delivery (b : Backend σ) : Scene σ → List Artifact → List (Path × Int) → Option Fault → Scene σ → Prop
  | finished (s : Scene σ) : Delivery b s [] [] none s
  | notCreated {s s' : Scene σ} {a : Artifact} {rest : List Artifact} {f : Fault}
      (hcreate : (b.create a.kind a.target).run.run s = (.error f, s')) : Delivery b s (a :: rest) [] (some f) s'
  | notWritten {s s₁ s' : Scene σ} {a : Artifact} {rest : List Artifact} {p : Path} {f : Fault}
      (hcreate : (b.create a.kind a.target).run.run s = (.ok p, s₁))
      (hwrite : (b.write p a.content).run.run s₁ = (.error f, s')) : Delivery b s (a :: rest) [] (some f) s'
  | stored {s s₁ s₂ s' : Scene σ} {a : Artifact} {rest : List Artifact} {p : Path} {size : Int}
      {files : List (Path × Int)} {ending : Option Fault}
      (hcreate : (b.create a.kind a.target).run.run s = (.ok p, s₁))
      (hwrite : (b.write p a.content).run.run s₁ = (.ok size, s₂)) (hrest : Delivery b s₂ rest files ending s') :
      Delivery b s (a :: rest) ((p, size) :: files) ending s'

/-- The record of an artifact that got through. -/
def recordOf (b : Backend σ) (a : Artifact) (file : Path × Int) : FileRecord :=
  FileRecord.ofContent a.target a.kind (b.shown file.1) file.1 a.content file.2

/-- The records of the artifacts that got through. -/
def recordsOf (b : Backend σ) (as : List Artifact) (files : List (Path × Int)) : List FileRecord :=
  List.zipWith (recordOf b) as files

/-- What a delivery gives: a failure of the backend becomes part of it, any other fault is let through. -/
def writingOf (records : List FileRecord) : Option Fault → Except Fault Writing
  | none => .ok ⟨records, none⟩
  | some (.failure (.backend f)) => .ok ⟨records, some f⟩
  | some fault => .error fault

theorem writingOf_ok {records : List FileRecord} {ending : Option Fault} {w : Writing}
    (h : writingOf records ending = .ok w) :
    w.records = records ∧ ending = w.fault.map fun f => .failure (.backend f) := by
  unfold writingOf at h
  split at h
  · cases h
    exact ⟨rfl, rfl⟩
  · cases h
    exact ⟨rfl, rfl⟩
  · cases h

theorem writingOf_error {records : List FileRecord} {ending : Option Fault} {f : Fault}
    (h : writingOf records ending = .error f) : ending = some f ∧ ∀ e, f ≠ .failure (.backend e) := by
  unfold writingOf at h
  split at h
  · cases h
  · cases h
  · rename_i fault hother
    obtain rfl := Except.error.inj h
    exact ⟨rfl, hother⟩

/-! ### Every writing is a delivery -/

/-- What an attempt makes of an outcome. -/
def attempted {α : Type} : Except Fault α → Except Fault (Except BackendFault α)
  | .ok a => .ok (.ok a)
  | .error (.failure (.backend f)) => .ok (.error f)
  | .error fault => .error fault

theorem run_attempt {α : Type} (x : Act σ α) (s : Scene σ) :
    (attempt x).run.run s = (attempted (x.run.run s).1, (x.run.run s).2) := by
  unfold attempt
  rw [run_tryCatch, run_map]
  rcases x.run.run s with ⟨(f | c) | a, s'⟩
  · cases f <;> rfl
  · rfl
  · rfl

/-- Whatever the backend does, it gets through a list of artifacts in some way. -/
theorem exists_delivery (b : Backend σ) (as : List Artifact) (s : Scene σ) :
    ∃ files ending s', Delivery b s as files ending s' := by
  induction as generalizing s with
  | nil => exact ⟨[], none, s, .finished s⟩
  | cons a rest ih =>
    rcases hcreate : (b.create a.kind a.target).run.run s with ⟨f | p, s₁⟩
    · exact ⟨[], some f, s₁, .notCreated hcreate⟩
    rcases hwrite : (b.write p a.content).run.run s₁ with ⟨f | size, s₂⟩
    · exact ⟨[], some f, s₂, .notWritten hcreate hwrite⟩
    obtain ⟨files, ending, s', hrest⟩ := ih s₂
    exact ⟨(p, size) :: files, ending, s', .stored hcreate hwrite hrest⟩

theorem run_writeFrom_of_error {b : Backend σ} {s s' : Scene σ} {a : Artifact} {f : Fault}
    (h : (writeArtifact b a).run.run s = (.error f, s')) (done : List FileRecord) (rest : List Artifact) :
    (writeFrom b done (a :: rest)).run.run s = (writingOf done (some f), s') := by
  rw [writeFrom, run_bind, run_attempt, h]
  rcases f with f | c
  · cases f <;> rfl
  · rfl

/-- A writing gives what its delivery tells; the records of the artifacts before stay. -/
theorem Delivery.run_writeFrom {b : Backend σ} {s s' : Scene σ} {as : List Artifact} {files : List (Path × Int)}
    {ending : Option Fault} (h : Delivery b s as files ending s') (done : List FileRecord) :
    (writeFrom b done as).run.run s = (writingOf (done ++ recordsOf b as files) ending, s') := by
  -- one case for each way an artifact may end; what comes after it is written by the rest
  induction h generalizing done with
  | finished s =>
    rw [recordsOf, List.zipWith_nil_left, List.append_nil]
    rfl
  | notCreated hcreate =>
    rw [recordsOf, List.zipWith_nil_right, List.append_nil]
    exact run_writeFrom_of_error (bind_of_error hcreate) _ _
  | notWritten hcreate hwrite =>
    rw [recordsOf, List.zipWith_nil_right, List.append_nil]
    exact run_writeFrom_of_error ((bind_of_ok hcreate).trans (bind_of_error hwrite)) _ _
  | @stored s s₁ s₂ s' a rest p size files ending hcreate hwrite hrest ih =>
    have hartifact : (writeArtifact b a).run.run s = (.ok (recordOf b a (p, size)), s₂) :=
      (bind_of_ok hcreate).trans (bind_of_ok hwrite)
    rw [writeFrom, run_bind, run_attempt, hartifact]
    simp only [attempted]
    rw [ih, recordsOf, recordsOf, List.zipWith_cons_cons, List.append_assoc, List.singleton_append]

/-! ### Runs -/

theorem run_ofAct {α : Type} (x : Act σ α) (s : Session σ) :
    (Running.ofAct x).run.run s = ((x.run.run ⟨s.surroundings, s.journal⟩).1,
      ⟨s.history, (x.run.run ⟨s.surroundings, s.journal⟩).2.surroundings,
        (x.run.run ⟨s.surroundings, s.journal⟩).2.journal⟩) := by
  rw [Running.ofAct, run_bind, run_get]
  simp only
  rcases x.run.run ⟨s.surroundings, s.journal⟩ with ⟨e | a, scene⟩ <;> rfl

theorem run_ofBuilding {α : Type} (x : Building α) (s : Session σ) :
    (Running.ofBuilding x : Running σ α).run.run s = ((x.run.run ⟨s.history, s.journal⟩).1,
      ⟨(x.run.run ⟨s.history, s.journal⟩).2.history, s.surroundings,
        (x.run.run ⟨s.history, s.journal⟩).2.journal⟩) := by
  rw [Running.ofBuilding, run_bind, run_get]
  simp only
  rcases x.run.run ⟨s.history, s.journal⟩ with ⟨e | a, p⟩ <;> rfl

/-- The part of a run that comes after its build. -/
def deliver (b : Backend σ) (started : Moment) (r : Request) (slice : Slice) : Running σ Report := do
  let w ← Running.ofAct (writeAll b slice.artifacts)
  let report := reportOf b started r slice w
  match w.fault with
  | some fault =>
    Running.note .error s!"Backend '{b.name}' failed after {w.records.length} file(s): {fault.message}"
  | none => Running.note .info report.successMessage
  return report

theorem generate_eq (g : Generator) (b : Backend σ) (v : View) (started : Moment) (r : Request) :
    g.generate b v started r = (do deliver b started r (← Running.ofBuilding (g.build v r))) := rfl

/-- A run does not touch anything when the build fails, and delivers the slice of the build when it succeeds. -/
theorem run_generate (g : Generator) (v : View) (r : Request) : ∃ history added, Course g v r (g.outcome v r) history ∧
    ∀ {σ : Type} (b : Backend σ) (started : Moment) (s : Session σ),
      (g.generate b v started r).run.run s = match g.outcome v r with
        | .error f => (.error f, ⟨history, s.surroundings, s.journal ++ added⟩)
        | .ok slice => (deliver b started r slice).run.run ⟨history, s.surroundings, s.journal ++ added⟩ := by
  obtain ⟨history, added, hcourse, hrun⟩ := run_build g v r
  refine ⟨history, added, hcourse, fun b started s => ?_⟩
  rw [generate_eq, run_bind, run_ofBuilding, hrun]
  cases g.outcome v r <;> rfl

/-- What a run says of its delivery in the journal. -/
def closing (b : Backend σ) (started : Moment) (r : Request) (slice : Slice) : Except Fault Writing → Journal
  | .error _ => []
  | .ok w => [match w.fault with
    | some fault =>
      ⟨.error, .generation, s!"Backend '{b.name}' failed after {w.records.length} file(s): {fault.message}"⟩
    | none => ⟨.info, .generation, (reportOf b started r slice w).successMessage⟩]

/-- What the delivery of a slice leaves: the phases of the build stay, and the report tells of the delivery. -/
theorem Delivery.run_deliver {b : Backend σ} {s : Session σ} {scene : Scene σ} {slice : Slice}
    {files : List (Path × Int)} {ending : Option Fault}
    (h : Delivery b ⟨s.surroundings, s.journal⟩ slice.artifacts files ending scene) (started : Moment) (r : Request) :
    (deliver b started r slice).run.run s =
      ((writingOf (recordsOf b slice.artifacts files) ending).map (reportOf b started r slice),
        ⟨s.history, scene.surroundings,
          scene.journal ++ closing b started r slice (writingOf (recordsOf b slice.artifacts files) ending)⟩) := by
  have hrun : (writeAll b slice.artifacts).run.run ⟨s.surroundings, s.journal⟩ = _ := h.run_writeFrom []
  rw [List.nil_append] at hrun
  rw [deliver, run_bind, run_ofAct, hrun]
  rcases writingOf (recordsOf b slice.artifacts files) ending with f | ⟨records, _ | fault⟩
  · rw [closing, List.append_nil]
    rfl
  · rfl
  · rfl

/-- What a run gives whose build succeeds is decided by the delivery of its slice. -/
theorem run_generate_of_delivery {g : Generator} {v : View} {r : Request} {slice : Slice}
    (hbuild : g.outcome v r = .ok slice) : ∃ history added, Course g v r (.ok slice) history ∧
      ∀ {σ : Type} {b : Backend σ} {s : Session σ} {files : List (Path × Int)} {ending : Option Fault}
        {scene : Scene σ} (started : Moment),
        Delivery b ⟨s.surroundings, s.journal ++ added⟩ slice.artifacts files ending scene →
        (g.generate b v started r).run.run s =
          ((writingOf (recordsOf b slice.artifacts files) ending).map (reportOf b started r slice),
            ⟨history, scene.surroundings,
              scene.journal ++ closing b started r slice (writingOf (recordsOf b slice.artifacts files) ending)⟩) := by
  obtain ⟨history, added, hcourse, hrun⟩ := run_generate g v r
  rw [hbuild] at hcourse hrun
  refine ⟨history, added, hcourse, fun started hdelivery => (hrun _ started _).trans ?_⟩
  exact Delivery.run_deliver (s := ⟨history, _, _⟩) hdelivery started r

/-- Every run is a build that fails, or a delivery of the slice that is built. -/
theorem run_generate_cases (g : Generator) (b : Backend σ) (v : View) (started : Moment) (r : Request)
    (s : Session σ) : ∃ res s', (g.generate b v started r).run.run s = (res, s') ∧
      ((∃ f, g.outcome v r = .error f ∧ res = .error f ∧ s'.surroundings = s.surroundings) ∨
        ∃ slice history before files ending after, g.outcome v r = .ok slice ∧ Course g v r (.ok slice) history ∧
          before.surroundings = s.surroundings ∧ Delivery b before slice.artifacts files ending after ∧
          after.surroundings = s'.surroundings ∧
          res = (writingOf (recordsOf b slice.artifacts files) ending).map (reportOf b started r slice)) := by
  obtain ⟨history, added, hcourse, hrun⟩ := run_generate g v r
  have hrun := hrun b started s
  cases houtcome : g.outcome v r with
  | error f =>
    rw [houtcome] at hrun
    exact ⟨_, _, hrun, Or.inl ⟨f, rfl, rfl, rfl⟩⟩
  | ok slice =>
    rw [houtcome] at hrun hcourse
    obtain ⟨files, ending, after, hdelivery⟩ := exists_delivery b slice.artifacts ⟨s.surroundings, s.journal ++ added⟩
    have hdeliver := Delivery.run_deliver (s := ⟨history, s.surroundings, s.journal ++ added⟩) hdelivery started r
    exact ⟨_, _, hrun.trans hdeliver,
      Or.inr ⟨slice, history, _, files, ending, after, rfl, hcourse, rfl, hdelivery, rfl, rfl⟩⟩

/-- A run that gives a report has built a slice, and the report tells of its delivery. -/
theorem delivery_of_report {g : Generator} {b : Backend σ} {v : View} {started : Moment} {r : Request}
    {s s' : Session σ} {report : Report} (hrun : (g.generate b v started r).run.run s = (.ok report, s')) :
    ∃ slice history before files fault after, g.outcome v r = .ok slice ∧ Course g v r (.ok slice) history ∧
      before.surroundings = s.surroundings ∧
      Delivery b before slice.artifacts files (fault.map fun f => .failure (.backend f)) after ∧
      report = reportOf b started r slice ⟨recordsOf b slice.artifacts files, fault⟩ ∧
      after.surroundings = s'.surroundings := by
  obtain ⟨res, s₁, hrun', hcases⟩ := run_generate_cases g b v started r s
  obtain ⟨rfl, rfl⟩ := Prod.mk.inj (hrun'.symm.trans hrun)
  rcases hcases with ⟨f, -, hf, -⟩ |
    ⟨slice, history, before, files, ending, after, houtcome, hcourse, hbefore, hdelivery, hafter, hreport⟩
  · cases hf
  -- a fault that is not in the report would not have given one
  cases hw : writingOf (recordsOf b slice.artifacts files) ending with
  | error f =>
    rw [hw] at hreport
    cases hreport
  | ok w =>
    rw [hw] at hreport
    obtain ⟨hrecords, rfl⟩ := writingOf_ok hw
    obtain ⟨records, fault⟩ := w
    obtain rfl : records = recordsOf b slice.artifacts files := hrecords
    exact ⟨slice, history, before, files, fault, after, houtcome, hcourse, hbefore, hdelivery,
      Except.ok.inj hreport, hafter⟩

/-- A report tells of a failure of the backend, or of a success. -/
theorem failure_of_report {g : Generator} {b : Backend σ} {v : View} {started : Moment} {r : Request}
    {s s' : Session σ} {report : Report} (h : (g.generate b v started r).run.run s = (.ok report, s')) :
    (report.failure = none ∧ report.success = true) ∨ ∃ e, report.failure = some (.backend e) := by
  obtain ⟨slice, history, before, files, fault, after, -, -, -, -, rfl, -⟩ := delivery_of_report h
  cases fault with
  | none => exact Or.inl ⟨rfl, rfl⟩
  | some e => exact Or.inr ⟨e, rfl⟩

/-- A run that succeeds has built a slice and delivered all of it, and its manifest has the records. -/
theorem delivery_of_success {g : Generator} {b : Backend σ} {v : View} {started : Moment} {r : Request}
    {s s' : Session σ} {report : Report} (hrun : (g.generate b v started r).run.run s = (.ok report, s'))
    (hsuccess : report.success = true) : ∃ slice history before files after,
      g.outcome v r = .ok slice ∧ Course g v r (.ok slice) history ∧
      before.surroundings = s.surroundings ∧ Delivery b before slice.artifacts files none after ∧
      report.manifest.map (·.files) = some (recordsOf b slice.artifacts files) ∧
      after.surroundings = s'.surroundings := by
  obtain ⟨slice, history, before, files, fault, after, hbuild, hcourse, hbefore, hdelivery, rfl, hafter⟩ :=
    delivery_of_report hrun
  obtain rfl : fault = none := by simpa [reportOf] using hsuccess
  exact ⟨slice, history, before, files, after, hbuild, hcourse, hbefore, hdelivery, rfl, hafter⟩

end CrudScaffold.Generation
