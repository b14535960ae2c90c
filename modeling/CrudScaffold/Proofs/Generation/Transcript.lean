import CrudScaffold.Proofs.Generation.Writing

/-!
# CrudScaffold.Proofs.Generation.Transcript — reports tell what the backend was asked and answered

An observed backend does what the backend does and writes down every call with its answer.  For every backend that
fails in no other way than a backend may, the calls of a run are those of a `Transcript`: each artifact is created, and
then written under the path that its creation gave, up to the first failure.  The report tells exactly that
(`generate_observed`).
-/

namespace CrudScaffold.Generation

open CrudScaffold.Backend CrudScaffold.Calendar CrudScaffold.Files CrudScaffold.Template

variable {σ : Type}

/-! ### Observed backends -/

/-- A call of a backend, and its answer. -/
inductive Exchange where
  | created (kind : ArtifactKind) (name : String) (answer : Except Fault Path)
  | wrote (path : Path) (content : String) (answer : Except Fault Int)

/-- Does what an action does, and writes down its answer. -/
def overhear {α : Type} (entry : Except Fault α → Exchange) (x : Act σ α) : Act (σ × List Exchange) α := do
  let s ← getThe (Scene (σ × List Exchange))
  let (r, after) := x.run.run ⟨s.surroundings.1, s.journal⟩
  set (⟨(after.surroundings, s.surroundings.2 ++ [entry r]), after.journal⟩ : Scene (σ × List Exchange))
  match r with
  | .ok a => return a
  | .error f => throw f

/-- The backend whose calls are written down. -/
def observed (b : Backend σ) : Backend (σ × List Exchange) where
  name := b.name
  root := b.root
  shown := b.shown
  create kind name := overhear (.created kind name) (b.create kind name)
  write path content := overhear (.wrote path content) (b.write path content)

/-- The backend fails in no other way than a backend may. -/
structure Reports (b : Backend σ) : Prop where
  create : ∀ {kind name s f s'}, (b.create kind name).run.run s = (.error f, s') → ∃ e, f = .failure (.backend e)
  write : ∀ {path content s f s'}, (b.write path content).run.run s = (.error f, s') → ∃ e, f = .failure (.backend e)

theorem run_overhear {α : Type} (entry : Except Fault α → Exchange) {x : Act σ α} {s s' : Scene σ}
    {r : Except Fault α} (h : x.run.run s = (r, s')) (seen : List Exchange) :
    (overhear entry x).run.run ⟨(s.surroundings, seen), s.journal⟩ =
      (r, ⟨(s'.surroundings, seen ++ [entry r]), s'.journal⟩) := by
  rw [overhear, run_bind, run_get]
  simp only
  rw [h]
  cases r <;> rfl

/-! ### Transcripts -/

/-- The calls that a list of artifacts takes, the paths and sizes of those that got through, and the failure that ended
it, if one did. -/
inductive Transcript : List Artifact → List Exchange → List (Path × Int) → Option BackendFault → Prop
  | finished : Transcript [] [] [] none
  | notCreated (a : Artifact) (rest : List Artifact) (f : BackendFault) :
      Transcript (a :: rest) [.created a.kind a.target (.error (.failure (.backend f)))] [] (some f)
  | notWritten (a : Artifact) (rest : List Artifact) (p : Path) (f : BackendFault) :
      Transcript (a :: rest)
        [.created a.kind a.target (.ok p), .wrote p a.content (.error (.failure (.backend f)))] [] (some f)
  | stored (a : Artifact) (p : Path) (size : Int) {rest : List Artifact} {calls : List Exchange}
      {files : List (Path × Int)} {failure : Option BackendFault} (hrest : Transcript rest calls files failure) :
      Transcript (a :: rest) (.created a.kind a.target (.ok p) :: .wrote p a.content (.ok size) :: calls)
        ((p, size) :: files) failure

/-- The delivery of a backend and that of the observed one are the same, and the calls are those of a transcript. -/
theorem Delivery.observed {b : Backend σ} (hb : Reports b) {s s' : Scene σ} {as : List Artifact}
    {files : List (Path × Int)} {ending : Option Fault} (h : Delivery b s as files ending s') (seen : List Exchange) :
    ∃ calls failure, Transcript as calls files failure ∧ ending = failure.map (fun f => .failure (.backend f)) ∧
      Delivery (Generation.observed b) ⟨(s.surroundings, seen), s.journal⟩ as files ending
        ⟨(s'.surroundings, seen ++ calls), s'.journal⟩ := by
  -- the induction is on the delivery: what is heard of each call stands behind what was heard before
  induction h generalizing seen with
  | finished s => exact ⟨[], none, .finished, rfl, by rw [List.append_nil]; exact .finished _⟩
  | @notCreated s s' a rest f hcreate =>
    obtain ⟨e, rfl⟩ := hb.create hcreate
    exact ⟨_, some e, .notCreated a rest e, rfl, .notCreated (run_overhear _ hcreate seen)⟩
  | @notWritten s s₁ s' a rest p f hcreate hwrite =>
    obtain ⟨e, rfl⟩ := hb.write hwrite
    refine ⟨_, some e, .notWritten a rest p e, rfl, .notWritten (run_overhear _ hcreate seen) ?_⟩
    have hheard := run_overhear (.wrote p a.content) hwrite (seen ++ [.created a.kind a.target (.ok p)])
    rw [List.append_assoc] at hheard
    exact hheard
  | @stored s s₁ s₂ s' a rest p size files ending hcreate hwrite hrest ih =>
    obtain ⟨calls, failure, htranscript, hending, hdelivery⟩ :=
      ih (seen ++ [.created a.kind a.target (.ok p)] ++ [.wrote p a.content (.ok size)])
    refine ⟨_, failure, .stored a p size htranscript, hending, .stored (run_overhear _ hcreate seen)
      (run_overhear _ hwrite _) ?_⟩
    have hlog : seen ++ [.created a.kind a.target (.ok p)] ++ [.wrote p a.content (.ok size)] ++ calls =
        seen ++ .created a.kind a.target (.ok p) :: .wrote p a.content (.ok size) :: calls := by simp
    rw [hlog] at hdelivery
    exact hdelivery

/-! ### Reports -/

/-- The report tells of a delivery: the records of the artifacts that got through, in their order, and the failure. -/
structure Tells (b : Backend σ) (slice : Slice) (files : List (Path × Int)) (fault : Option BackendFault)
    (report : Report) : Prop where
  records : report.manifest.map (·.files) = some (recordsOf b slice.artifacts files)
  failure : report.failure = fault.map Failure.backend
  success : report.success = true ↔ fault = none
  errors : report.errors = (fault.map BackendFault.message).toList

theorem tells_reportOf (b : Backend σ) (started : Moment) (r : Request) (slice : Slice) (files : List (Path × Int))
    (fault : Option BackendFault) :
    Tells b slice files fault (reportOf b started r slice ⟨recordsOf b slice.artifacts files, fault⟩) := by
  refine ⟨rfl, rfl, ?_, rfl⟩
  cases fault <;> simp [reportOf]

/-- Reports are truthful for any backend.  The calls of a run are those of the transcript of its artifacts, the report
tells of that transcript, and to the run it makes no difference that the backend is observed. -/
theorem generate_observed (g : Generator) {b : Backend σ} (hb : Reports b) (v : View) (started : Moment) {r : Request}
    {slice : Slice} (hbuild : g.outcome v r = .ok slice) (s : Session σ) (seen : List Exchange) :
    ∃ calls files fault report after,
      (g.generate (observed b) v started r).run.run ⟨s.history, (s.surroundings, seen), s.journal⟩ =
        (.ok report, ⟨after.history, (after.surroundings, seen ++ calls), after.journal⟩) ∧
      (g.generate b v started r).run.run s = (.ok report, after) ∧
      Transcript slice.artifacts calls files fault ∧ Tells b slice files fault report := by
  obtain ⟨history, added, -, hrun⟩ := run_generate g v r
  rw [hbuild] at hrun
  obtain ⟨files, ending, scene, hdelivery⟩ := exists_delivery b slice.artifacts ⟨s.surroundings, s.journal ++ added⟩
  obtain ⟨calls, fault, htranscript, rfl, hobserved⟩ := hdelivery.observed hb seen
  -- an observed run is the same delivery, so it writes the same records
  have hwriting : writingOf (recordsOf b slice.artifacts files) (fault.map fun f => .failure (.backend f)) =
      .ok ⟨recordsOf b slice.artifacts files, fault⟩ := by cases fault <;> rfl
  have hplain := Delivery.run_deliver (s := ⟨history, s.surroundings, s.journal ++ added⟩) hdelivery started r
  have hseen := Delivery.run_deliver (s := ⟨history, (s.surroundings, seen), s.journal ++ added⟩) hobserved started r
  have hsame : recordsOf (observed b) slice.artifacts files = recordsOf b slice.artifacts files := rfl
  rw [hwriting] at hplain
  rw [hsame, hwriting] at hseen
  refine ⟨calls, files, fault, _, _, ?_, (hrun b started s).trans hplain, htranscript, tells_reportOf b started r _ _ _⟩
  rw [hrun (observed b)]
  exact hseen

/-- A backend that puts everything at one path and takes no form requests. -/
def narrowBackend : Backend Unit where
  name := "narrow"
  root := ⟨.top, []⟩
  shown := Path.toString
  create kind name := if kind = .request then Act.fail (.unnamed kind.label name) else return ⟨.top, ["file"]⟩
  write _ content := return content.length

theorem reports_narrowBackend : Reports narrowBackend where
  create := by
    intro kind name s f s' h
    by_cases hkind : kind = .request
    · subst hkind
      cases h
      exact ⟨_, rfl⟩
    · simp only [narrowBackend, hkind, if_false] at h
      cases h
  write := by
    intro path content s f s' h
    cases h

/-- A run whose backend fails at the fourth artifact. -/
theorem generate_observed_narrow : Reports narrowBackend ∧
    ∃ slice, letterGenerator.outcome ⟨.empty, []⟩ ⟨"Post", "title:string", none⟩ = .ok slice ∧
      ∃ calls files fault report after,
        (letterGenerator.generate (observed narrowBackend) ⟨.empty, []⟩ ⟨2024, 1, 1, 0⟩
          ⟨"Post", "title:string", none⟩).run.run ⟨[.idle], ((), []), []⟩ =
            (.ok report, ⟨after.history, (after.surroundings, [] ++ calls), after.journal⟩) ∧
        (letterGenerator.generate narrowBackend ⟨.empty, []⟩ ⟨2024, 1, 1, 0⟩ ⟨"Post", "title:string", none⟩).run.run
          ⟨[.idle], (), []⟩ = (.ok report, after) ∧
        Transcript slice.artifacts calls files fault ∧ Tells narrowBackend slice files fault report := by
  obtain ⟨slice, hbuild⟩ := exists_of_isOk
    (x := letterGenerator.outcome ⟨.empty, []⟩ ⟨"Post", "title:string", none⟩) (by decide +kernel)
  exact ⟨reports_narrowBackend, slice, hbuild, generate_observed letterGenerator reports_narrowBackend ⟨.empty, []⟩
    ⟨2024, 1, 1, 0⟩ hbuild ⟨[.idle], (), []⟩ []⟩

end CrudScaffold.Generation
