import CrudScaffold.Proofs.Generation.Writing

/-!
# CrudScaffold.Proofs.Generation.Sessions — one generator, many calls

A session makes any number of calls of one generator, some to build and some to generate, and goes on after calls that
fail.  With a store in memory every call leaves the history of its own build (`Passed`), and what its build gives
depends on the generator and the request alone (`steps_sound`).
-/

namespace CrudScaffold.Generation

open CrudScaffold.Backend CrudScaffold.Calendar CrudScaffold.Files CrudScaffold.Naming CrudScaffold.Spec
open CrudScaffold.Template

/-! ### What a build over templates in memory passes through -/

/-- The working phases of a build, in their order. -/
def workingPhases : List Phase := [.parsingFields, .parsingRelations, .derivingRules, .renderingArtifacts]

/-- The working phases up to one of them, which is included. -/
def Phase.upTo (p : Phase) : List Phase := workingPhases.takeWhile (· ≠ p) ++ [p]

/-- The failure arises in the phase, each for its own cause. -/
inductive Arises (g : Generator) (v : View) (r : Request) : Phase → Failure → Prop
  | entity {e : NameFault} (h : EntityNames.ofEntity r.entity g.settings.modelNamespace = .error e) :
      Arises g v r .parsingFields (.name e)
  | fieldSpec {e : FieldFault} (h : parseFields (some r.fields) = .error e) :
      Arises g v r .parsingFields (.fieldSpec e)
  | relationSpec {e : RelationFault}
      (h : (parseRelations g.settings.strictRelations r.relations).start.1 = .error e) :
      Arises g v r .parsingRelations (.relationSpec e)
  | joinTable {names : EntityNames} {list : RelationList} {e : NameFault}
      (hnames : EntityNames.ofEntity r.entity g.settings.modelNamespace = .ok names)
      (hlist : (parseRelations g.settings.strictRelations r.relations).start.1 = .ok list)
      (h : (collectPivots names.entity list.relations).start.1 = .error e) : Arises g v r .parsingRelations (.name e)
  | noTemplate {t : TemplateName} {searched : List String}
      (h : g.renderer.store.get v t.label = .error (.failure (.noTemplate t.label searched))) :
      Arises g v r .renderingArtifacts (.noTemplate t.label searched)
  | noValue {t : TemplateName} {context : Context} {missing : List String}
      (h : (g.renderer.render v t.label context).start.1 = .error (.failure (.noValue t.label missing))) :
      Arises g v r .renderingArtifacts (.noValue t.label missing)

/-- The history that a build leaves: all phases if it succeeds, and they are those of its slice; else the phases up to
the one in which its failure arises, and `failed`. -/
def Passed (g : Generator) (v : View) (r : Request) (outcome : Except Fault Slice) (history : List Phase) : Prop :=
  match outcome with
  | .ok slice => history = .idle :: workingPhases ++ [.done] ∧ slice.phases = history
  | .error fault => ∃ p f, fault = .failure f ∧ Arises g v r p f ∧ history = .idle :: p.upTo ++ [.failed]

theorem arises_of_render {g : Generator} {v : View} {r : Request} (hmem : g.renderer.store.InMemory) {t : TemplateName}
    {context : Context} {fault : Fault} (h : (g.renderer.render v t.label context).start.1 = .error fault) :
    ∃ f, fault = .failure f ∧ Arises g v r .renderingArtifacts f := by
  rcases render_error h with hget | ⟨missing, rfl⟩
  · obtain ⟨searched, rfl⟩ := get_error_of_inMemory hmem hget
    exact ⟨_, rfl, .noTemplate hget⟩
  · exact ⟨_, rfl, .noValue h⟩

theorem passed_of_course {g : Generator} {v : View} {r : Request} (hmem : g.renderer.store.InMemory)
    {outcome : Except Fault Slice} {history : List Phase} (h : Course g v r outcome history) :
    Passed g v r outcome history := by
  cases h with
  | badEntity hnames => exact ⟨.parsingFields, _, rfl, .entity hnames, rfl⟩
  | badFields hnames hfields => exact ⟨.parsingFields, _, rfl, .fieldSpec hfields, rfl⟩
  | badRelations hnames hfields hlist => exact ⟨.parsingRelations, _, rfl, .relationSpec hlist, rfl⟩
  | badPivot hnames hfields hlist hpivots =>
    exact ⟨.parsingRelations, _, rfl, .joinTable hnames hlist hpivots, rfl⟩
  | badTemplate hparsed hdrafts hdraft hrender =>
    obtain ⟨f, hf, harises⟩ := arises_of_render (r := r) hmem hrender
    exact ⟨.renderingArtifacts, f, hf, harises, rfl⟩
  | crash hparsed hdrafts hdraft hrender =>
    obtain ⟨f, hf, -⟩ := arises_of_render (r := r) hmem hrender
    cases hf
  | done hparsed hfindings hdrafts hartifacts => exact ⟨rfl, rfl⟩

/-! ### What a build over templates in memory depends on -/

/-- No files at all. -/
def noFiles : View := ⟨.empty, []⟩

/-- A build looks at the files only for its templates. -/
theorem outcome_of_get {g : Generator} {v v' : View} (h : ∀ template : TemplateName,
    g.renderer.store.get v template.label = g.renderer.store.get v' template.label) (r : Request) :
    g.outcome v r = g.outcome v' r := by
  have hrender : Draft.render g.renderer v = Draft.render g.renderer v' := by
    funext d
    rw [Draft.render, Draft.render, render_of_get (h d.template)]
  unfold Generator.outcome Generator.build Generator.work
  rw [hrender]

theorem outcome_of_inMemory {g : Generator} (hmem : g.renderer.store.InMemory) (v v' : View) (r : Request) :
    g.outcome v r = g.outcome v' r := outcome_of_get (fun template => get_of_inMemory hmem v v' template.label) r

/-! ### Sessions -/

section

variable {σ : Type}

/-- A call of a generator. -/
inductive Job (σ : Type) where
  | build (v : View) (r : Request)
  | generate (b : Backend σ) (v : View) (started : Moment) (r : Request)

/-- What a call gives. -/
inductive Answer where
  | slice (slice : Slice)
  | report (report : Report)

namespace Job

/-- The request of a call. -/
def request : Job σ → Request
  | .build _ r => r
  | .generate _ _ _ r => r

/-- The files as they are at a call. -/
def view : Job σ → View
  | .build v _ => v
  | .generate _ v _ _ => v

/-- Makes a call. -/
def make (g : Generator) : Job σ → Running σ Answer
  | .build v r => do return .slice (← Running.ofBuilding (g.build v r))
  | .generate b v started r => do return .report (← g.generate b v started r)

/-- What a call does once its build has given `outcome`. -/
def goOn (outcome : Except Fault Slice) : Job σ → Running σ Answer
  | .build _ _ => do return .slice (← liftM outcome)
  | .generate b _ started r => do return .report (← deliver b started r (← liftM outcome))

end Job

/-- A call that has been made: the session before and after it, and what it gave. -/
structure Step (σ : Type) where
  before : Session σ
  answer : Except Fault Answer
  after : Session σ

/-- Makes calls one after the other, whether they fail or not. -/
def steps (g : Generator) (s : Session σ) : List (Job σ) → List (Step σ)
  | [] => []
  | job :: jobs =>
    let (answer, after) := (job.make g).run.run s
    ⟨s, answer, after⟩ :: steps g after jobs

/-- A call is a build, and then goes on with what that has given. -/
theorem run_make (g : Generator) (job : Job σ) (s : Session σ) :
    ∃ history added, Course g job.view job.request (g.outcome job.view job.request) history ∧
      (job.make g).run.run s =
        (job.goOn (g.outcome job.view job.request)).run.run ⟨history, s.surroundings, s.journal ++ added⟩ := by
  -- both jobs build first, and only then differ
  cases job with
  | build v r =>
    obtain ⟨history, added, hcourse, hrun⟩ := run_build g v r
    refine ⟨history, added, hcourse, ?_⟩
    rw [Job.make, Job.goOn, run_bind, run_ofBuilding, hrun, run_bind, run_liftExcept]
    rfl
  | generate b v started r =>
    obtain ⟨history, added, hcourse, hrun⟩ := run_generate g v r
    refine ⟨history, added, hcourse, ?_⟩
    rw [Job.make, Job.goOn, run_bind, hrun b started s, run_bind, run_liftExcept]
    simp only [Job.view, Job.request]
    cases g.outcome v r with
    | error f => rfl
    | ok slice => exact (run_bind _ _ _).symm

/-- The phases are those of the build: what comes after it enters none. -/
theorem history_goOn (job : Job σ) (outcome : Except Fault Slice) (s : Session σ) :
    ((job.goOn outcome).run.run s).2.history = s.history := by
  cases job with
  | build v r =>
    rw [Job.goOn, run_bind, run_liftExcept]
    cases outcome <;> rfl
  | generate b v started r =>
    rw [Job.goOn, run_bind, run_liftExcept]
    cases outcome with
    | error f => rfl
    | ok slice =>
      obtain ⟨files, ending, scene, hdelivery⟩ := exists_delivery b slice.artifacts ⟨s.surroundings, s.journal⟩
      simp only [run_bind, hdelivery.run_deliver started r]
      cases writingOf (recordsOf b slice.artifacts files) ending <;> rfl

/-- A step that tells of its own build only. -/
structure Step.Sound (g : Generator) (job : Job σ) (step : Step σ) : Prop where
  history : Passed g job.view job.request (g.outcome noFiles job.request) step.after.history
  /-- From the outcome of the build on, neither the generator nor the calls before play a part. -/
  answer : ∃ journal, (step.answer, step.after) =
    (job.goOn (g.outcome noFiles job.request)).run.run ⟨step.after.history, step.before.surroundings, journal⟩

theorem sound_make {g : Generator} (hmem : g.renderer.store.InMemory) (job : Job σ) (s : Session σ) :
    Step.Sound g job ⟨s, ((job.make g).run.run s).1, ((job.make g).run.run s).2⟩ := by
  obtain ⟨history, added, hcourse, hmake⟩ := run_make g job s
  rw [outcome_of_inMemory hmem job.view noFiles] at hcourse hmake
  have hhistory := history_goOn job (g.outcome noFiles job.request) ⟨history, s.surroundings, s.journal ++ added⟩
  rw [hmake]
  refine ⟨?_, s.journal ++ added, ?_⟩
  · rw [hhistory]
    exact passed_of_course hmem hcourse
  · rw [hhistory]
    rfl

/-- The state machine of a generator over whole sessions: with its templates in memory, every call leaves the history
of its own build and answers by the outcome of that build, whatever was called before. -/
theorem steps_sound {g : Generator} (hmem : g.renderer.store.InMemory) (s : Session σ) (jobs : List (Job σ)) :
    List.Forall₂ (Step.Sound g) jobs (steps g s jobs) := by
  induction jobs generalizing s with
  | nil => exact .nil
  | cons job jobs ih => exact .cons (sound_make hmem job s) (ih _)

/-- A generator with the packaged templates and the settings of a run that sets none. -/
def packagedGenerator : Generator := .ofStore .default (.single .packaged)

/-- A session of which the first call fails for want of a name. -/
theorem steps_sound_packaged : packagedGenerator.renderer.store.InMemory ∧
    List.Forall₂ (Step.Sound packagedGenerator)
      [.build noFiles ⟨" ", "title:string", none⟩, .build noFiles ⟨"Post", "title:string", none⟩]
      (steps packagedGenerator (⟨[], (), []⟩ : Session Unit)
        [.build noFiles ⟨" ", "title:string", none⟩, .build noFiles ⟨"Post", "title:string", none⟩]) := by
  have hmem : packagedGenerator.renderer.store.InMemory := trivial
  exact ⟨hmem, steps_sound hmem _ _⟩

end

end CrudScaffold.Generation
