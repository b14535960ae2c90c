import CrudScaffold.Generation.Build
import CrudScaffold.Proofs.Spec.Relations
import CrudScaffold.Proofs.Template.Rendering

/-!
# CrudScaffold.Proofs.Generation.Course — the course of a build

`Course g v r outcome history` lists the ways in which a build can end, each with its cause and the phases that it
leaves.  Every build goes one of these ways, whatever was built before (`run_build`).  Two steps have no way of their
own: the review and the drafts never fail, since the relations have been read by then.
-/

namespace CrudScaffold.Generation

open CrudScaffold.Code CrudScaffold.Naming CrudScaffold.Spec CrudScaffold.Template CrudScaffold.Checks

/-! ### Steps of a build -/

namespace Building

variable {ε α β : Type}

@[simp] theorem run_restart (p : Progress) : restart.run.run p = (.ok (), ⟨[.idle], p.journal⟩) := rfl

@[simp] theorem run_note (level : Level) (message : String) (p : Progress) :
    (note level message).run.run p = (.ok (), ⟨p.history, p.journal ++ [⟨level, .generation, message⟩]⟩) := rfl

theorem run_enter_bind (phase : Phase) (f : Unit → Building β) (p : Progress) :
    (enter phase >>= f).run.run p = (f ()).run.run ⟨p.history ++ [phase], p.journal⟩ := rfl

theorem run_need_ok (wrap : ε → Failure) (a : α) (f : α → Building β) (p : Progress) :
    (need wrap (.ok a) >>= f).run.run p = (f a).run.run p := rfl

theorem run_need_error (wrap : ε → Failure) (e : ε) (f : α → Building β) (p : Progress) :
    (need wrap (.error e) >>= f).run.run p = (.error (.failure (wrap e)), p) := rfl

theorem run_ofLogged (wrap : ε → Fault) {x : Logged ε α} (hx : x.Appends) (p : Progress) :
    (ofLogged wrap x).run.run p = (x.start.1.mapError wrap, ⟨p.history, p.journal ++ x.start.2⟩) := by
  rw [ofLogged, run_bind, run_get]
  simp only
  rw [hx p.journal]
  rcases x.start with ⟨e | a, added⟩ <;> rfl

theorem run_ofLogged_ok (wrap : ε → Fault) {x : Logged ε α} (hx : x.Appends) {a : α} {added : Journal}
    (h : x.start = (.ok a, added)) (f : α → Building β) (p : Progress) :
    (ofLogged wrap x >>= f).run.run p = (f a).run.run ⟨p.history, p.journal ++ added⟩ := by
  rw [run_bind, run_ofLogged wrap hx, h]
  rfl

theorem run_ofLogged_error (wrap : ε → Fault) {x : Logged ε α} (hx : x.Appends) {e : ε} {added : Journal}
    (h : x.start = (.error e, added)) (f : α → Building β) (p : Progress) :
    (ofLogged wrap x >>= f).run.run p = (.error (wrap e), ⟨p.history, p.journal ++ added⟩) := by
  rw [run_bind, run_ofLogged wrap hx, h]
  rfl

end Building

@[simp] theorem run_giveUp_failure {α : Type} (r : Request) (f : Failure) (p : Progress) :
    (Generator.giveUp r (.failure f) : Building α).run.run p = (.error (.failure f), ⟨p.history ++ [.failed],
      p.journal ++ [⟨.error, .generation, s!"Generation for {Text.display r.entity} failed: {f.message}"⟩]⟩) := rfl

@[simp] theorem run_giveUp_crash {α : Type} (r : Request) (c : Crash) (p : Progress) :
    (Generator.giveUp r (.crash c) : Building α).run.run p = (.error (.crash c), p) := rfl

theorem appends_draft (renderer : Renderer) (v : View) (d : Draft) : (d.render renderer v).Appends :=
  (appends_render renderer v d.template.label d.context).bind fun _ => .pure _

theorem appends_drafts (renderer : Renderer) (v : View) (drafts : List Draft) :
    (drafts.mapM (Draft.render renderer v)).Appends :=
  Logged.Appends.mapM (appends_draft renderer v)

theorem render_of_drafts_error {renderer : Renderer} {v : View} {drafts : List Draft} {f : Fault}
    (h : (drafts.mapM (Draft.render renderer v)).start.1 = .error f) :
    ∃ draft ∈ drafts, (renderer.render v draft.template.label draft.context).start.1 = .error f := by
  obtain ⟨draft, hdraft, h⟩ := Logged.start_mapM_error (appends_draft renderer v) h
  rw [Draft.render, Logged.start_bind_error fun _ => .pure _] at h
  rcases h with h | ⟨content, -, h⟩
  · exact ⟨draft, hdraft, h⟩
  · cases h

/-! ### The ways in which a build ends -/

/-- The phases of a build that succeeds. -/
def allPhases : List Phase :=
  [.idle, .parsingFields, .parsingRelations, .derivingRules, .renderingArtifacts, .done]

/-- The slice of a request, put together from what the phases have given. -/
def sliceOf (r : Request) (fields : List Field) (list : RelationList) (pivots : List PivotTable) (findings : Findings)
    (artifacts : List Artifact) : Slice where
  request := r
  fields := fields
  relations := list.relations
  skipped := list.skipped
  pivots := pivots
  creation := RuleSet.ofFields .creation fields
  update := RuleSet.ofFields .update fields
  artifacts := artifacts
  phases := allPhases
  warnings := findings.warnings.map (·.message)

/-- What the two parsing phases of a build give. -/
structure Parsed (g : Generator) (r : Request) (names : EntityNames) (fields : List Field) (list : RelationList)
    (pivots : List PivotTable) : Prop where
  entity : EntityNames.ofEntity r.entity g.settings.modelNamespace = .ok names
  fieldSpec : parseFields (some r.fields) = .ok fields
  relationSpec : (parseRelations g.settings.strictRelations r.relations).start.1 = .ok list
  joinTables : (collectPivots names.entity list.relations).start.1 = .ok pivots

/-- The drafts of a request that has been parsed. -/
def draftsFor (names : EntityNames) (fields : List Field) (list : RelationList) (pivots : List PivotTable) :
    Except NameFault (List Draft) :=
  draftsOf names fields list.relations pivots (RuleSet.ofFields .creation fields) (RuleSet.ofFields .update fields)

/-- How a build ends: its outcome and the phases of which it leaves the record.  A crash, which only the files of a
store can cause, leaves the build in the phase in which it happens. -/
inductive Course (g : Generator) (v : View) (r : Request) : Except Fault Slice → List Phase → Prop
  | badEntity {e : NameFault} (hnames : EntityNames.ofEntity r.entity g.settings.modelNamespace = .error e) :
      Course g v r (.error (.failure (.name e))) [.idle, .parsingFields, .failed]
  | badFields {names : EntityNames} {e : FieldFault}
      (hnames : EntityNames.ofEntity r.entity g.settings.modelNamespace = .ok names)
      (hfields : parseFields (some r.fields) = .error e) :
      Course g v r (.error (.failure (.fieldSpec e))) [.idle, .parsingFields, .failed]
  | badRelations {names : EntityNames} {fields : List Field} {e : RelationFault}
      (hnames : EntityNames.ofEntity r.entity g.settings.modelNamespace = .ok names)
      (hfields : parseFields (some r.fields) = .ok fields)
      (hlist : (parseRelations g.settings.strictRelations r.relations).start.1 = .error e) :
      Course g v r (.error (.failure (.relationSpec e))) [.idle, .parsingFields, .parsingRelations, .failed]
  | badPivot {names : EntityNames} {fields : List Field} {list : RelationList} {e : NameFault}
      (hnames : EntityNames.ofEntity r.entity g.settings.modelNamespace = .ok names)
      (hfields : parseFields (some r.fields) = .ok fields)
      (hlist : (parseRelations g.settings.strictRelations r.relations).start.1 = .ok list)
      (hpivots : (collectPivots names.entity list.relations).start.1 = .error e) :
      Course g v r (.error (.failure (.name e))) [.idle, .parsingFields, .parsingRelations, .failed]
  | badTemplate {names : EntityNames} {fields : List Field} {list : RelationList} {pivots : List PivotTable}
      {drafts : List Draft} {draft : Draft} {f : Failure} (hparsed : Parsed g r names fields list pivots)
      (hdrafts : draftsFor names fields list pivots = .ok drafts) (hdraft : draft ∈ drafts)
      (hrender : (g.renderer.render v draft.template.label draft.context).start.1 = .error (.failure f)) :
      Course g v r (.error (.failure f))
        [.idle, .parsingFields, .parsingRelations, .derivingRules, .renderingArtifacts, .failed]
  | crash {names : EntityNames} {fields : List Field} {list : RelationList} {pivots : List PivotTable}
      {drafts : List Draft} {draft : Draft} {c : Crash} (hparsed : Parsed g r names fields list pivots)
      (hdrafts : draftsFor names fields list pivots = .ok drafts) (hdraft : draft ∈ drafts)
      (hrender : (g.renderer.render v draft.template.label draft.context).start.1 = .error (.crash c)) :
      Course g v r (.error (.crash c)) [.idle, .parsingFields, .parsingRelations, .derivingRules, .renderingArtifacts]
  | done {names : EntityNames} {fields : List Field} {list : RelationList} {pivots : List PivotTable}
      {findings : Findings} {drafts : List Draft} {artifacts : List Artifact}
      (hparsed : Parsed g r names fields list pivots)
      (hfindings : (reviewRequest fields list.relations list.skipped).start.1 = .ok findings)
      (hdrafts : draftsFor names fields list pivots = .ok drafts)
      (hartifacts : (drafts.mapM (Draft.render g.renderer v)).start.1 = .ok artifacts) :
      Course g v r (.ok (sliceOf r fields list pivots findings artifacts)) allPhases

theorem draftsFor_ok {g : Generator} {r : Request} {names : EntityNames} {fields : List Field} {list : RelationList}
    {pivots : List PivotTable} (h : Parsed g r names fields list pivots) :
    ∃ drafts, draftsFor names fields list pivots = .ok drafts := by
  obtain ⟨methods, hmethods⟩ :=
    relationMethods_ok (fun _ => isUsable_of_parseRelations h.relationSpec) (collectFrom_ok h.joinTables).1
  unfold draftsFor draftsOf
  rw [hmethods]
  exact ⟨_, rfl⟩

/-- The drafts, in their order, with the methods that are generated for the relations. -/
theorem draftsFor_eq {names : EntityNames} {fields : List Field} {list : RelationList} {pivots : List PivotTable}
    {drafts : List Draft} (h : draftsFor names fields list pivots = .ok drafts) :
    ∃ methods, relationMethods names.entity list.relations = .ok methods ∧
      drafts = [modelDraft names fields methods, tableDraft names fields] ++ pivots.map pivotDraft ++
        [controllerDraft names, requestDraft .storeRequest names.storeRequestName (RuleSet.ofFields .creation fields),
          requestDraft .updateRequest names.updateRequestName (RuleSet.ofFields .update fields)] := by
  obtain ⟨methods, hmethods, h⟩ := bind_eq_ok.1 h
  exact ⟨methods, hmethods, (Except.ok.inj h).symm⟩

/-- What holds of each kind of draft holds of all of them. -/
theorem forall_drafts {P : Draft → Prop} {names : EntityNames} {fields : List Field} {list : RelationList}
    {pivots : List PivotTable} {drafts : List Draft} (h : draftsFor names fields list pivots = .ok drafts)
    (hmodel : ∀ methods, relationMethods names.entity list.relations = .ok methods →
      P (modelDraft names fields methods))
    (htable : P (tableDraft names fields)) (hpivots : ∀ p ∈ pivots, P (pivotDraft p))
    (hcontroller : P (controllerDraft names))
    (hstore : P (requestDraft .storeRequest names.storeRequestName (RuleSet.ofFields .creation fields)))
    (hupdate : P (requestDraft .updateRequest names.updateRequestName (RuleSet.ofFields .update fields))) :
    ∀ d ∈ drafts, P d := by
  obtain ⟨methods, hmethods, rfl⟩ := draftsFor_eq h
  refine List.forall_mem_append.2 ⟨List.forall_mem_append.2 ⟨?_, List.forall_mem_map.2 hpivots⟩, ?_⟩
  · simpa using ⟨hmodel methods hmethods, htable⟩
  · simpa using ⟨hcontroller, hstore, hupdate⟩

/-! ### Every build ends in one of these ways -/

/-- The phases that a build enters after its work. -/
def ending {α : Type} : Except Fault α → List Phase
  | .error (.failure _) => [.failed]
  | _ => []

/-- The part of a build that comes after the parsing. -/
def Generator.finish (g : Generator) (v : View) (r : Request) (names : EntityNames) (fields : List Field)
    (list : RelationList) (pivots : List PivotTable) : Building (EntityNames × Slice) := do
  Building.enter .derivingRules
  let findings ← Building.ofLogged (fun f => .failure (.name f)) (reviewRequest fields list.relations list.skipped)
  Building.enter .renderingArtifacts
  let drafts ← Building.need .name (draftsFor names fields list pivots)
  let artifacts ← Building.ofLogged id (drafts.mapM (Draft.render g.renderer v))
  Building.enter .done
  let p ← getThe Progress
  return (names, { sliceOf r fields list pivots findings artifacts with phases := p.history })

/-- The work of a build is the parsing of its three specs, and then the rest. -/
theorem work_eq (g : Generator) (v : View) (r : Request) : g.work v r = (do
    Building.enter .parsingFields
    let names ← Building.need .name (EntityNames.ofEntity r.entity g.settings.modelNamespace)
    let fields ← Building.need .fieldSpec (parseFields (some r.fields))
    Building.enter .parsingRelations
    let list ←
      Building.ofLogged (fun f => .failure (.relationSpec f)) (parseRelations g.settings.strictRelations r.relations)
    let pivots ← Building.ofLogged (fun f => .failure (.name f)) (collectPivots names.entity list.relations)
    g.finish v r names fields list pivots) := rfl

/-- After the parsing only a template can be at fault. -/
theorem run_finish {g : Generator} {r : Request} {names : EntityNames} {fields : List Field} {list : RelationList}
    {pivots : List PivotTable} (hparsed : Parsed g r names fields list pivots) (v : View) :
    ∃ result phases added, Course g v r (result.map Prod.snd) (phases ++ ending result) ∧
      ∀ journal, (g.finish v r names fields list pivots).run.run ⟨[.idle, .parsingFields, .parsingRelations], journal⟩ =
        (result, ⟨phases, journal ++ added⟩) := by
  have hreview := appends_reviewRequest fields list.relations list.skipped
  -- the relations have been read, so the review comes to its end
  obtain ⟨findings, hfindings⟩ :=
    reviewRequest_ok fields list.skipped fun _ => isUsable_of_parseRelations hparsed.relationSpec
  obtain ⟨reviewed, hreviewed⟩ : ∃ reviewed,
      (reviewRequest fields list.relations list.skipped).start = (.ok findings, reviewed) := ⟨_, Prod.ext hfindings rfl⟩
  obtain ⟨drafts, hdrafts⟩ := draftsFor_ok hparsed
  have hrender := appends_drafts g.renderer v drafts
  rcases ha : (drafts.mapM (Draft.render g.renderer v)).start with ⟨f | artifacts, rendered⟩
  · -- a template is at fault, or everything is rendered
    refine ⟨.error f, [.idle, .parsingFields, .parsingRelations, .derivingRules, .renderingArtifacts],
      reviewed ++ rendered, ?_, fun journal => ?_⟩
    · obtain ⟨draft, hdraft, hf⟩ := render_of_drafts_error (congrArg Prod.fst ha)
      cases f with
      | failure f => exact .badTemplate hparsed hdrafts hdraft hf
      | crash c => exact .crash hparsed hdrafts hdraft hf
    · rw [Generator.finish, Building.run_enter_bind, Building.run_ofLogged_ok _ hreview hreviewed,
        Building.run_enter_bind, hdrafts, Building.run_need_ok, Building.run_ofLogged_error _ hrender ha,
        ← List.append_assoc]
      rfl
  · refine ⟨.ok (names, sliceOf r fields list pivots findings artifacts), allPhases, reviewed ++ rendered,
      .done hparsed hfindings hdrafts (congrArg Prod.fst ha), fun journal => ?_⟩
    rw [Generator.finish, Building.run_enter_bind, Building.run_ofLogged_ok _ hreview hreviewed,
      Building.run_enter_bind, hdrafts, Building.run_need_ok, Building.run_ofLogged_ok _ hrender ha,
      Building.run_enter_bind, ← List.append_assoc]
    rfl

/-- The work of a request that can be parsed: its two parsing phases report what reading the relations and collecting
the join tables report. -/
theorem run_work_parsed {g : Generator} {r : Request} {names : EntityNames} {fields : List Field} {list : RelationList}
    {pivots : List PivotTable} (hparsed : Parsed g r names fields list pivots) (v : View) (journal : Journal) :
    (g.work v r).run.run ⟨[.idle], journal⟩ = (g.finish v r names fields list pivots).run.run
      ⟨[.idle, .parsingFields, .parsingRelations],
        journal ++ (parseRelations g.settings.strictRelations r.relations).start.2 ++
          (collectPivots names.entity list.relations).start.2⟩ := by
  have hread := appends_parseRelations g.settings.strictRelations r.relations
  have hcollect : (collectPivots names.entity list.relations).Appends := appends_collectFrom names.entity [] _
  rw [work_eq, Building.run_enter_bind, hparsed.entity, Building.run_need_ok, hparsed.fieldSpec,
    Building.run_need_ok, Building.run_enter_bind,
    Building.run_ofLogged_ok _ hread (Prod.ext hparsed.relationSpec rfl),
    Building.run_ofLogged_ok _ hcollect (Prod.ext hparsed.joinTables rfl)]
  rfl

/-- The work of a build goes one of the ways of `Course`, up to the phase in which it stops. -/
theorem run_work (g : Generator) (v : View) (r : Request) :
    ∃ result phases added, Course g v r (result.map Prod.snd) (phases ++ ending result) ∧
      ∀ journal, (g.work v r).run.run ⟨[.idle], journal⟩ = (result, ⟨phases, journal ++ added⟩) := by
  -- the phases follow one another, and the first fault ends them
  cases hnames : EntityNames.ofEntity r.entity g.settings.modelNamespace with
  | error e =>
    refine ⟨.error (.failure (.name e)), [.idle, .parsingFields], [], .badEntity hnames, fun journal => ?_⟩
    rw [work_eq, Building.run_enter_bind, hnames, Building.run_need_error, List.append_nil]
    rfl
  | ok names =>
  cases hfields : parseFields (some r.fields) with
  | error e =>
    refine ⟨.error (.failure (.fieldSpec e)), [.idle, .parsingFields], [], .badFields hnames hfields,
      fun journal => ?_⟩
    rw [work_eq, Building.run_enter_bind, hnames, Building.run_need_ok, hfields, Building.run_need_error,
      List.append_nil]
    rfl
  | ok fields =>
  have hread := appends_parseRelations g.settings.strictRelations r.relations
  rcases hr : (parseRelations g.settings.strictRelations r.relations).start with ⟨e | list, read⟩
  · refine ⟨.error (.failure (.relationSpec e)), [.idle, .parsingFields, .parsingRelations], read,
      .badRelations hnames hfields (congrArg Prod.fst hr), fun journal => ?_⟩
    rw [work_eq, Building.run_enter_bind, hnames, Building.run_need_ok, hfields, Building.run_need_ok,
      Building.run_enter_bind, Building.run_ofLogged_error _ hread hr]
    rfl
  have hlist : (parseRelations g.settings.strictRelations r.relations).start.1 = .ok list := congrArg Prod.fst hr
  have hcollect : (collectPivots names.entity list.relations).Appends := appends_collectFrom names.entity [] _
  rcases hp : (collectPivots names.entity list.relations).start with ⟨e | pivots, collected⟩
  · refine ⟨.error (.failure (.name e)), [.idle, .parsingFields, .parsingRelations], read ++ collected,
      .badPivot hnames hfields hlist (congrArg Prod.fst hp), fun journal => ?_⟩
    rw [work_eq, Building.run_enter_bind, hnames, Building.run_need_ok, hfields, Building.run_need_ok,
      Building.run_enter_bind, Building.run_ofLogged_ok _ hread hr, Building.run_ofLogged_error _ hcollect hp,
      ← List.append_assoc]
    rfl
  -- all specs have been read; the rest is the work on the templates
  have hparsed : Parsed g r names fields list pivots := ⟨hnames, hfields, hlist, congrArg Prod.fst hp⟩
  obtain ⟨result, phases, added, hcourse, hrun⟩ := run_finish hparsed v
  refine ⟨result, phases, read ++ collected ++ added, hcourse, fun journal => ?_⟩
  rw [run_work_parsed hparsed, hrun, hr, hp, ← List.append_assoc, ← List.append_assoc]

/-- What a build gives: a slice, or the fault that ends it. -/
def Generator.outcome (g : Generator) (v : View) (r : Request) : Except Fault Slice :=
  ((g.build v r).run.run Progress.start).1

/-- Every build ends in one of the ways of `Course`, and in the same one whatever the phases and the journal before:
it starts from `idle`, and adds the same to every journal. -/
theorem run_build (g : Generator) (v : View) (r : Request) : ∃ history added, Course g v r (g.outcome v r) history ∧
    ∀ p, (g.build v r).run.run p = (g.outcome v r, ⟨history, p.journal ++ added⟩) := by
  -- the journal that is handed in only stands in front
  suffices h : ∃ outcome history added, Course g v r outcome history ∧
      ∀ p, (g.build v r).run.run p = (outcome, ⟨history, p.journal ++ added⟩) by
    obtain ⟨outcome, history, added, hcourse, hrun⟩ := h
    have houtcome : g.outcome v r = outcome := congrArg Prod.fst (hrun Progress.start)
    exact ⟨history, added, houtcome ▸ hcourse, houtcome ▸ hrun⟩
  obtain ⟨result, phases, added, hcourse, hwork⟩ := run_work g v r
  rcases result with (f | c) | ⟨names, slice⟩
  · refine ⟨_, _, added ++ [⟨.error, .generation, s!"Generation for {Text.display r.entity} failed: {f.message}"⟩],
      hcourse, fun p => ?_⟩
    simp only [Generator.build, run_bind, run_tryCatch, Building.run_restart, hwork, run_giveUp_failure, Except.map,
      ending, List.append_assoc]
  · refine ⟨_, _, added, hcourse, fun p => ?_⟩
    simp only [Generator.build, run_bind, run_tryCatch, Building.run_restart, hwork, run_giveUp_crash, Except.map,
      ending, List.append_nil]
  · refine ⟨_, _, added ++ [⟨.info, .generation,
      s!"Built {slice.fileCount} artifact(s) for {names.entity} ({slice.lineCount} line(s))."⟩], hcourse, fun p => ?_⟩
    simp only [Generator.build, run_bind, run_tryCatch, Building.run_restart, hwork, Building.run_note, run_pure,
      Except.map, ending, List.append_assoc, List.append_nil]

/-! ### A small generator -/

/-- A generator whose templates are single letters, so that its runs can be evaluated. -/
def letterGenerator : Generator where
  settings := .default
  renderer := ⟨.single (.memory [("model", "m"), ("migration", "t"), ("pivotMigration", "p"), ("controller", "c"),
    ("storeRequest", "s"), ("updateRequest", "u")]), false, []⟩

/-- An outcome that is known to be good. -/
theorem exists_of_isOk {ε α : Type} {x : Except ε α} (h : x.isOk = true) : ∃ a, x = .ok a := by
  cases x with
  | error e => cases h
  | ok a => exact ⟨a, rfl⟩

end CrudScaffold.Generation
