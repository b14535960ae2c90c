import CrudScaffold.Proofs.Code.Fragments
import CrudScaffold.Proofs.Generation.Course
import CrudScaffold.Proofs.Naming.Segments
import CrudScaffold.Proofs.Spec.RelationTokens
import CrudScaffold.Proofs.Template.Packaged

/-!
# CrudScaffold.Proofs.Generation.Packaged — builds over the packaged templates

The context of every draft has exactly the placeholders that its template declares, so the packaged templates are
always filled: after the parsing nothing can fail, and neither the files nor strictness play a part
(`finish_packaged`).  What the drafts put into the slots comes from the request and the settings; without an opening
brace in these the values are tidy (`tidy_of_drafts`), and so are the artifacts.  `build_packaged` states it for whole
builds.
-/

namespace CrudScaffold.Generation

open CrudScaffold.Checks CrudScaffold.Code CrudScaffold.Naming CrudScaffold.Spec CrudScaffold.Template
open CrudScaffold.Text

/-- The generator of the settings with the packaged templates. -/
def Generator.packaged (s : Settings) : Generator := .ofStore s (.single .packaged)

/-! ### Filling the drafts -/

theorem keys_of_drafts {names : EntityNames} {fields : List Field} {list : RelationList} {pivots : List PivotTable}
    {drafts : List Draft} (h : draftsFor names fields list pivots = .ok drafts) :
    ∀ d ∈ drafts, d.context.map Prod.fst = d.template.placeholders :=
  forall_drafts h (fun _ _ => rfl) rfl (fun _ _ => rfl) rfl rfl rfl

/-- The artifact of a draft whose template is the packaged one. -/
def Draft.filled (d : Draft) : Artifact := ⟨d.kind, d.template, d.target, fill d.context d.template.packaged⟩

theorem mapM_eq_pure {ε α β : Type} {f : α → Logged ε β} {g : α → β} {as : List α} (h : ∀ a ∈ as, f a = pure (g a)) :
    as.mapM f = pure (as.map g) := by
  induction as with
  | nil => rfl
  | cons a as ih =>
    obtain ⟨ha, has⟩ := List.forall_mem_cons.1 h
    rw [List.mapM_cons, ha, ih has, pure_bind, pure_bind]
    rfl

/-- The drafts of a request are all rendered, without a record. -/
theorem render_drafts_packaged (strict : Bool) (v : View) {names : EntityNames} {fields : List Field}
    {list : RelationList} {pivots : List PivotTable} {drafts : List Draft}
    (h : draftsFor names fields list pivots = .ok drafts) :
    drafts.mapM (Draft.render (Renderer.packaged strict) v) = pure (drafts.map Draft.filled) := by
  refine mapM_eq_pure fun d hd => ?_
  rw [Draft.render, render_packaged strict v (covers_of_keys (keys_of_drafts h d hd)), pure_bind]
  rfl

/-- What comes after the parsing when the templates are the packaged ones. -/
def fillDrafts (r : Request) (names : EntityNames) (fields : List Field) (list : RelationList)
    (pivots : List PivotTable) : Building (EntityNames × Slice) := do
  Building.enter .derivingRules
  let findings ← Building.ofLogged (fun f => .failure (.name f)) (reviewRequest fields list.relations list.skipped)
  Building.enter .renderingArtifacts
  let drafts ← Building.need .name (draftsFor names fields list pivots)
  Building.enter .done
  let p ← getThe Progress
  return (names, { sliceOf r fields list pivots findings (drafts.map Draft.filled) with phases := p.history })

theorem finish_packaged (s : Settings) (v : View) (r : Request) (names : EntityNames) (fields : List Field)
    (list : RelationList) (pivots : List PivotTable) :
    (Generator.packaged s).finish v r names fields list pivots = fillDrafts r names fields list pivots := by
  refine bind_congr fun _ => bind_congr fun findings => bind_congr fun _ => ?_
  cases hdrafts : draftsFor names fields list pivots with
  | error e => rfl
  | ok drafts =>
    show Building.ofLogged id (drafts.mapM (Draft.render (Renderer.packaged s.strictPlaceholders) v)) >>= _ = _
    rw [render_drafts_packaged _ v hdrafts]
    rfl

theorem build_packaged_eq (s : Settings) (strict : Bool) (v v' : View) (r : Request) :
    (Generator.packaged { s with strictPlaceholders := strict }).build v r = (Generator.packaged s).build v' r := by
  unfold Generator.build
  rw [work_eq, work_eq]
  simp only [finish_packaged]
  rfl

/-! ### What a build reports -/

namespace Building

variable {ε α : Type} {P : Record → Prop}

theorem emits_enter (phase : Phase) : Emits Progress.journal P (enter phase) := .of_eq fun _ => rfl

theorem emits_restart : Emits Progress.journal P restart := .of_eq fun _ => rfl

theorem emits_note (level : Level) (message : String) :
    Emits Progress.journal (·.channel = .generation) (note level message) := fun _ =>
  ⟨[⟨level, .generation, message⟩], rfl, List.forall_mem_singleton.2 rfl⟩

theorem emits_need (wrap : ε → Failure) (x : Except ε α) : Emits Progress.journal P (need wrap x) := by
  cases x with
  | ok a => exact .pure a
  | error e => exact .throw _

theorem emits_ofLogged (wrap : ε → Fault) {x : Logged ε α} (hx : Emits id P x) :
    Emits Progress.journal P (ofLogged wrap x) := by
  intro p
  obtain ⟨added, hadded, hP⟩ := hx p.journal
  refine ⟨added, ?_, hP⟩
  rw [ofLogged, run_bind, run_get]
  simp only
  rcases hrun : x.run.run p.journal with ⟨e | a, journal⟩
  all_goals
    rw [hrun] at hadded
    exact hadded

end Building

/-- Giving up is reported in the channel of the generation. -/
theorem emits_giveUp {α : Type} (r : Request) (fault : Fault) :
    Emits Progress.journal (·.channel = .generation) (Generator.giveUp r fault : Building α) := by
  rcases fault with f | c
  · exact (Building.emits_enter _).bind fun _ => (Building.emits_note _ _).bind fun _ => .throw _
  · exact .of_eq fun _ => rfl

theorem emits_fillDrafts (r : Request) (names : EntityNames) (fields : List Field) (list : RelationList)
    (pivots : List PivotTable) :
    Emits Progress.journal (·.channel ≠ .templates) (fillDrafts r names fields list pivots) := by
  have hreview := (emits_reviewRequest fields list.relations list.skipped).channel_ne
    (d := .templates) (by decide)
  refine (Building.emits_enter _).bind fun _ => (Building.emits_ofLogged _ hreview).bind fun findings => ?_
  refine (Building.emits_enter _).bind fun _ => (Building.emits_need _ _).bind fun drafts => ?_
  exact (Building.emits_enter _).bind fun _ => (Emits.of_eq fun _ => rfl).bind fun p => .pure _

/-- What a build reports behind its work is about the generation. -/
theorem emits_concluded {c : Channel} (hgeneration : .generation ≠ c) (r : Request) {x : Building (EntityNames × Slice)}
    (hx : Emits Progress.journal (·.channel ≠ c) x) : Emits Progress.journal (·.channel ≠ c) (do
      let built ← tryCatch x (Generator.giveUp r)
      Building.note .info s!"Built {built.2.fileCount} artifact(s) for {built.1.entity} ({built.2.lineCount} line(s))."
      return built.2 : Building Slice) := by
  have hgiveUp := fun fault => (emits_giveUp (α := EntityNames × Slice) r fault).channel_ne hgeneration
  have hnote := fun level message => (Building.emits_note level message).channel_ne hgeneration
  exact (hx.tryCatch hgiveUp).bind fun _ => (hnote _ _).bind fun _ => .pure _

/-- A build reports about the specs and the generation, and where what follows the parsing reports. -/
theorem emits_build_of_finish {c : Channel} (hspecs : .specs ≠ c) (hgeneration : .generation ≠ c) (g : Generator)
    (v : View) (r : Request) (hfinish : ∀ names fields list pivots,
      Emits Progress.journal (·.channel ≠ c) (g.finish v r names fields list pivots)) :
    Emits Progress.journal (·.channel ≠ c) (g.build v r) := by
  have hread := (emits_parseRelations g.settings.strictRelations r.relations).channel_ne hspecs
  have hcollect := fun (names : EntityNames) (list : RelationList) =>
    (emits_collectFrom names.entity [] list.relations).channel_ne hspecs
  -- the steps of the work one after the other
  have hwork : Emits Progress.journal (·.channel ≠ c) (g.work v r) := by
    rw [work_eq]
    refine (Building.emits_enter _).bind fun _ => (Building.emits_need _ _).bind fun names => ?_
    refine (Building.emits_need _ _).bind fun fields => (Building.emits_enter _).bind fun _ => ?_
    refine (Building.emits_ofLogged _ hread).bind fun list => ?_
    exact (Building.emits_ofLogged _ (hcollect names list)).bind fun pivots => hfinish names fields list pivots
  exact Building.emits_restart.bind fun _ => emits_concluded hgeneration r hwork

/-- Over the packaged templates no record of a build comes from the templates. -/
theorem emits_build_packaged (s : Settings) (v : View) (r : Request) :
    Emits Progress.journal (·.channel ≠ .templates) ((Generator.packaged s).build v r) := by
  refine emits_build_of_finish (by decide) (by decide) _ v r fun names fields list pivots => ?_
  rw [finish_packaged]
  exact emits_fillDrafts r names fields list pivots

/-! ### Requests without opening braces -/

/-- Neither the texts of the request nor the namespace of the models have an opening brace. -/
structure Plain (s : Settings) (r : Request) : Prop where
  entity : Braceless r.entity
  fields : Braceless r.fields
  relations : ∀ spec, r.relations = some spec → Braceless spec
  modelNamespace : Braceless s.modelNamespace

/-- The names that go into the code have no opening brace. -/
structure PlainNames (names : EntityNames) : Prop where
  model : Braceless names.modelName
  table : Braceless names.tableName
  modelVariable : Braceless names.modelVariable
  modelNamespace : Braceless names.modelNamespace
  controller : Braceless names.controllerName
  storeRequest : Braceless names.storeRequestName
  updateRequest : Braceless names.updateRequestName

theorem plain_names {given root : String} {names : EntityNames} (h : EntityNames.ofEntity given root = .ok names)
    (hgiven : Braceless given) (hroot : Braceless root) : PlainNames names := by
  obtain ⟨qualifiers, hderived⟩ := ofEntity_ok h
  have hsegments : ∀ s ∈ qualifiers ++ [names.modelName], Braceless s := fun s hs hmem =>
    hgiven (hderived.mem hs hmem)
  obtain ⟨hqualifiers, hmodel⟩ := List.forall_mem_append.1 hsegments
  have hmodel := hmodel _ (List.mem_singleton_self _)
  have hroots := List.forall_mem_cons.2 ⟨hroot, hqualifiers⟩
  exact {
    model := hmodel
    table := braceless_of_isSnakeChar (isSnakeChar_of_pluralSnake hderived.table)
    modelVariable := braceless_of_isAlphanum (isAlphanum_of_camelCase hderived.modelVariable).2
    modelNamespace := hderived.modelNamespace ▸ braceless_intercalate (by decide) hroots
    controller := hderived.controller ▸ braceless_append.2 ⟨hmodel, by decide⟩
    storeRequest := hderived.storeRequest ▸ braceless_append.2 ⟨hmodel, by decide⟩
    updateRequest := hderived.updateRequest ▸ braceless_append.2 ⟨hmodel, by decide⟩ }

/-- What has been parsed has no opening brace. -/
structure PlainParts (names : EntityNames) (fields : List Field) (list : RelationList) (pivots : List PivotTable) :
    Prop where
  names : PlainNames names
  fieldNames : ∀ f ∈ fields, Braceless f.name
  fieldTypes : ∀ f ∈ fields, Braceless f.type
  relations : ∀ r ∈ list.relations, PlainRelation r
  pivots : ∀ p ∈ pivots, Braceless p.name ∧ Braceless p.foreignKey ∧ Braceless p.relatedKey

theorem plain_of_parsed {g : Generator} {r : Request} (hplain : Plain g.settings r) {names : EntityNames}
    {fields : List Field} {list : RelationList} {pivots : List PivotTable}
    (hparsed : Parsed g r names fields list pivots) : PlainParts names fields list pivots := by
  -- without a relation spec there is nothing to have a brace in it
  have hspec : Braceless (r.relations.getD "") := by
    cases hr : r.relations with
    | none => decide
    | some spec => exact hplain.relations spec hr
  have hpart : ∀ rel ∈ list.relations, ∀ part ∈ [rel.related, rel.foreignKey, rel.localKey], Braceless part :=
    fun rel hrel part hpart hmem => hspec (mem_of_parseRelations hparsed.relationSpec hrel hpart hmem)
  have hrelations : ∀ rel ∈ list.relations, PlainRelation rel := fun rel hrel =>
    ⟨hpart rel hrel _ (by simp), hpart rel hrel _ (by simp), hpart rel hrel _ (by simp)⟩
  refine ⟨plain_names hparsed.entity hplain.entity hplain.modelNamespace, fun f hf hmem => ?_, fun f hf hmem => ?_,
    hrelations, fun p hp => ?_⟩
  · -- whatever has been read stood in the specs
    exact hplain.fields (mem_of_parseFields hparsed.fieldSpec hf (Or.inl hmem))
  · exact hplain.fields (mem_of_parseFields hparsed.fieldSpec hf (Or.inr hmem))
  · rcases (collectFrom_ok hparsed.joinTables).2 p hp with hp | ⟨rel, hrel, hgives⟩
    · cases hp
    · rw [hgives.foreignKey, hgives.relatedKey]
      exact ⟨braceless_of_isSnakeChar (isSnakeChar_of_pivotName hgives.name), (hrelations rel hrel).foreignKey,
        (hrelations rel hrel).localKey⟩

/-- What such parts put into the slots is tidy. -/
theorem tidy_of_drafts {names : EntityNames} {fields : List Field} {list : RelationList} {pivots : List PivotTable}
    (hparts : PlainParts names fields list pivots) {drafts : List Draft}
    (h : draftsFor names fields list pivots = .ok drafts) : ∀ d ∈ drafts, ∀ entry ∈ d.context, Tidy entry.2 := by
  have hnames := hparts.names
  have hrules : ∀ flavour, Tidy (RuleSet.ofFields flavour fields).text := fun flavour =>
    (braceless_rules hparts.fieldNames hparts.fieldTypes).tidy
  refine forall_drafts h ?_ ?_ ?_ ?_ ?_ ?_
  · intro methods hmethods
    simp [modelDraft, hnames.modelNamespace.tidy, hnames.model.tidy, hnames.table.tidy,
      (braceless_fillableList hparts.fieldNames).tidy, tidy_relationMethods hparts.relations hmethods]
  · simp [tableDraft, hnames.table.tidy, (braceless_columnCalls hparts.fieldNames hparts.fieldTypes).tidy]
  · intro p hp
    obtain ⟨htable, hforeign, hrelated⟩ := hparts.pivots p hp
    simp [pivotDraft, htable.tidy, hforeign.tidy, hrelated.tidy]
  · simp [controllerDraft, hnames.modelNamespace.tidy, hnames.model.tidy, hnames.modelVariable.tidy,
      hnames.controller.tidy, hnames.storeRequest.tidy, hnames.updateRequest.tidy]
  · simp [requestDraft, hnames.storeRequest.tidy, hrules]
  · simp [requestDraft, hnames.updateRequest.tidy, hrules]

/-! ### Whole builds -/

theorem render_draft_ne_error (s : Settings) (v : View) {names : EntityNames} {fields : List Field}
    {list : RelationList} {pivots : List PivotTable} {drafts : List Draft}
    (h : draftsFor names fields list pivots = .ok drafts) {draft : Draft} (hdraft : draft ∈ drafts) (f : Fault) :
    ((Generator.packaged s).renderer.render v draft.template.label draft.context).start.1 ≠ .error f := by
  have hpure := render_packaged s.strictPlaceholders v (covers_of_keys (keys_of_drafts h draft hdraft))
  intro hf
  have hf : ((Renderer.packaged s.strictPlaceholders).render v draft.template.label draft.context).start.1 =
    .error f := hf
  rw [hpure] at hf
  cases hf

/-- How a build over the packaged templates ends: with the filled drafts of a request that has been parsed, or, if it
cannot be parsed, with the fault of a name or of one of the specs. -/
theorem course_packaged {s : Settings} {v : View} {r : Request} {outcome : Except Fault Slice} {history : List Phase}
    (h : Course (.packaged s) v r outcome history) :
    (∃ names fields list pivots drafts slice, Parsed (.packaged s) r names fields list pivots ∧
      draftsFor names fields list pivots = .ok drafts ∧ outcome = .ok slice ∧
      slice.artifacts = drafts.map Draft.filled) ∨
    ((¬ ∃ names fields list pivots, Parsed (.packaged s) r names fields list pivots) ∧
      ∃ f, outcome = .error (.failure f) ∧ f.notice.kind ∈ [.name, .fieldSpec, .relationSpec]) := by
  -- a course stops at what cannot be read: the packaged templates are never at fault
  cases h with
  | badEntity hnames =>
    refine Or.inr ⟨?_, _, rfl, by simp [Failure.notice, Notice.about]⟩
    rintro ⟨names, fields, list, pivots, hparsed⟩
    cases hnames.symm.trans hparsed.entity
  | badFields hnames hfields =>
    refine Or.inr ⟨?_, _, rfl, by simp [Failure.notice, Notice.about]⟩
    rintro ⟨names, fields, list, pivots, hparsed⟩
    cases hfields.symm.trans hparsed.fieldSpec
  | badRelations hnames hfields hlist =>
    refine Or.inr ⟨?_, _, rfl, by simp [Failure.notice, Notice.about]⟩
    rintro ⟨names, fields, list, pivots, hparsed⟩
    cases hlist.symm.trans hparsed.relationSpec
  | badPivot hnames hfields hlist hpivots =>
    refine Or.inr ⟨?_, _, rfl, by simp [Failure.notice, Notice.about]⟩
    rintro ⟨names, fields, list, pivots, hparsed⟩
    obtain rfl := Except.ok.inj (hnames.symm.trans hparsed.entity)
    obtain rfl := Except.ok.inj (hlist.symm.trans hparsed.relationSpec)
    cases hpivots.symm.trans hparsed.joinTables
  | badTemplate hparsed hdrafts hdraft hfault => exact absurd hfault (render_draft_ne_error s v hdrafts hdraft _)
  | crash hparsed hdrafts hdraft hfault => exact absurd hfault (render_draft_ne_error s v hdrafts hdraft _)
  | done hparsed hfindings hdrafts hartifacts =>
    refine Or.inl ⟨_, _, _, _, _, _, hparsed, hdrafts, rfl, ?_⟩
    have hpure := render_drafts_packaged s.strictPlaceholders v hdrafts
    have hartifacts := (congrArg (fun x => x.start.1) hpure).symm.trans hartifacts
    exact (Except.ok.inj hartifacts).symm

/-- Builds over the packaged templates, for all settings and requests.  A build gives the same and reports the same
whether placeholders are strict or not, whatever the files are and whatever was built before.  It succeeds exactly when
the request can be parsed, and fails with the fault of a name, of the field spec or of the relation spec otherwise;
nothing it reports comes from the templates.  If no text of the request has an opening brace, and neither has the
namespace of the models, then two opening braces never stand side by side in an artifact. -/
theorem build_packaged (s : Settings) (r : Request) : ∃ outcome history added,
    (∀ strict v p, ((Generator.packaged { s with strictPlaceholders := strict }).build v r).run.run p =
      (outcome, ⟨history, p.journal ++ added⟩)) ∧
    ((∃ slice, outcome = .ok slice) ↔
      ∃ names fields list pivots, Parsed (.packaged s) r names fields list pivots) ∧
    ((∃ slice, outcome = .ok slice) ∨
      ∃ f, outcome = .error (.failure f) ∧ f.notice.kind ∈ [.name, .fieldSpec, .relationSpec]) ∧
    (∀ entry ∈ added, entry.channel ≠ .templates) ∧
    (Plain s r → ∀ slice, outcome = .ok slice → ∀ a ∈ slice.artifacts, ¬ ['\x7b', '\x7b'] <:+: a.content.toList) := by
  obtain ⟨history, added, hcourse, hrun⟩ := run_build (Generator.packaged s) ⟨.empty, []⟩ r
  have hways := course_packaged hcourse
  refine ⟨(Generator.packaged s).outcome ⟨.empty, []⟩ r, history, added, fun strict v p => ?_, ?_, ?_, ?_, ?_⟩
  · -- the templates do not look at the files, nor at the strictness
    rw [build_packaged_eq s strict v ⟨.empty, []⟩, hrun p]
  · rcases hways with ⟨names, fields, list, pivots, drafts, slice, hparsed, -, hslice, -⟩ | ⟨hnone, f, hf, -⟩
    · exact ⟨fun _ => ⟨names, fields, list, pivots, hparsed⟩, fun _ => ⟨slice, hslice⟩⟩
    · refine ⟨?_, fun h => absurd h hnone⟩
      rintro ⟨slice, hslice⟩
      cases hf.symm.trans hslice
  · rcases hways with ⟨_, _, _, _, _, slice, -, -, hslice, -⟩ | ⟨-, hf⟩
    · exact Or.inl ⟨slice, hslice⟩
    · exact Or.inr hf
  · obtain ⟨added', hadded, hchannel⟩ := emits_build_packaged s ⟨.empty, []⟩ r Progress.start
    rw [hrun Progress.start] at hadded
    exact List.append_cancel_left hadded ▸ hchannel
  · -- the values are tidy, so the filled texts have no double braces
    intro hplain slice hslice a ha
    rcases hways with ⟨names, fields, list, pivots, drafts, slice', hparsed, hdrafts, hslice', hartifacts⟩ |
      ⟨-, f, hf, -⟩
    · obtain rfl := Except.ok.inj (hslice'.symm.trans hslice)
      rw [hartifacts] at ha
      obtain ⟨d, hd, rfl⟩ := List.mem_map.1 ha
      have hcovers := covers_of_keys (keys_of_drafts hdrafts d hd)
      have htidy := tidy_of_drafts (plain_of_parsed hplain hparsed) hdrafts d hd
      exact (tidy_fill_packaged hcovers htidy).no_double
    · cases hf.symm.trans hslice

/-- A plain request with a qualified name and a join table. -/
def postRequest : Request := ⟨"Admin/Post", "title:string", some "belongsToMany:Tag:post_id:tag_id"⟩

theorem parsed_postRequest : Parsed (.packaged .default) postRequest
    ⟨"Admin/Post", "Post", "Admin/Post", "App\\Models\\Admin", "post", "posts", "PostController", "PostStoreRequest",
      "PostUpdateRequest"⟩
    [⟨"title", "string"⟩] ⟨[⟨.belongsToMany, "Tag", "post_id", "tag_id"⟩], []⟩
    [⟨"post_tag", "post_id", "tag_id", "Tag"⟩] where
  entity := by decide
  fieldSpec := by decide
  relationSpec := by decide
  joinTables := by decide

/-- The request is built, strict or not, and no artifact, of which there are some, has two opening braces side by
side. -/
theorem build_packaged_post : Plain .default postRequest ∧ ∃ slice history added,
    (∀ strict v p, ((Generator.packaged { Settings.default with strictPlaceholders := strict }).build v
      postRequest).run.run p = (.ok slice, ⟨history, p.journal ++ added⟩)) ∧
    slice.artifacts ≠ [] ∧ ∀ a ∈ slice.artifacts, ¬ ['\x7b', '\x7b'] <:+: a.content.toList := by
  have hplain : Plain .default postRequest := by
    refine ⟨braceless_ofList (by decide), braceless_ofList (by decide), ?_, braceless_ofList (by decide)⟩
    rintro spec ⟨⟩
    exact braceless_ofList (by decide)
  obtain ⟨outcome, history, added, hrun, hiff, -, -, htidy⟩ := build_packaged .default postRequest
  obtain ⟨slice, rfl⟩ := hiff.2 ⟨_, _, _, _, parsed_postRequest⟩
  refine ⟨hplain, slice, history, added, hrun, ?_, htidy hplain slice rfl⟩
  have hsettings : { Settings.default with strictPlaceholders := false } = Settings.default := rfl
  have hstart := hrun false ⟨.empty, []⟩ .start
  rw [hsettings] at hstart
  have houtcome : (Generator.packaged .default).outcome ⟨.empty, []⟩ postRequest = .ok slice := by
    rw [Generator.outcome, hstart]
  obtain ⟨_, _, hcourse, -⟩ := run_build (.packaged .default) ⟨.empty, []⟩ postRequest
  rw [houtcome] at hcourse
  rcases course_packaged hcourse with ⟨_, _, _, _, _, _, -, hdrafts, hslice, hartifacts⟩ | ⟨hnone, -⟩
  · obtain ⟨methods, -, rfl⟩ := draftsFor_eq hdrafts
    rw [Except.ok.inj hslice, hartifacts]
    exact List.cons_ne_nil _ _
  · exact absurd ⟨_, _, _, _, parsed_postRequest⟩ hnone

end CrudScaffold.Generation
