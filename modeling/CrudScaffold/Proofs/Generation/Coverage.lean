import CrudScaffold.Proofs.Generation.Packaged
import CrudScaffold.Proofs.Generation.Sessions
import CrudScaffold.Proofs.Generation.Targets
import CrudScaffold.Proofs.Spec.JoinTables
import Mathlib.Data.List.Nodup

/-!
# CrudScaffold.Proofs.Generation.Coverage — the join tables of a model have their migrations

The name of a join table is formed twice: where the tables are collected, and again in the method of each relation
that needs one.  Both come to the same names (`served_of_relation`), and since no name is collected twice, one
migration stands for each (`countP_migrations`).  Of the records of a build only the collecting tells of a table that
is there already (`journal_of_parsed`), so there is one notice for each relation that shares a table with an earlier
one.
-/

namespace CrudScaffold.Generation

open CrudScaffold.Backend CrudScaffold.Checks CrudScaffold.Code CrudScaffold.Naming CrudScaffold.Spec
open CrudScaffold.Template

/-! ### One migration for each join table -/

theorem targets_of_template {renderer : Renderer} {v : View} {drafts : List Draft} {artifacts : List Artifact}
    (h : List.Forall₂ (Draft.Gives renderer v) drafts artifacts) (t : TemplateName) :
    (artifacts.filter (·.template = t)).map Artifact.target = (drafts.filter (·.template = t)).map Draft.target := by
  induction h with
  | nil => rfl
  | @cons d a _ _ hdraft _ ih =>
    rw [List.filter_cons, List.filter_cons, hdraft.template]
    split
    · rw [List.map_cons, List.map_cons, ih, hdraft.target]
    · exact ih

/-- The drafts of the join tables are the only ones with the template of their migrations. -/
theorem filter_pivotMigration {names : EntityNames} {fields : List Field} {methods : String}
    {pivots : List PivotTable} {creation update : RuleSet} :
    (([modelDraft names fields methods, tableDraft names fields] ++ pivots.map pivotDraft ++
      [controllerDraft names, requestDraft .storeRequest names.storeRequestName creation,
        requestDraft .updateRequest names.updateRequestName update]).filter (·.template = .pivotMigration)) =
      pivots.map pivotDraft := by
  have hpivots : (pivots.map pivotDraft).filter (·.template = .pivotMigration) = pivots.map pivotDraft :=
    List.filter_eq_self.2 (List.forall_mem_map.2 fun _ _ => by simp [pivotDraft])
  rw [List.filter_append, List.filter_append, hpivots]
  simp [modelDraft, tableDraft, controllerDraft, requestDraft]

theorem creationName_injective : Function.Injective creationName := by
  intro t t' h
  have hlists := congrArg String.toList h
  rw [toList_creationName, toList_creationName, List.append_left_inj, List.append_right_inj] at hlists
  exact String.toList_inj.1 hlists

/-- Among migrations of different tables there is one for each table. -/
theorem countP_migrations {artifacts : List Artifact} {pivots : List PivotTable}
    (h : artifacts.map Artifact.target = pivots.map PivotTable.migrationName)
    (hnodup : (pivots.map PivotTable.name).Nodup) {name : String} (hname : name ∈ pivots.map PivotTable.name) :
    artifacts.countP (·.target = creationName name) = 1 := by
  have htargets : artifacts.map Artifact.target = (pivots.map PivotTable.name).map creationName := by
    rw [h, List.map_map]
    rfl
  have hcount : artifacts.countP (·.target = creationName name) =
      (artifacts.map Artifact.target).count (creationName name) := by
    rw [List.count, List.countP_map]
    exact List.countP_congr fun a _ => by simp
  rw [hcount, htargets]
  exact List.count_eq_one_of_mem (hnodup.map creationName_injective) (List.mem_map_of_mem hname)

/-! ### The methods of the model -/

/-- The method of a relation that needs a join table names one of the tables, for which the slice has one migration;
the method of any other relation names none. -/
inductive Served (entity : String) (slice : Slice) (r : Relation) (text : String) : Prop
  | joined {accessor name : String} (hkind : r.kind = .belongsToMany) (haccessor : r.accessor = .ok accessor)
      (hname : pivotName entity r.related = .ok name) (htext : text = methodText accessor r (some name))
      (htable : name ∈ slice.pivots.map PivotTable.name)
      (honce : (slice.artifactsFor .pivotMigration).countP (·.target = creationName name) = 1) :
      Served entity slice r text
  | direct {accessor : String} (hkind : r.kind ≠ .belongsToMany) (haccessor : r.accessor = .ok accessor)
      (htext : text = methodText accessor r none) : Served entity slice r text

/-- The tables of a slice are those of its relations, and each has its migration. -/
structure Joined (entity : String) (slice : Slice) : Prop where
  tables : slice.pivots = (firsts (wanted entity slice.relations)).map tableOf
  migrations : (slice.artifactsFor .pivotMigration).map Artifact.target =
    slice.pivots.map PivotTable.migrationName

namespace Joined

variable {entity : String} {slice : Slice}

theorem map_name (h : Joined entity slice) :
    slice.pivots.map PivotTable.name = (firsts (wanted entity slice.relations)).map Prod.fst := by
  rw [h.tables, List.map_map]
  rfl

/-- A relation's method names the table that has been collected for it. -/
theorem served (h : Joined entity slice) {r : Relation} (hr : r ∈ slice.relations) {text : String}
    (htext : relationMethod entity r = .ok text) : Served entity slice r text := by
  obtain ⟨accessor, haccessor, ⟨hneeds, name, hname, htext⟩ | ⟨hneeds, htext⟩⟩ := relationMethod_ok htext
  · have hwanted : (name, r) ∈ wanted entity slice.relations := mem_wanted.2 ⟨hr, hneeds, hname⟩
    obtain ⟨first, hfirst, hfst⟩ := exists_mem_firsts hwanted
    have htable : name ∈ slice.pivots.map PivotTable.name := by
      rw [h.map_name]
      exact List.mem_map.2 ⟨first, hfirst, hfst⟩
    have hnodup : (slice.pivots.map PivotTable.name).Nodup := h.map_name ▸ nodup_firsts _
    exact .joined (needsPivot_iff.1 hneeds) haccessor hname htext htable
      (countP_migrations h.migrations hnodup htable)
  · have hkind : r.kind ≠ .belongsToMany := fun hkind => by
      rw [needsPivot_iff.2 hkind] at hneeds
      cases hneeds
    exact .direct hkind haccessor htext

/-- A table has its keys from the first relation that needs a table of its name. -/
theorem first (h : Joined entity slice) {t : PivotTable} (ht : t ∈ slice.pivots) : ∃ before r after,
    wanted entity slice.relations = before ++ (t.name, r) :: after ∧ t.name ∉ before.map Prod.fst ∧
      t = tableOf (t.name, r) := by
  rw [h.tables] at ht
  obtain ⟨⟨name, r⟩, hfirst, rfl⟩ := List.mem_map.1 ht
  obtain ⟨before, after, hsplit, hbefore⟩ := split_of_mem_firsts hfirst
  exact ⟨before, r, after, hsplit, hbefore, rfl⟩

theorem needed (h : Joined entity slice) {a : Artifact} (ha : a ∈ slice.artifactsFor .pivotMigration) :
    ∃ r ∈ slice.relations, r.kind = .belongsToMany ∧
      ∃ name, pivotName entity r.related = .ok name ∧ a.target = creationName name := by
  have htarget : a.target ∈ slice.pivots.map PivotTable.migrationName := h.migrations ▸ List.mem_map_of_mem ha
  obtain ⟨t, ht, htarget⟩ := List.mem_map.1 htarget
  obtain ⟨before, r, after, hsplit, -, -⟩ := h.first ht
  have hwanted : (t.name, r) ∈ wanted entity slice.relations := by simp [hsplit]
  obtain ⟨hr, hneeds, hname⟩ := mem_wanted.1 hwanted
  exact ⟨r, hr, needsPivot_iff.1 hneeds, t.name, hname, htarget.symm⟩

/-- There are as many tables and repeated entries as relations that need a table. -/
theorem length_eq (h : Joined entity slice) :
    (repeats (wanted entity slice.relations)).length + slice.pivots.length =
      (wanted entity slice.relations).length := by
  have hlength := (perm_firsts_repeats (wanted entity slice.relations)).length_eq
  rw [List.length_append] at hlength
  rw [h.tables, List.length_map]
  omega

end Joined

/-! ### What a build reports -/

/-- After the parsing only the reviews and the templates report. -/
theorem emits_finish {c : Channel} (hchecks : .checks ≠ c) (htemplates : .templates ≠ c) (g : Generator) (v : View)
    (r : Request) (names : EntityNames) (fields : List Field) (list : RelationList) (pivots : List PivotTable) :
    Emits Progress.journal (·.channel ≠ c) (g.finish v r names fields list pivots) := by
  have hreview := (emits_reviewRequest fields list.relations list.skipped).channel_ne hchecks
  have hrender : ∀ drafts : List Draft,
      Emits id (·.channel ≠ c) (drafts.mapM (Draft.render g.renderer v)) := fun drafts =>
    Emits.mapM fun d => ((emits_render _ _ _ _).channel_ne htemplates).bind fun _ => .pure _
  refine (Building.emits_enter _).bind fun _ => (Building.emits_ofLogged _ hreview).bind fun findings => ?_
  refine (Building.emits_enter _).bind fun _ => (Building.emits_need _ _).bind fun drafts => ?_
  refine (Building.emits_ofLogged _ (hrender drafts)).bind fun artifacts => ?_
  exact (Building.emits_enter _).bind fun _ => (Emits.of_eq fun _ => rfl).bind fun p => .pure _

/-- The records of a build of a request that can be parsed: those of the reading, those of the collecting, and none
from the specs after them. -/
theorem journal_of_parsed {g : Generator} {r : Request} {names : EntityNames} {fields : List Field}
    {list : RelationList} {pivots : List PivotTable} (hparsed : Parsed g r names fields list pivots) (v : View)
    (p : Progress) : ∃ rest, ((g.build v r).run.run p).2.journal =
      p.journal ++ (parseRelations g.settings.strictRelations r.relations).start.2 ++
        (collectPivots names.entity list.relations).start.2 ++ rest ∧ ∀ entry ∈ rest, entry.channel ≠ .specs := by
  -- what comes after the parsing
  let tail : Building Slice := do
    let built ← tryCatch (g.finish v r names fields list pivots) (Generator.giveUp r)
    Building.note .info s!"Built {built.2.fileCount} artifact(s) for {built.1.entity} ({built.2.lineCount} line(s))."
    return built.2
  have htail : Emits Progress.journal (·.channel ≠ .specs) tail :=
    emits_concluded (by decide) r (emits_finish (by decide) (by decide) g v r names fields list pivots)
  have hbuild : (g.build v r).run.run p = tail.run.run ⟨[.idle, .parsingFields, .parsingRelations],
      p.journal ++ (parseRelations g.settings.strictRelations r.relations).start.2 ++
        (collectPivots names.entity list.relations).start.2⟩ := by
    simp only [Generator.build, tail, run_bind, run_tryCatch, Building.run_restart, run_work_parsed hparsed]
  rw [hbuild]
  exact htail _

/-- The notices of a build are those of the relations whose join table is there already. -/
theorem notices_of_parsed {g : Generator} {r : Request} {names : EntityNames} {fields : List Field}
    {list : RelationList} {pivots : List PivotTable} (hparsed : Parsed g r names fields list pivots) {v : View}
    {p : Progress} {added : Journal} (h : ((g.build v r).run.run p).2.journal = p.journal ++ added) :
    added.filter isRepeatNotice = (repeats (wanted names.entity list.relations)).map repeatNotice := by
  obtain ⟨rest, hjournal, hrest⟩ := journal_of_parsed hparsed v p
  rw [h, List.append_assoc, List.append_assoc, List.append_cancel_left_eq] at hjournal
  -- reading the relations does not speak of join tables
  have hread : ((parseRelations g.settings.strictRelations r.relations).start.2).filter isRepeatNotice = [] := by
    rw [List.filter_eq_nil_iff]
    cases hblank : Text.isAllBlank (r.relations.getD "") with
    | true =>
      rw [parseRelations_of_blank _ hblank]
      exact nofun
    | false =>
      intro entry hentry
      have hsorts := (parseRelations_ok_iff hblank).1 (Prod.ext hparsed.relationSpec rfl)
      simp [hsorts.isRepeatNotice entry hentry]
  have hcollected := (start_collectPivots hparsed.joinTables).2
  have hnotices : ((repeats (wanted names.entity list.relations)).map repeatNotice).filter isRepeatNotice =
      (repeats (wanted names.entity list.relations)).map repeatNotice :=
    List.filter_eq_self.2 (List.forall_mem_map.2 fun entry _ => isRepeatNotice_repeatNotice entry)
  have hlast : rest.filter isRepeatNotice = [] := by
    rw [List.filter_eq_nil_iff]
    intro entry hentry
    simp [isRepeatNotice, hrest entry hentry]
  rw [hjournal, List.filter_append, List.filter_append, hread, hcollected, hnotices, hlast, List.nil_append,
    List.append_nil]

/-! ### Whole builds -/

/-- The join tables of every request that is built.  Their names are the distinct names that the relations of kind
`belongsToMany` need, in the order of their first occurrence, and each table has the keys and the related entity of
the first relation with its name.  In the text of methods that the model is given, the method of each such relation
names a table for which there is exactly one migration, and no migration of a join table is there for anything else.
The artifacts are the model, the migration of the table, those of the join tables in their order, the controller and
the two form requests.  The build reports each relation whose table is there already, and reports it once. -/
theorem join_tables_covered {g : Generator} {v : View} {r : Request} {slice : Slice} (h : g.outcome v r = .ok slice) :
    ∃ names texts, Parsed g r names slice.fields ⟨slice.relations, slice.skipped⟩ slice.pivots ∧
      slice.pivots.map PivotTable.name = ((wanted names.entity slice.relations).map Prod.fst).eraseDups ∧
      (∀ t ∈ slice.pivots, ∃ before first after,
        wanted names.entity slice.relations = before ++ (t.name, first) :: after ∧
          t.name ∉ before.map Prod.fst ∧ t = ⟨t.name, first.foreignKey, first.localKey, first.related⟩) ∧
      relationMethods names.entity slice.relations = .ok (String.join texts) ∧
      List.Forall₂ (Served names.entity slice) slice.relations texts ∧
      (∀ a ∈ slice.artifactsFor .pivotMigration, ∃ relation ∈ slice.relations, relation.kind = .belongsToMany ∧
        ∃ name, pivotName names.entity relation.related = .ok name ∧ a.target = creationName name) ∧
      List.Forall₂ (Draft.Gives g.renderer v)
        ([modelDraft names slice.fields (String.join texts), tableDraft names slice.fields] ++
          slice.pivots.map pivotDraft ++
          [controllerDraft names, requestDraft .storeRequest names.storeRequestName slice.creation,
            requestDraft .updateRequest names.updateRequestName slice.update]) slice.artifacts ∧
      ∀ p, ∃ added, (g.build v r).run.run p = (.ok slice, ⟨slice.phases, p.journal ++ added⟩) ∧
        added.filter isRepeatNotice = (repeats (wanted names.entity slice.relations)).map repeatNotice ∧
        (added.filter isRepeatNotice).length + slice.pivots.length =
          (wanted names.entity slice.relations).length := by
  obtain ⟨history, added, hcourse, hrun⟩ := run_build g v r
  rw [h] at hcourse
  cases hcourse with
  | @done names fields list pivots findings drafts artifacts hparsed hfindings hdrafts hartifacts =>
    obtain ⟨methods, hmethods, rfl⟩ := draftsFor_eq hdrafts
    obtain ⟨texts, htexts, hjoin⟩ := bind_eq_ok.1 hmethods
    obtain rfl := Except.ok.inj hjoin
    have hgives := gives_of_rendered hartifacts
    -- tables and migrations come from the same relations
    have hjoined : Joined names.entity (sliceOf r fields list pivots findings artifacts) := by
      refine ⟨(start_collectPivots hparsed.joinTables).1, (targets_of_template hgives .pivotMigration).trans ?_⟩
      rw [filter_pivotMigration, List.map_map]
      rfl
    have hserved : List.Forall₂ (Served names.entity (sliceOf r fields list pivots findings artifacts))
        list.relations texts :=
      List.forall₂_iff_get.2 ⟨(forall₂_of_mapM htexts).length_eq, fun i hi hi' =>
        hjoined.served (List.get_mem _ _) ((forall₂_of_mapM htexts).get hi hi')⟩
    have hnames : pivots.map PivotTable.name = ((wanted names.entity list.relations).map Prod.fst).eraseDups :=
      hjoined.map_name.trans (map_fst_firsts _)
    refine ⟨names, texts, hparsed, hnames, fun t ht => hjoined.first ht, hmethods, hserved,
      fun a ha => hjoined.needed ha, hgives, fun p => ?_⟩
    have hjournal : ((g.build v r).run.run p).2.journal = p.journal ++ added := by rw [hrun p]
    have hnotices := notices_of_parsed hparsed hjournal
    refine ⟨added, by rw [hrun p, h]; rfl, hnotices, ?_⟩
    rw [hnotices, List.length_map]
    exact hjoined.length_eq

/-- A request of which two relations share a join table. -/
def taggedRequest : Request := ⟨"Post", "title:string", some
  "belongsToMany:Tag:post_id:tag_id,hasMany:Comment:post_id:id,belongsToMany:App/Tags:p:t"⟩

/-- The second relation with the table `post_tag` is reported, and there is one migration of a join table. -/
theorem join_tables_covered_tagged : ∃ slice, letterGenerator.outcome noFiles taggedRequest = .ok slice ∧
    slice.pivots = [⟨"post_tag", "post_id", "tag_id", "Tag"⟩] ∧
    (slice.artifactsFor .pivotMigration).length = 1 ∧ slice.artifacts.length = 6 ∧
    ∃ added, (letterGenerator.build noFiles taggedRequest).run.run .start = (.ok slice, ⟨slice.phases, added⟩) ∧
      (added.filter isRepeatNotice).length = 1 := by
  have hseen : (letterGenerator.outcome noFiles taggedRequest).map
      (fun s => (s.pivots, (s.artifactsFor .pivotMigration).length, s.artifacts.length, s.relations)) =
      .ok ([⟨"post_tag", "post_id", "tag_id", "Tag"⟩], 1, 6,
        [⟨.belongsToMany, "Tag", "post_id", "tag_id"⟩, ⟨.hasMany, "Comment", "post_id", "id"⟩,
          ⟨.belongsToMany, "App/Tags", "p", "t"⟩]) := by decide +kernel
  cases hslice : letterGenerator.outcome noFiles taggedRequest with
  | error e =>
    rw [hslice] at hseen
    cases hseen
  | ok slice =>
    rw [hslice] at hseen
    obtain ⟨hpivots, hone, hsix, hrelations⟩ : _ ∧ _ ∧ _ ∧ _ := by simpa [Except.map] using hseen
    obtain ⟨names, texts, hparsed, -, -, -, -, -, -, hbuilds⟩ := join_tables_covered hslice
    obtain ⟨added, hrun, -, hlength⟩ := hbuilds .start
    have hnames : (EntityNames.ofEntity "Post" Settings.default.modelNamespace).map EntityNames.entity =
        .ok "Post" := by decide
    have hentity : EntityNames.ofEntity "Post" Settings.default.modelNamespace = .ok names := hparsed.entity
    rw [hentity] at hnames
    have hpost : names.entity = "Post" := Except.ok.inj hnames
    have hwanted : (wanted "Post" [⟨.belongsToMany, "Tag", "post_id", "tag_id"⟩,
        ⟨.hasMany, "Comment", "post_id", "id"⟩, ⟨.belongsToMany, "App/Tags", "p", "t"⟩]).length = 2 := by
      decide
    rw [hpost, hrelations, hwanted, hpivots] at hlength
    exact ⟨slice, rfl, hpivots, hone, hsix, added, hrun, Nat.add_right_cancel hlength⟩

end CrudScaffold.Generation
