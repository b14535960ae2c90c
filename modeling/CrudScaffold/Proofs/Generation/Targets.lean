import CrudScaffold.Proofs.Backend.Placing
import CrudScaffold.Proofs.Generation.Course

/-!
# CrudScaffold.Proofs.Generation.Targets — no two artifacts of an entity are in each other's way

The files of the classes have names of different lengths, and no class but the model can be named like a migration.
The model cannot be named like the migration of its own table, whose name has ten letters more.  Nothing keeps a model
from having the name of a later migration, but by then an earlier migration has made the migrations directory, and
every later one looks there first.  So each artifact is `Fresh` among those before it (`allFresh_artifacts`).
-/

namespace CrudScaffold.Generation

open CrudScaffold.Backend CrudScaffold.Calendar CrudScaffold.Code CrudScaffold.Naming CrudScaffold.Spec
open CrudScaffold.Template hiding segments

/-- What decides where an artifact goes. -/
abbrev Place := ArtifactKind × String

/-- The place of an artifact. -/
def Artifact.place (a : Artifact) : Place := (a.kind, a.target)

/-- The files of the two places have different names. -/
def Apart (a d : Place) : Prop := ∀ n, FileName a.1 a.2 n → ¬FileName d.1 d.2 n

/-- A place that none of the earlier ones takes: by its name, or because it is that of a migration after another. -/
def Fresh (done : List Place) (a : Place) : Prop :=
  (∀ d ∈ done, Apart a d) ∨ a.1 = .migration ∧ ∃ d ∈ done, d.1 = .migration

/-- Each place is fresh among those before it. -/
def AllFresh (done : List Place) : List Place → Prop
  | [] => True
  | a :: rest => Fresh done a ∧ AllFresh (done ++ [a]) rest

theorem allFresh_migrations {done ms rest : List Place} (hdone : ∃ d ∈ done, d.1 = .migration)
    (hms : ∀ m ∈ ms, m.1 = .migration) (hrest : AllFresh (done ++ ms) rest) : AllFresh done (ms ++ rest) := by
  induction ms generalizing done with
  | nil => simpa using hrest
  | cons m ms ih =>
    obtain ⟨d, hd, hkind⟩ := hdone
    refine ⟨Or.inr ⟨hms m List.mem_cons_self, d, hd, hkind⟩, ?_⟩
    refine ih ⟨d, List.mem_append_left _ hd, hkind⟩ (fun m hm => hms m (List.mem_cons_of_mem _ hm)) ?_
    rw [List.append_assoc]
    exact hrest

/-! ### Names of classes -/

theorem fileName_class {kind : ArtifactKind} {target n : String} {last : List Char} (hkind : kind ≠ .migration)
    (hlast : (segments target.toList).getLast? = some last) :
    FileName kind target n ↔ n = String.ofList last ++ ".php" := by
  rw [FileName, if_neg hkind, hlast]
  simp

theorem isSegment_append {w : List Char} (h : IsSegment w) {suffix : List Char}
    (hsuffix : ∀ c ∈ suffix, isSeparator c = false) : IsSegment (w ++ suffix) := by
  refine ⟨by simp [h.1], fun c hc => ?_⟩
  rcases List.mem_append.1 hc with hc | hc
  · exact h.2 c hc
  · exact hsuffix c hc

/-- The name of the model with something behind it is one segment. -/
theorem segments_of_suffixed {model suffix : String} (h : IsSegment model.toList)
    (hsuffix : suffix.toList.all (fun c => !isSeparator c) = true) :
    segments (model ++ suffix).toList = [model.toList ++ suffix.toList] := by
  have hproper : ∀ c ∈ suffix.toList, isSeparator c = false := fun c hc => by
    simpa using List.all_eq_true.1 hsuffix c hc
  rw [String.toList_append, segments_of_isSegment (isSegment_append h hproper)]

theorem segments_suffixed {model suffix : String} (h : IsSegment model.toList)
    (hsuffix : suffix.toList.all (fun c => !isSeparator c) = true) :
    (segments (model ++ suffix).toList).getLast? = some (model.toList ++ suffix.toList) := by
  rw [segments_of_suffixed h hsuffix]
  rfl

theorem apart_classes {kind kind' : ArtifactKind} {target target' : String} {last last' : List Char}
    (hkind : kind ≠ .migration) (hkind' : kind' ≠ .migration)
    (hlast : (segments target.toList).getLast? = some last) (hlast' : (segments target'.toList).getLast? = some last')
    (hlength : last.length ≠ last'.length) : Apart (kind, target) (kind', target') := by
  intro n hn hn'
  have hn := (fileName_class hkind hlast).1 hn
  have hn' := (fileName_class hkind' hlast').1 hn'
  have hlists := congrArg String.toList (hn.symm.trans hn')
  simp only [String.toList_append, String.toList_ofList, List.append_cancel_right_eq] at hlists
  exact hlength (congrArg List.length hlists)

/-! ### Names of migrations -/

theorem toList_creationName (table : String) :
    (creationName table).toList = "create_".toList ++ table.toList ++ "_table".toList := by
  simp [creationName, String.toList_append, toString]

theorem slash_notMem_creationName {table : String} (h : ∀ c ∈ table.toList, isSnakeChar c = true) :
    '/' ∉ (creationName table).toList := by
  rw [toList_creationName]
  intro hmem
  rcases List.mem_append.1 hmem with hmem | hmem
  · rcases List.mem_append.1 hmem with hmem | hmem
    · exact absurd hmem (by decide)
    · exact absurd (h _ hmem) (by decide)
  · exact absurd hmem (by decide)

theorem class_named_like_migration {kind : ArtifactKind} {target table n : String} {last : List Char}
    (hkind : kind ≠ .migration) (hlast : (segments target.toList).getLast? = some last)
    (hn : FileName kind target n) (hmigration : FileName .migration (creationName table) n) :
    ∃ m : Moment, last = m.stamp.toList ++ '_' :: ("create_".toList ++ table.toList ++ "_table".toList) := by
  rw [FileName, if_pos rfl] at hmigration
  obtain ⟨m, hm⟩ := hmigration
  have hlists := congrArg String.toList (((fileName_class hkind hlast).1 hn).symm.trans hm)
  rw [toList_migrationFile, toList_creationName, String.toList_append, String.toList_ofList, ← List.cons_append,
    ← List.append_assoc] at hlists
  exact ⟨m, List.append_cancel_right hlists⟩

theorem not_named_like_migration {kind : ArtifactKind} {target table n : String} {last : List Char}
    (hkind : kind ≠ .migration) (hlast : (segments target.toList).getLast? = some last)
    (hend : last.getLast? ≠ some 'e') (hn : FileName kind target n) : ¬FileName .migration (creationName table) n := by
  intro hmigration
  obtain ⟨m, hm⟩ := class_named_like_migration hkind hlast hn hmigration
  apply hend
  have hlast : "_table".toList.getLast? = some 'e' := rfl
  rw [hm, ← List.singleton_append, ← List.append_assoc, ← List.append_assoc, List.getLast?_append, hlast]
  rfl

theorem model_apart_table {names : EntityNames} (h : Named names) :
    Apart (.migration, names.migrationName) (.model, names.modelTarget) := by
  intro n hmigration hmodel
  have hkind : ArtifactKind.model ≠ .migration := by decide
  obtain ⟨m, hm⟩ := class_named_like_migration hkind h.target hmodel hmigration
  have hletters := letters_pluralSnake h.table
  have hcreate : letters "create_".toList = 6 := rfl
  have htable : letters "_table".toList = 5 := rfl
  have hmark : ∀ cs, letters ('_' :: cs) = letters cs := fun cs => List.countP_cons_of_neg (by decide)
  rw [hm, letters_append, hmark, letters_append, letters_append, hcreate, htable] at hletters
  omega

/-! ### The places of an entity -/

/-- The place is that of a class whose name is the model's with something behind it. -/
def IsClass (names : EntityNames) (suffix : String) (a : Place) : Prop :=
  a.1 ≠ .migration ∧ (segments a.2.toList).getLast? = some (names.modelName.toList ++ suffix.toList)

theorem fresh_class {names : EntityNames} {suffix : String} {done : List Place} {a : Place}
    (ha : IsClass names suffix a) (hend : (names.modelName.toList ++ suffix.toList).getLast? ≠ some 'e')
    (hdone : ∀ d ∈ done, (∃ table, d = (.migration, creationName table)) ∨
      ∃ shorter, IsClass names shorter d ∧ shorter.toList.length < suffix.toList.length) : Fresh done a := by
  refine Or.inl fun d hd => ?_
  rcases hdone d hd with ⟨table, rfl⟩ | ⟨shorter, hclass, hlength⟩
  · exact fun n hn => not_named_like_migration ha.1 ha.2 hend hn
  · refine apart_classes ha.1 hclass.1 ha.2 hclass.2 ?_
    simp only [List.length_append]
    omega

/-- The places of the artifacts of an entity, in their order. -/
def placesOf (names : EntityNames) (pivots : List PivotTable) : List Place :=
  (.model, names.modelTarget) :: (.migration, names.migrationName) ::
    (pivots.map (fun p => (.migration, p.migrationName)) ++ [(.controller, names.controllerName),
      (.request, names.storeRequestName), (.request, names.updateRequestName)])

theorem allFresh_placesOf {names : EntityNames} (h : Named names) (pivots : List PivotTable) :
    AllFresh [] (placesOf names pivots) := by
  -- one class for each suffix, and suffixes tell them apart
  have hmodel : IsClass names "" (.model, names.modelTarget) := ⟨nofun, by simpa using h.target⟩
  have hcontroller : IsClass names "Controller" (.controller, names.controllerName) :=
    ⟨nofun, by rw [h.controller]; exact segments_suffixed h.model (by decide)⟩
  have hstore : IsClass names "StoreRequest" (.request, names.storeRequestName) :=
    ⟨nofun, by rw [h.storeRequest]; exact segments_suffixed h.model (by decide)⟩
  have hupdate : IsClass names "UpdateRequest" (.request, names.updateRequestName) :=
    ⟨nofun, by rw [h.updateRequest]; exact segments_suffixed h.model (by decide)⟩
  -- what stands before the controller: the model, and migrations only
  have hfirst : ∀ d ∈ [(.model, names.modelTarget), (.migration, names.migrationName)] ++
      pivots.map (fun p => ((.migration, p.migrationName) : Place)),
      (∃ table, d = (.migration, creationName table)) ∨ IsClass names "" d := by
    intro d hd
    simp only [List.mem_append, List.mem_cons, List.not_mem_nil, or_false, List.mem_map] at hd
    rcases hd with (rfl | rfl) | ⟨p, -, rfl⟩
    · exact Or.inr hmodel
    · exact Or.inl ⟨_, rfl⟩
    · exact Or.inl ⟨_, rfl⟩
  refine ⟨Or.inl nofun, Or.inl fun d hd => ?_, allFresh_migrations ⟨_, List.mem_cons_of_mem _ List.mem_cons_self, rfl⟩
    (by simp) ⟨?_, ?_, ?_, trivial⟩⟩
  · obtain rfl := List.mem_singleton.1 hd
    exact model_apart_table h
  · refine fresh_class hcontroller (by simp) fun d hd => (hfirst d hd).imp_right fun hclass => ⟨_, hclass, by decide⟩
  · refine fresh_class hstore (by simp) fun d hd => ?_
    rcases List.mem_append.1 hd with hd | hd
    · exact (hfirst d hd).imp_right fun hclass => ⟨_, hclass, by decide⟩
    · obtain rfl := List.mem_singleton.1 hd
      exact Or.inr ⟨_, hcontroller, by decide⟩
  · refine fresh_class hupdate (by simp) fun d hd => ?_
    rcases List.mem_append.1 hd with hd | hd
    · rcases List.mem_append.1 hd with hd | hd
      · exact (hfirst d hd).imp_right fun hclass => ⟨_, hclass, by decide⟩
      · obtain rfl := List.mem_singleton.1 hd
        exact Or.inr ⟨_, hcontroller, by decide⟩
    · obtain rfl := List.mem_singleton.1 hd
      exact Or.inr ⟨_, hstore, by decide⟩

/-! ### The places of what has been built -/

/-- The artifact is made from the draft: it has its kind, template and target, and the filled template as its text. -/
structure Draft.Gives (renderer : Renderer) (v : View) (d : Draft) (a : Artifact) : Prop where
  kind : a.kind = d.kind
  template : a.template = d.template
  target : a.target = d.target
  content : (renderer.render v d.template.label d.context).start.1 = .ok a.content

/-- Rendering makes one artifact from each draft, in their order. -/
theorem gives_of_rendered {renderer : Renderer} {v : View} {drafts : List Draft} {artifacts : List Artifact}
    (h : (drafts.mapM (Draft.render renderer v)).start.1 = .ok artifacts) :
    List.Forall₂ (Draft.Gives renderer v) drafts artifacts := by
  refine (Logged.start_mapM_ok (appends_draft renderer v) h).imp fun d a hdraft => ?_
  rw [Draft.render, Logged.start_bind_ok fun _ => .pure _] at hdraft
  obtain ⟨content, hcontent, hartifact⟩ := hdraft
  cases hartifact
  exact ⟨rfl, rfl, rfl, hcontent⟩

theorem places_of_rendered {renderer : Renderer} {v : View} {drafts : List Draft} {artifacts : List Artifact}
    (h : (drafts.mapM (Draft.render renderer v)).start.1 = .ok artifacts) :
    artifacts.map Artifact.place = drafts.map fun d => (d.kind, d.target) := by
  have hall := gives_of_rendered h
  clear h
  induction hall with
  | nil => rfl
  | cons hdraft _ ih => rw [List.map_cons, List.map_cons, ih, Artifact.place, hdraft.kind, hdraft.target]

theorem places_of_drafts {names : EntityNames} {fields : List Field} {list : RelationList} {pivots : List PivotTable}
    {drafts : List Draft} (h : draftsFor names fields list pivots = .ok drafts) :
    drafts.map (fun d => (d.kind, d.target)) = placesOf names pivots := by
  obtain ⟨methods, -, rfl⟩ := draftsFor_eq h
  simp [placesOf, modelDraft, tableDraft, pivotDraft, controllerDraft, requestDraft, Function.comp_def]

/-- The artifacts of a slice have the places of its entity and of its join tables. -/
theorem places_of_course {g : Generator} {v : View} {r : Request} {slice : Slice} {history : List Phase}
    (h : Course g v r (.ok slice) history) : ∃ names,
      EntityNames.ofEntity r.entity g.settings.modelNamespace = .ok names ∧
      slice.artifacts.map Artifact.place = placesOf names slice.pivots := by
  cases h with
  | done hparsed hfindings hdrafts hartifacts =>
    exact ⟨_, hparsed.entity, (places_of_rendered hartifacts).trans (places_of_drafts hdrafts)⟩

/-- The artifacts of a slice are fresh, each among those before it, and no migration is named with a slash. -/
theorem allFresh_artifacts {g : Generator} {v : View} {r : Request} {slice : Slice} {history : List Phase}
    (h : Course g v r (.ok slice) history) : AllFresh [] (slice.artifacts.map Artifact.place) ∧
      ∀ a ∈ slice.artifacts, a.kind = .migration → '/' ∉ a.target.toList := by
  cases h with
  | @done names fields list pivots findings drafts artifacts hparsed hfindings hdrafts hartifacts =>
    have hplaces : artifacts.map Artifact.place = placesOf names pivots :=
      (places_of_rendered hartifacts).trans (places_of_drafts hdrafts)
    have hnamed := named_of_ofEntity hparsed.entity
    refine ⟨?_, fun a ha hkind => ?_⟩
    · rw [sliceOf, hplaces]
      exact allFresh_placesOf hnamed pivots
    have hmem : a.place ∈ placesOf names pivots := hplaces ▸ List.mem_map_of_mem ha
    simp only [placesOf, Artifact.place, hkind, List.mem_cons, List.mem_append, List.mem_map, Prod.mk.injEq,
      reduceCtorEq, false_and, or_false, false_or, true_and, List.not_mem_nil] at hmem
    -- the names of migrations are made from names of tables, which have no slash
    rcases hmem with htarget | ⟨p, hp, htarget⟩
    · rw [htarget]
      exact slash_notMem_creationName (isSnakeChar_of_pluralSnake hnamed.table)
    · rw [← htarget]
      rcases (collectFrom_ok hparsed.joinTables).2 p hp with hp | ⟨relation, -, hgives⟩
      · cases hp
      · exact slash_notMem_creationName (isSnakeChar_of_pivotName hgives.name)

end CrudScaffold.Generation
