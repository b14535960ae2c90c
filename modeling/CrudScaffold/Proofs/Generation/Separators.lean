import CrudScaffold.Proofs.Generation.Course
import CrudScaffold.Proofs.Naming.Segments
import CrudScaffold.Proofs.Text.Cutting

/-!
# CrudScaffold.Proofs.Generation.Separators — spellings of one qualified name

Leading, trailing, doubled and mixed separators make no difference, nor do blanks around the name: only the `pieces` of
a name count.  Two names with the same pieces are both refused, or they give the same names but for the entity itself
(`ofEntity_congr`).  Then the build of a request with the one is that of a request with the other, step by step
(`work_congr`).
-/

namespace CrudScaffold.Naming

open CrudScaffold.Text

/-- The texts between the separators of a name without the blanks around it, the empty ones left out. -/
def pieces (name : String) : List (List Char) :=
  ((trim name.toList).splitOnP isSeparator).filter fun w => !w.isEmpty

/-- The segments of a text are what a split at each separator gives, without the empty texts.  The induction is on the
length: the text up to its first separator is one segment or none. -/
theorem segments_eq_splitOnP (cs : List Char) : segments cs = (cs.splitOnP isSeparator).filter fun w => !w.isEmpty := by
  -- the induction is on the length: a piece, the separator behind it, and the shorter rest
  induction hlength : cs.length using Nat.strongRecOn generalizing cs with
  | ind n ih =>
    obtain ⟨front, back, rfl, hfront, hback⟩ := exists_scan (fun c => !isSeparator c) cs
    have hclean : ∀ c ∈ front, isSeparator c = false := fun c hc => by simpa using hfront c hc
    have hpiece : segments front = (front.splitOnP isSeparator).filter fun w => !w.isEmpty := by
      rw [List.splitOnP_eq_singleton hclean]
      cases front with
      | nil => rfl
      | cons c front => exact segments_of_isSegment ⟨List.cons_ne_nil c front, hclean⟩
    cases back with
    | nil => rwa [List.append_nil]
    | cons sep rest =>
      have hsep : isSeparator sep = true := by simpa using hback sep rfl
      have hshorter : rest.length < n := by
        rw [← hlength, List.length_append, List.length_cons]
        omega
      rw [List.splitOnP_append_cons front rest hsep, List.filter_append, ← hpiece, ← ih _ hshorter rest rfl]
      exact blocks_append_cons (fun _ _ _ _ => rfl) front (by simp [hsep]) rest

theorem segments_eq_pieces (name : String) : segments (trim name.toList) = pieces name := segments_eq_splitOnP _

end CrudScaffold.Naming

namespace CrudScaffold.Generation

open CrudScaffold.Code CrudScaffold.Naming CrudScaffold.Spec CrudScaffold.Text
open CrudScaffold.Template hiding segments

/-! ### The names of an entity -/

theorem ofEntity_of_derived {given root : String} {names : EntityNames} {qualifiers : List String}
    (h : Derived given root names qualifiers) : EntityNames.ofEntity given root = .ok names := by
  refine bind_eq_ok.2 ⟨_, h.entity, bind_eq_ok.2 ⟨_, h.model, bind_eq_ok.2 ⟨_, h.front, bind_eq_ok.2 ⟨_, h.table,
    bind_eq_ok.2 ⟨_, h.modelVariable, ?_⟩⟩⟩⟩⟩
  rw [← h.target, ← h.modelNamespace, ← h.controller, ← h.storeRequest, ← h.updateRequest]
  rfl

/-- What follows from a name follows from every other one with the same pieces. -/
theorem Derived.respelled {given given' root : String} {names : EntityNames} {qualifiers : List String}
    (h : Derived given root names qualifiers) (hsame : pieces given = pieces given') :
    Derived given' root { names with entity := strip given' } qualifiers := by
  have hsegments : segments (trim names.entity.toList) = segments (trim (strip given').toList) := by
    rw [require_ok h.entity, toList_strip, trim_trim, trim_trim, segments_eq_pieces, segments_eq_pieces, hsame]
  have hbase := h.model
  have hne : trim given'.toList ≠ [] := by
    intro hnil
    rw [baseName_eq_ok_iff, hsegments, toList_strip, hnil] at hbase
    cases hbase
  refine { h with entity := ?_, model := ?_, front := ?_ }
  · rw [require, nameChars_of_ne_nil hne]
    rfl
  · rwa [baseName_eq_ok_iff, ← hsegments, ← baseName_eq_ok_iff]
  · rw [qualifier, nameChars_of_ne_nil (by rwa [toList_strip, trim_trim]), qualifier_ok h.front, hsegments]
    rfl

/-- Names with the same pieces are accepted together, and then all that follows from them is the same. -/
theorem ofEntity_congr {given given' : String} (h : pieces given = pieces given') (root : String) :
    (∃ names, EntityNames.ofEntity given root = .ok names ∧
      EntityNames.ofEntity given' root = .ok { names with entity := strip given' }) ∨
    ∃ fault fault', EntityNames.ofEntity given root = .error fault ∧
      EntityNames.ofEntity given' root = .error fault' := by
  cases hnames : EntityNames.ofEntity given root with
  | ok names =>
    obtain ⟨qualifiers, hderived⟩ := ofEntity_ok hnames
    exact Or.inl ⟨names, rfl, ofEntity_of_derived (hderived.respelled h)⟩
  | error fault =>
    cases hnames' : EntityNames.ofEntity given' root with
    | error fault' => exact Or.inr ⟨fault, fault', rfl, rfl⟩
    | ok names' =>
      obtain ⟨qualifiers, hderived⟩ := ofEntity_ok hnames'
      rw [ofEntity_of_derived (hderived.respelled h.symm)] at hnames
      cases hnames

/-! ### What a build makes of the entity -/

theorem collectFrom_congr {entity entity' : String} (h : pivotPart entity = pivotPart entity')
    (known : List PivotTable) (rs : List Relation) : collectFrom entity known rs = collectFrom entity' known rs := by
  induction rs generalizing known with
  | nil => rfl
  | cons r rs ih =>
    have hname : pivotName entity r.related = pivotName entity' r.related := by rw [pivotName, pivotName, h]
    simp only [collectFrom, hname, ih]

theorem relationMethod_congr {entity entity' : String} (h : pivotPart entity = pivotPart entity') :
    relationMethod entity = relationMethod entity' := by
  funext r
  have hname : pivotName entity r.related = pivotName entity' r.related := by rw [pivotName, pivotName, h]
  simp only [relationMethod, relationArguments, hname]

theorem draftsFor_congr {names : EntityNames} {entity' : String} (h : pivotPart names.entity = pivotPart entity')
    (fields : List Field) (list : RelationList) (pivots : List PivotTable) :
    draftsFor { names with entity := entity' } fields list pivots = draftsFor names fields list pivots := by
  have hmethods : relationMethods entity' list.relations = relationMethods names.entity list.relations := by
    rw [relationMethods, relationMethods, relationMethod_congr h]
  simp only [draftsFor, draftsOf, hmethods]
  rfl

/-- What a build gives, with the entity spelt as in another request. -/
def respelt (r : Request) (built : EntityNames × Slice) : EntityNames × Slice :=
  ({ built.1 with entity := strip r.entity }, { built.2 with request := r })

theorem finish_congr {names : EntityNames} (g : Generator) (v : View) (r : Request) {r' : Request}
    (h : pivotPart names.entity = pivotPart (strip r'.entity)) (fields : List Field) (list : RelationList)
    (pivots : List PivotTable) :
    g.finish v r' { names with entity := strip r'.entity } fields list pivots =
      respelt r' <$> g.finish v r names fields list pivots := by
  simp only [Generator.finish, draftsFor_congr h, map_bind]
  rfl

theorem work_congr {r r' : Request} {names : EntityNames} {g : Generator} (v : View)
    (hnames : EntityNames.ofEntity r.entity g.settings.modelNamespace = .ok names)
    (hnames' : EntityNames.ofEntity r'.entity g.settings.modelNamespace = .ok { names with entity := strip r'.entity })
    (h : pivotPart names.entity = pivotPart (strip r'.entity)) (hfields : r.fields = r'.fields)
    (hrelations : r.relations = r'.relations) : g.work v r' = respelt r' <$> g.work v r := by
  rw [work_eq, work_eq, hnames, hnames', ← hfields, ← hrelations]
  simp only [Building.need, map_bind, pure_bind, collectPivots, collectFrom_congr h, finish_congr g v r h]

theorem outcome_congr {r r' : Request} {g : Generator} {v : View}
    (h : g.work v r' = respelt r' <$> g.work v r) :
    g.outcome v r' = (g.outcome v r).map fun slice => { slice with request := r' } := by
  simp only [Generator.outcome, Generator.build, run_bind, run_tryCatch, Building.run_restart, h, run_map]
  rcases (g.work v r).run.run ⟨[.idle], Progress.start.journal⟩ with ⟨(f | c) | ⟨names, slice⟩, p⟩ <;> rfl

theorem outcome_of_badEntity {g : Generator} {r : Request} {e : NameFault}
    (h : EntityNames.ofEntity r.entity g.settings.modelNamespace = .error e) (v : View) :
    g.outcome v r = .error (.failure (.name e)) := by
  have hwork : (g.work v r).run.run ⟨[.idle], []⟩ = (.error (.failure (.name e)), ⟨[.idle, .parsingFields], []⟩) := by
    rw [work_eq, Building.run_enter_bind, h, Building.run_need_error]
    rfl
  simp only [Generator.outcome, Generator.build, Progress.start, run_bind, run_tryCatch, Building.run_restart, hwork,
    run_giveUp_failure]

/-! ### Two spellings -/

/-- The faults are of one class: failures of one class, or the same crash. -/
def SameClass : Fault → Fault → Prop
  | .failure f, .failure f' => f.notice.kind = f'.notice.kind
  | .crash c, .crash c' => c = c'
  | _, _ => False

theorem sameClass_refl (f : Fault) : SameClass f f := by cases f <;> rfl

theorem outcome_respelled {r r' : Request} (h : pieces r.entity = pieces r'.entity) (hfields : r.fields = r'.fields)
    (hrelations : r.relations = r'.relations) (g : Generator) (v : View) :
    (∃ slice, g.outcome v r = .ok slice ∧ g.outcome v r' = .ok { slice with request := r' }) ∨
    ∃ fault fault', g.outcome v r = .error fault ∧ g.outcome v r' = .error fault' ∧ SameClass fault fault' := by
  rcases ofEntity_congr h g.settings.modelNamespace with ⟨names, hnames, hnames'⟩ | ⟨e, e', he, he'⟩
  · obtain ⟨qualifiers, hderived⟩ := ofEntity_ok hnames
    have hpart : pivotPart names.entity = pivotPart (strip r'.entity) := by
      rw [pivotPart, pivotPart, hderived.model, (hderived.respelled h).model]
    rw [outcome_congr (work_congr v hnames hnames' hpart hfields hrelations)]
    cases g.outcome v r with
    | ok slice => exact Or.inl ⟨slice, rfl, rfl⟩
    | error fault => exact Or.inr ⟨fault, fault, rfl, rfl, sameClass_refl fault⟩
  · exact Or.inr ⟨_, _, outcome_of_badEntity he v, outcome_of_badEntity he' v, rfl⟩

/-- **The spelling of the separators does not matter.**  Two names with the same pieces give the same names but for the
entity itself, or are both refused.  With the same specs for the fields and the relations, whatever has been built
before, they are built to slices that differ in the request only, or end with faults of one class. -/
theorem separators_irrelevant (given given' : String) (h : pieces given = pieces given') :
    (∀ root, (∃ names names', EntityNames.ofEntity given root = .ok names ∧
        EntityNames.ofEntity given' root = .ok names' ∧ names' = { names with entity := names'.entity }) ∨
      ∃ fault fault', EntityNames.ofEntity given root = .error fault ∧
        EntityNames.ofEntity given' root = .error fault') ∧
    ∀ (g : Generator) (v : View) (fields : String) (relations : Option String) (p p' : Progress),
      (∃ slice slice', ((g.build v ⟨given, fields, relations⟩).run.run p).1 = .ok slice ∧
        ((g.build v ⟨given', fields, relations⟩).run.run p').1 = .ok slice' ∧
          slice' = { slice with request := slice'.request }) ∨
      ∃ fault fault', ((g.build v ⟨given, fields, relations⟩).run.run p).1 = .error fault ∧
        ((g.build v ⟨given', fields, relations⟩).run.run p').1 = .error fault' ∧ SameClass fault fault' := by
  constructor
  · intro root
    rcases ofEntity_congr h root with ⟨names, hnames, hnames'⟩ | hrefused
    · exact Or.inl ⟨names, _, hnames, hnames', rfl⟩
    · exact Or.inr hrefused
  · intro g v fields relations p p'
    obtain ⟨_, _, -, hrun⟩ := run_build g v ⟨given, fields, relations⟩
    obtain ⟨_, _, -, hrun'⟩ := run_build g v ⟨given', fields, relations⟩
    rw [hrun, hrun']
    -- the two requests differ in the entity only
    rcases @outcome_respelled ⟨given, fields, relations⟩ ⟨given', fields, relations⟩ h rfl rfl g v with
      ⟨slice, hslice, hslice'⟩ | hfaults
    · exact Or.inl ⟨slice, _, hslice, hslice', rfl⟩
    · exact Or.inr hfaults

/-- A qualified name, and the same with blanks around it, a separator at each end, and doubled and mixed ones. -/
theorem separators_irrelevant_post :
    pieces "Admin/Blog/Post" = pieces " \\Admin//Blog\\/Post/ " ∧
    (∃ names names', EntityNames.ofEntity "Admin/Blog/Post" "App" = .ok names ∧
      EntityNames.ofEntity " \\Admin//Blog\\/Post/ " "App" = .ok names' ∧
      names' = { names with entity := "\\Admin//Blog\\/Post/" } ∧ names.modelNamespace = "App\\Admin\\Blog") ∧
    ∃ slice slice',
      ((letterGenerator.build ⟨.empty, []⟩
        ⟨"Admin/Blog/Post", "title:string", some "belongsToMany:Tag:a:b"⟩).run.run .start).1 = .ok slice ∧
      ((letterGenerator.build ⟨.empty, []⟩
        ⟨" \\Admin//Blog\\/Post/ ", "title:string", some "belongsToMany:Tag:a:b"⟩).run.run .start).1 = .ok slice' ∧
      slice'.artifacts = slice.artifacts ∧ slice'.pivots = slice.pivots ∧ slice'.warnings = slice.warnings := by
  have hpieces : pieces "Admin/Blog/Post" = pieces " \\Admin//Blog\\/Post/ " := by decide
  obtain ⟨hnames, hbuild⟩ := separators_irrelevant _ _ hpieces
  have hgiven : EntityNames.ofEntity "Admin/Blog/Post" "App" = .ok ⟨"Admin/Blog/Post", "Post", "Admin/Blog/Post",
      "App\\Admin\\Blog", "post", "posts", "PostController", "PostStoreRequest", "PostUpdateRequest"⟩ := by
    decide
  have hentity : require " \\Admin//Blog\\/Post/ " = .ok "\\Admin//Blog\\/Post/" := by decide
  refine ⟨hpieces, ?_, ?_⟩
  · rcases hnames "App" with ⟨names, names', h, h', hsame⟩ | ⟨fault, fault', h, -⟩
    · -- the entity keeps its own spelling; all other names agree
      obtain ⟨qualifiers, hderived⟩ := ofEntity_ok h'
      have hspelt := Except.ok.inj (hderived.entity.symm.trans hentity)
      obtain rfl := Except.ok.inj (hgiven.symm.trans h)
      exact ⟨_, names', hgiven, h', hspelt ▸ hsame, rfl⟩
    · rw [hgiven] at h
      cases h
  · obtain ⟨slice, hslice⟩ := exists_of_isOk
      (x := letterGenerator.outcome ⟨.empty, []⟩ ⟨"Admin/Blog/Post", "title:string", some "belongsToMany:Tag:a:b"⟩)
      (by decide +kernel)
    rcases hbuild letterGenerator ⟨.empty, []⟩ "title:string" (some "belongsToMany:Tag:a:b") .start .start with
      ⟨slice, slice', h, h', hsame⟩ | ⟨fault, fault', h, -⟩
    · exact ⟨slice, slice', h, h', by rw [hsame], by rw [hsame], by rw [hsame]⟩
    · cases hslice.symm.trans h

end CrudScaffold.Generation
