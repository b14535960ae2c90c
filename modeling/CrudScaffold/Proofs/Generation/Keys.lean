import CrudScaffold.Proofs.Generation.Coverage
import CrudScaffold.Proofs.Template.Quoted

/-!
# CrudScaffold.Proofs.Generation.Keys — the keys of a join table in the generated code

The keys of a `belongsToMany` relation go two ways: into the method of the model, where they are escaped, and into the
slots of the migration of the join table, where they stand between quotes as they are.  The method gives them back
whatever they are (`relationMethod_joined`).  The migration gives them back exactly if both are verbatim
(`foreignId_pivotMigration_iff`).
-/

namespace CrudScaffold.Generation

open CrudScaffold.Code CrudScaffold.Naming CrudScaffold.Spec
open CrudScaffold.Template hiding segments

/-! ### The migration of a join table -/

theorem verbatim_of_pivotName {entity related name : String} (h : pivotName entity related = .ok name) :
    Verbatim name.toList := by
  have hsnake := isSnakeChar_of_pivotName h
  exact verbatim_of_notMem (fun hmem => absurd (hsnake _ hmem) (by decide))
    fun hmem => absurd (hsnake _ hmem) (by decide)

/-- The migration of a join table is code with the name of the table and the keys between quotes. -/
theorem toList_pivotMigration (p : PivotTable) : ∃ c₀ c₁ c₂ c₃ c₄ c₅ rest,
    JoinCode [c₀, c₁, c₂, c₃, c₄, c₅] rest ∧ (pivotDraft p).filled.content.toList =
      writtenPieces [(c₀, p.name), (c₁, p.foreignKey), (c₂, p.relatedKey), (c₃, p.foreignKey), (c₄, p.relatedKey),
        (c₅, p.name)] rest := by
  obtain ⟨slots, rest, hcut, hnames, hcode⟩ := quotedSlots_pivotMigration
  -- the slots of the template, in their order
  match slots, hnames with
  | [(c₀, _), (c₁, _), (c₂, _), (c₃, _), (c₄, _), (c₅, _)], rfl =>
    have htable : (pivotDraft p).context.lookup "pivotTableName" = some p.name := rfl
    have hkey : (pivotDraft p).context.lookup "foreignKey" = some p.foreignKey := rfl
    have hrelated : (pivotDraft p).context.lookup "relatedKey" = some p.relatedKey := rfl
    have hvalues : ∀ name ∈ ["pivotTableName", "foreignKey", "relatedKey", "foreignKey", "relatedKey",
        "pivotTableName"],
        (pivotDraft p).context.lookup name = some (((pivotDraft p).context.lookup name).getD "") := by
      simp [htable, hkey, hrelated]
    have hfill := flatMap_fill_of_quotedSlots hcut hvalues
    simp only [List.map_cons, List.map_nil, htable, hkey, hrelated, Option.getD_some] at hfill
    refine ⟨c₀, c₁, c₂, c₃, c₄, c₅, rest, hcode, ?_⟩
    rw [Draft.filled, fill, String.toList_ofList]
    exact hfill

/-- Verbatim keys are read from both kinds of calls. -/
theorem arguments_pivotMigration {p : PivotTable} (hname : Verbatim p.name.toList)
    (hkey : Verbatim p.foreignKey.toList) (hrelated : Verbatim p.relatedKey.toList) :
    argumentsOf "foreignId" (pivotDraft p).filled.content = some [p.foreignKey, p.relatedKey] ∧
      argumentsOf "primary" (pivotDraft p).filled.content = some [p.foreignKey, p.relatedKey] := by
  obtain ⟨c₀, c₁, c₂, c₃, c₄, c₅, rest, hcode, hcontent⟩ := toList_pivotMigration p
  have hverbatim : ∀ piece ∈ [(c₀, p.name), (c₁, p.foreignKey), (c₂, p.relatedKey), (c₃, p.foreignKey),
      (c₄, p.relatedKey), (c₅, p.name)], Verbatim piece.2.toList := by
    simp [hname, hkey, hrelated]
  have hcodes : ∀ piece ∈ [(c₀, p.name), (c₁, p.foreignKey), (c₂, p.relatedKey), (c₃, p.foreignKey),
      (c₄, p.relatedKey), (c₅, p.name)], '\'' ∉ piece.1 := by
    simpa using hcode.noQuote
  have hopenings : '\'' ∉ "->foreignId(".toList ∧ '\'' ∉ "->primary(".toList := by decide
  rw [argumentsOf, argumentsOf, hcontent]
  constructor
  · -- each opening is followed by the keys, and by nothing else between quotes
    refine (argumentsFrom_pieces hopenings.1 hcodes hverbatim hcode.noQuoteBehind).trans ?_
    simp only [List.map_cons, List.map_nil, hcode.foreignId]
    rfl
  · refine (argumentsFrom_pieces hopenings.2 hcodes hverbatim hcode.noQuoteBehind).trans ?_
    simp only [List.map_cons, List.map_nil, hcode.primary]
    rfl

/-- The keys are read from the calls of `foreignId` exactly if both are verbatim. -/
theorem foreignId_pivotMigration_iff {p : PivotTable} (hname : Verbatim p.name.toList) :
    argumentsOf "foreignId" (pivotDraft p).filled.content = some [p.foreignKey, p.relatedKey] ↔
      Verbatim p.foreignKey.toList ∧ Verbatim p.relatedKey.toList := by
  refine ⟨fun h => ?_, fun ⟨hkey, hrelated⟩ => (arguments_pivotMigration hname hkey hrelated).1⟩
  obtain ⟨c₀, c₁, c₂, c₃, c₄, c₅, rest, hcode, hcontent⟩ := toList_pivotMigration p
  have hopening : '\'' ∉ "->foreignId(".toList := by decide
  have h : argumentsFrom "->foreignId(".toList false (pivotDraft p).filled.content.toList =
    some [p.foreignKey, p.relatedKey] := h
  obtain ⟨hquotes, -, hbackslashes, hforeign, -⟩ := hcode
  -- the code between the slots, piece by piece
  simp only [List.tail_cons, List.forall_mem_cons] at hquotes hbackslashes
  simp only [openedAt, List.cons.injEq] at hforeign
  obtain ⟨hquote₀, hquote₁, hquote₂, hquote₃, -⟩ := hquotes
  obtain ⟨-, hbackslash₂, hbackslash₃, -⟩ := hbackslashes
  obtain ⟨hclosed, hopened₁, hopened₂, -⟩ := hforeign
  rw [hclosed] at hopened₁ hopened₂
  rw [hopened₁] at hopened₂
  -- the name of the table is passed over, then each key is read and has to be itself
  rw [hcontent, argumentsFrom_writtenPieces hopening hquote₀, hclosed, argumentsFrom_verbatim hname,
    Option.map_eq_some_iff] at h
  obtain ⟨_, h, rfl⟩ := h
  obtain ⟨hkey, h⟩ := verbatim_of_writtenPieces hopening hquote₁ hopened₁ hquote₂ hbackslash₂ h
  obtain ⟨hrelated, -⟩ := verbatim_of_writtenPieces hopening hquote₂ hopened₂ hquote₃ hbackslash₃ h
  exact ⟨hkey, hrelated⟩

/-! ### The method of the model -/

theorem infix_fill {context : Context} {template name value : String} (hslot : name ∈ placeholdersOf template)
    (hvalue : context.lookup name = some value) : value.toList <:+: (fill context template).toList := by
  obtain ⟨m, hpiece, rfl⟩ := mem_placeholdersOf.1 hslot
  have hfill : (Segment.marker m).fill context = value.toList := by simp only [Segment.fill, hvalue]
  rw [fill, String.toList_ofList, ← hfill, List.flatMap]
  exact List.infix_of_mem_flatten (List.mem_map_of_mem hpiece)

theorem relations_mem_placeholdersOf : "relations" ∈ placeholdersOf TemplateName.model.packaged := by
  have hpiece : .marker ⟨[], "relations".toList, []⟩ ∈ Template.segments TemplateName.model.packaged.toList := by
    simp only [TemplateName.packaged, modelText, toList_textOfLines, toList_slot, String.toList_append,
      List.flatMap_cons, List.flatMap_nil]
    repeat rw [String.toList_ofList]
    decide
  exact mem_placeholdersOf.2 ⟨_, hpiece, String.ofList_toList⟩

theorem infix_model {names : EntityNames} {fields : List Field} {texts : List String} {text : String}
    (htext : text ∈ texts) : text.toList <:+: (modelDraft names fields (String.join texts)).filled.content.toList := by
  have hjoin : text.toList <:+: (String.join texts).toList := by
    rw [String.toList_join, List.flatMap]
    exact List.infix_of_mem_flatten (List.mem_map_of_mem htext)
  exact hjoin.trans (infix_fill relations_mem_placeholdersOf rfl)

/-- The method of a relation that needs a join table, with the literals of its call. -/
theorem relationMethod_joined {entity table text : String} {r : Relation} (hkind : r.kind = .belongsToMany)
    (hname : pivotName entity r.related = .ok table) (h : relationMethod entity r = .ok text) :
    ∃ accessor, r.accessor = .ok accessor ∧
      text = "\n    public function " ++ accessor ++ "()\n    \x7b\n        return $this->belongsToMany(" ++
        r.relatedClass ++ "::class, " ++ ", ".intercalate ([table, r.foreignKey, r.localKey].map quote) ++
          ");\n    \x7d\n" := by
  obtain ⟨accessor, haccessor, ⟨-, name, hname', htext⟩ | ⟨hneeds, -⟩⟩ := relationMethod_ok h
  · obtain rfl := Except.ok.inj (hname'.symm.trans hname)
    refine ⟨accessor, haccessor, ?_⟩
    have hcall : "()\n    \x7b\n        return $this->belongsToMany(" =
        "()\n    \x7b\n        return $this->" ++ RelationKind.belongsToMany.label ++ "(" := by decide
    have harguments : ", ".intercalate ((r.relatedClass ++ "::class") :: [name, r.foreignKey, r.localKey].map quote) =
        r.relatedClass ++ "::class, " ++ ", ".intercalate ([name, r.foreignKey, r.localKey].map quote) := by
      simp [← String.toList_inj]
    have htext : text = "\n    public function " ++ accessor ++ "()\n    \x7b\n        return $this->" ++
        r.kind.label ++ "(" ++ ", ".intercalate ((r.relatedClass ++ "::class") ::
          [name, r.foreignKey, r.localKey].map quote) ++ ");\n    \x7d\n" := htext
    rw [htext, hkind, harguments, hcall]
    simp only [String.append_assoc]
  · rw [needsPivot_iff.2 hkind] at hneeds
    cases hneeds

/-! ### Whole builds -/

/-- The relation is the first one that needs the join table. -/
structure FirstFor (entity : String) (relations : List Relation) (r : Relation) (table : String) : Prop where
  kind : r.kind = .belongsToMany
  name : pivotName entity r.related = .ok table
  first : ∃ before after, relations = before ++ r :: after ∧
    ∀ earlier ∈ before, earlier.kind = .belongsToMany → pivotName entity earlier.related ≠ .ok table

theorem FirstFor.mem {entity table : String} {relations : List Relation} {r : Relation}
    (h : FirstFor entity relations r table) : r ∈ relations := by
  obtain ⟨before, after, rfl, -⟩ := h.first
  exact List.mem_append_right _ List.mem_cons_self

theorem FirstFor.mem_firsts {entity table : String} {relations : List Relation} {r : Relation}
    (h : FirstFor entity relations r table) : (table, r) ∈ firsts (wanted entity relations) := by
  obtain ⟨before, after, rfl, hbefore⟩ := h.first
  have hwanted : wanted entity (before ++ r :: after) = wanted entity before ++ (table, r) :: wanted entity after := by
    have hneeds := needsPivot_iff.2 h.kind
    simp [wanted, hneeds, h.name, Except.toOption]
  rw [hwanted]
  refine mem_firsts_of_split fun hmem => ?_
  obtain ⟨⟨_, earlier⟩, hearlier, rfl⟩ := List.mem_map.1 hmem
  obtain ⟨hearlier, hneeds, hname⟩ := mem_wanted.1 hearlier
  exact hbefore earlier hearlier (needsPivot_iff.1 hneeds) hname

theorem filter_filled (drafts : List Draft) (t : TemplateName) :
    (drafts.map Draft.filled).filter (·.template = t) = (drafts.filter (·.template = t)).map Draft.filled :=
  List.filter_map

theorem filter_model {names : EntityNames} {fields : List Field} {methods : String} {pivots : List PivotTable}
    {creation update : RuleSet} :
    (([modelDraft names fields methods, tableDraft names fields] ++ pivots.map pivotDraft ++
      [controllerDraft names, requestDraft .storeRequest names.storeRequestName creation,
        requestDraft .updateRequest names.updateRequestName update]).filter (·.template = .model)) =
      [modelDraft names fields methods] := by
  have hpivots : (pivots.map pivotDraft).filter (·.template = .model) = [] :=
    List.filter_eq_nil_iff.2 (List.forall_mem_map.2 fun _ _ => by simp [pivotDraft])
  rw [List.filter_append, List.filter_append, hpivots]
  simp [modelDraft, tableDraft, controllerDraft, requestDraft]

/-- What a build over the packaged templates makes of the relations of its request. -/
theorem artifacts_packaged {s : Settings} {v : View} {r : Request} {slice : Slice}
    (h : (Generator.packaged s).outcome v r = .ok slice) : ∃ names texts,
      Parsed (.packaged s) r names slice.fields ⟨slice.relations, slice.skipped⟩ slice.pivots ∧
      slice.relations.mapM (relationMethod names.entity) = .ok texts ∧
      slice.artifactsFor .model = [(modelDraft names slice.fields (String.join texts)).filled] ∧
      slice.artifactsFor .pivotMigration = slice.pivots.map fun p => (pivotDraft p).filled := by
  obtain ⟨history, added, hcourse, hrun⟩ := run_build (Generator.packaged s) v r
  rw [h] at hcourse
  cases hcourse with
  | @done names fields list pivots findings drafts artifacts hparsed hfindings hdrafts hartifacts =>
    -- the packaged templates give what filling them gives
    have hpure := render_drafts_packaged s.strictPlaceholders v hdrafts
    have hartifacts : .ok (drafts.map Draft.filled) = Except.ok artifacts :=
      (congrArg (fun x => x.start.1) hpure).symm.trans hartifacts
    obtain rfl := Except.ok.inj hartifacts
    obtain ⟨methods, hmethods, rfl⟩ := draftsFor_eq hdrafts
    obtain ⟨texts, htexts, hjoin⟩ := bind_eq_ok.1 hmethods
    obtain rfl := Except.ok.inj hjoin
    refine ⟨names, texts, hparsed, htexts, ?_, ?_⟩
    · rw [Slice.artifactsFor, sliceOf, filter_filled, filter_model, List.map_singleton]
    · rw [Slice.artifactsFor, sliceOf, filter_filled, filter_pivotMigration, List.map_map]
      rfl

theorem outcome_of_parsed {s : Settings} {r : Request} {names : EntityNames} {fields : List Field}
    {list : RelationList} {pivots : List PivotTable} (hparsed : Parsed (.packaged s) r names fields list pivots)
    (v : View) : ∃ slice, (Generator.packaged s).outcome v r = .ok slice ∧
      slice.relations = list.relations ∧ slice.pivots = pivots := by
  obtain ⟨history, added, hcourse, -⟩ := run_build (Generator.packaged s) v r
  rcases course_packaged hcourse with ⟨_, _, _, _, _, slice, -, -, hslice, -⟩ | ⟨hnone, -⟩
  · obtain ⟨names', texts, hparsed', -⟩ := artifacts_packaged hslice
    obtain rfl := Except.ok.inj (hparsed'.entity.symm.trans hparsed.entity)
    obtain rfl := Except.ok.inj (hparsed'.relationSpec.symm.trans hparsed.relationSpec)
    exact ⟨slice, hslice, rfl, Except.ok.inj (hparsed'.joinTables.symm.trans hparsed.joinTables)⟩
  · exact absurd ⟨names, fields, list, pivots, hparsed⟩ hnone

/-- The keys of a join table in everything that is built over the packaged templates.  The first relation that needs
the table gives it its keys.  The method of that relation is called with literals that are read as the name of the
table, the foreign key and the local key, whatever these are.  The migration of the table has the keys between quotes
as they are: its calls of `foreignId` are read as calls with the two keys exactly if both are verbatim, and then so is
its call of `primary`. -/
theorem join_keys_read_back_iff {s : Settings} {v : View} {r : Request} {slice : Slice}
    (h : (Generator.packaged s).outcome v r = .ok slice) : ∃ names,
      Parsed (.packaged s) r names slice.fields ⟨slice.relations, slice.skipped⟩ slice.pivots ∧
      ∀ relation table, FirstFor names.entity slice.relations relation table →
        (∃ model accessor literals, slice.artifactsFor .model = [model] ∧ relation.accessor = .ok accessor ∧
          ("\n    public function " ++ accessor ++ "()\n    \x7b\n        return $this->belongsToMany(" ++
            relation.relatedClass ++ "::class, " ++ literals ++ ");\n    \x7d\n").toList <:+: model.content.toList ∧
          readNames literals = some [table, relation.foreignKey, relation.localKey]) ∧
        (∃ a ∈ slice.artifactsFor .pivotMigration, a.target = creationName table) ∧
        ∀ a ∈ slice.artifactsFor .pivotMigration, a.target = creationName table →
          (argumentsOf "foreignId" a.content = some [relation.foreignKey, relation.localKey] ↔
            Verbatim relation.foreignKey.toList ∧ Verbatim relation.localKey.toList) ∧
          (Verbatim relation.foreignKey.toList ∧ Verbatim relation.localKey.toList →
            argumentsOf "primary" a.content = some [relation.foreignKey, relation.localKey]) := by
  obtain ⟨names, texts, hparsed, htexts, hmodel, hmigrations⟩ := artifacts_packaged h
  have htables := (start_collectPivots hparsed.joinTables).1
  have hnodup : (slice.pivots.map PivotTable.name).Nodup := by
    rw [htables, List.map_map]
    exact nodup_firsts _
  refine ⟨names, hparsed, fun relation table hfirst => ?_⟩
  have htable : tableOf (table, relation) ∈ slice.pivots := by
    rw [htables]
    exact List.mem_map_of_mem hfirst.mem_firsts
  refine ⟨?_, ?_, fun a ha htarget => ?_⟩
  · -- the method in the model
    obtain ⟨text, htext, hmethod⟩ := exists_of_mapM_ok htexts hfirst.mem
    obtain ⟨accessor, haccessor, rfl⟩ := relationMethod_joined hfirst.kind hfirst.name hmethod
    exact ⟨_, accessor, _, hmodel, haccessor, infix_model htext, readNames_quoted _⟩
  · -- the migration of the join table
    rw [hmigrations]
    exact ⟨_, List.mem_map_of_mem htable, rfl⟩
  · rw [hmigrations] at ha
    obtain ⟨p, hp, rfl⟩ := List.mem_map.1 ha
    have hname : p.name = table := creationName_injective htarget
    -- no two tables have one name
    obtain rfl : p = tableOf (table, relation) := List.inj_on_of_nodup_map hnodup hp htable hname
    have hverbatim := verbatim_of_pivotName hfirst.name
    exact ⟨foreignId_pivotMigration_iff hverbatim, fun ⟨hkey, hrelated⟩ =>
      (arguments_pivotMigration hverbatim hkey hrelated).2⟩

/-- A request with a join table that has these keys. -/
def keyedRequest (foreignKey localKey : String) : Request :=
  ⟨"Post", "title:string", some ("belongsToMany:Tag:" ++ foreignKey ++ ":" ++ localKey)⟩

/-- The names of the request's entity. -/
def postNames : EntityNames :=
  ⟨"Post", "Post", "Post", "App\\Models", "post", "posts", "PostController", "PostStoreRequest", "PostUpdateRequest"⟩

theorem parsed_keyedRequest {foreignKey localKey : String} {list : RelationList} {pivots : List PivotTable}
    (hlist : (parseRelations false (keyedRequest foreignKey localKey).relations).start.1 = .ok list)
    (hpivots : (collectPivots "Post" list.relations).start.1 = .ok pivots) :
    Parsed (.packaged .default) (keyedRequest foreignKey localKey) postNames [⟨"title", "string"⟩] list pivots := by
  have hnames : EntityNames.ofEntity "Post" Settings.default.modelNamespace = .ok postNames := by decide
  have hfields : parseFields (some "title:string") = .ok [⟨"title", "string"⟩] := by decide
  exact ⟨hnames, hfields, hlist, hpivots⟩

/-- Both keys are read back, one of them with a backslash in it. -/
theorem join_keys_read_back_iff_backslash : ∃ slice a,
    (Generator.packaged .default).outcome noFiles (keyedRequest "post\\id" "tag_id") = .ok slice ∧
    a ∈ slice.artifactsFor .pivotMigration ∧ a.target = "create_post_tag_table" ∧
    argumentsOf "foreignId" a.content = some ["post\\id", "tag_id"] ∧
    argumentsOf "primary" a.content = some ["post\\id", "tag_id"] := by
  have hparsed : Parsed (.packaged .default) (keyedRequest "post\\id" "tag_id") postNames [⟨"title", "string"⟩]
      ⟨[⟨.belongsToMany, "Tag", "post\\id", "tag_id"⟩], []⟩ [⟨"post_tag", "post\\id", "tag_id", "Tag"⟩] :=
    parsed_keyedRequest (by decide) (by decide)
  obtain ⟨slice, hslice, hrelations, -⟩ := outcome_of_parsed hparsed noFiles
  obtain ⟨names, hparsed', hkeys⟩ := join_keys_read_back_iff hslice
  obtain rfl := Except.ok.inj (hparsed'.entity.symm.trans hparsed.entity)
  have hfirst : FirstFor postNames.entity slice.relations ⟨.belongsToMany, "Tag", "post\\id", "tag_id"⟩ "post_tag" :=
    ⟨rfl, by decide, [], [], hrelations, nofun⟩
  obtain ⟨-, ⟨a, ha, htarget⟩, hmigration⟩ := hkeys _ _ hfirst
  obtain ⟨hforeign, hprimary⟩ := hmigration a ha htarget
  have hverbatim : Verbatim "post\\id".toList ∧ Verbatim "tag_id".toList := by decide
  exact ⟨slice, a, hslice, ha, htarget, hforeign.2 hverbatim, hprimary hverbatim⟩

/-- A quote in a key is escaped in the model and not in the migration, whose calls are read as calls with other
texts. -/
theorem not_join_keys_read_back : ∃ slice a,
    (Generator.packaged .default).outcome noFiles (keyedRequest "it's" "id") = .ok slice ∧
    slice.relations = [⟨.belongsToMany, "Tag", "it's", "id"⟩] ∧ slice.artifactsFor .pivotMigration = [a] ∧
    argumentsOf "foreignId" a.content ≠ some ["it's", "id"] := by
  have hparsed : Parsed (.packaged .default) (keyedRequest "it's" "id") postNames [⟨"title", "string"⟩]
      ⟨[⟨.belongsToMany, "Tag", "it's", "id"⟩], []⟩ [⟨"post_tag", "it's", "id", "Tag"⟩] :=
    parsed_keyedRequest (by decide) (by decide)
  obtain ⟨slice, hslice, hrelations, hpivots⟩ := outcome_of_parsed hparsed noFiles
  obtain ⟨_, _, -, -, -, hmigrations⟩ := artifacts_packaged hslice
  rw [hpivots, List.map_singleton] at hmigrations
  refine ⟨slice, _, hslice, hrelations, hmigrations, fun h => ?_⟩
  obtain ⟨hkey, -⟩ := (foreignId_pivotMigration_iff (by decide)).1 h
  exact absurd hkey (by decide)

end CrudScaffold.Generation
