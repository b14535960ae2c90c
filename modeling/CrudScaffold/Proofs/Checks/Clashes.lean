import CrudScaffold.Proofs.Checks.Findings
import CrudScaffold.Proofs.Code.Methods
import Mathlib.Data.Fintype.Fin

/-!
# CrudScaffold.Proofs.Checks.Clashes — every clash of accessors is reported, and nothing else

The review goes over the accessors with those before it at hand, and warns once of an accessor that is the name of a
field and once of an accessor that has been there already (`length_reviewAccessor`).  Over a whole list
(`length_reviewAccessorsAfter`) this makes one warning for each place in `likeFields` and one for each in
`likeEarlier`.  Where there is no warning, the methods that are generated for the relations are declared under names
that differ from each other (`clashes_reported`).
-/

namespace CrudScaffold.Checks

open CrudScaffold.Code CrudScaffold.Naming CrudScaffold.Spec

/-- The relation has been read, with others or alone. -/
def WasRead (r : Relation) : Prop :=
  ∃ strict spec list, (parseRelations strict spec).start.1 = .ok list ∧ r ∈ list.relations

theorem WasRead.isUsable {r : Relation} (h : WasRead r) : isUsable r.related = true := by
  obtain ⟨strict, spec, list, hlist, hr⟩ := h
  exact isUsable_of_parseRelations hlist hr

/-- The places of the relations whose accessor is the name of a field. -/
def likeFields (fields : List Field) (relations : List Relation) : Finset (Fin relations.length) :=
  {i | ∃ f ∈ fields, relations[i].accessor = .ok f.name}

/-- The places of the relations whose accessor is that of an earlier relation. -/
def likeEarlier (relations : List Relation) : Finset (Fin relations.length) :=
  {i | ∃ j < i, relations[j].accessor = relations[i].accessor}

/-! ### Counting the warnings -/

/-- One accessor: a warning for the field of its name, and one if it has been there already. -/
theorem length_reviewAccessor (fields : List Field) (earlier : List String) (accessor : String) :
    (reviewAccessor fields earlier accessor).length =
      (if ∃ f ∈ fields, f.name = accessor then 1 else 0) + if accessor ∈ earlier then 1 else 0 := by
  unfold reviewAccessor
  simp only [List.length_append, List.any_eq_true, decide_eq_true_eq, List.contains_iff_mem, apply_ite List.length,
    List.length_cons, List.length_nil, Nat.zero_add]

/-- The places of the relations whose accessor has been there already: it is one of those before the whole list, or
that of an earlier relation. -/
def repeatedAfter (before : List String) (relations : List Relation) : Finset (Fin relations.length) :=
  {i | (∃ a ∈ before, relations[i].accessor = .ok a) ∨ ∃ j < i, relations[j].accessor = relations[i].accessor}

theorem repeatedAfter_nil (relations : List Relation) : repeatedAfter [] relations = likeEarlier relations := by
  simp [repeatedAfter, likeEarlier]

theorem card_likeFields_cons (fields : List Field) (r : Relation) (relations : List Relation) :
    (likeFields fields (r :: relations)).card =
      (if ∃ f ∈ fields, r.accessor = .ok f.name then 1 else 0) + (likeFields fields relations).card :=
  Fin.card_filter_univ_succ' fun i : Fin (relations.length + 1) =>
    ∃ f ∈ fields, (r :: relations)[i].accessor = .ok f.name

/-- The first accessor is compared with those before the list; for the others it is one more of these. -/
theorem card_repeatedAfter_cons {r : Relation} {a : String} (h : r.accessor = .ok a) (before : List String)
    (relations : List Relation) : (repeatedAfter before (r :: relations)).card =
      (if a ∈ before then 1 else 0) + (repeatedAfter (before ++ [a]) relations).card := by
  -- the first relation clashes with the names before it only
  have hfirst : ((∃ a' ∈ before, r.accessor = .ok a') ∨
      ∃ j < (0 : Fin (relations.length + 1)), (r :: relations)[j].accessor = r.accessor) ↔ a ∈ before := by
    simp [h]
  -- for the others the first accessor is one more name before them
  have hrest : ∀ i : Fin relations.length, ((∃ a' ∈ before, relations[i].accessor = .ok a') ∨
      ∃ j < i.succ, (r :: relations)[j].accessor = relations[i].accessor) ↔
      (∃ a' ∈ before ++ [a], relations[i].accessor = .ok a') ∨
        ∃ j < i, relations[j].accessor = relations[i].accessor := by
    intro i
    simp [Fin.exists_fin_succ, h, or_assoc, eq_comm (a := Except.ok a)]
  have hcount := Fin.card_filter_univ_succ' fun i : Fin (relations.length + 1) =>
    (∃ a' ∈ before, (r :: relations)[i].accessor = .ok a') ∨
      ∃ j < i, (r :: relations)[j].accessor = (r :: relations)[i].accessor
  refine hcount.trans ?_
  congr 1
  · exact if_congr hfirst rfl rfl
  · exact congrArg Finset.card (Finset.filter_congr fun i _ => hrest i)

/-- All accessors of a list of relations, with the accessors before them: one warning for each place in question. -/
theorem length_reviewAccessorsAfter (fields : List Field) {relations : List Relation} {accessors : List String}
    (h : List.Forall₂ (fun r a => r.accessor = .ok a) relations accessors) (before : List String) :
    (reviewAccessorsAfter fields before accessors).length =
      (likeFields fields relations).card + (repeatedAfter before relations).card := by
  induction h generalizing before with
  | nil => rfl
  | @cons r a relations accessors hr _ ih =>
    have hfield : (∃ f ∈ fields, r.accessor = .ok f.name) ↔ ∃ f ∈ fields, f.name = a := by
      simp only [hr, Except.ok.injEq, eq_comm]
    rw [reviewAccessorsAfter, List.length_append, length_reviewAccessor, ih, card_likeFields_cons,
      card_repeatedAfter_cons hr]
    simp only [hfield]
    omega

/-! ### No warning -/

theorem card_likeFields_eq_zero_iff {fields : List Field} {relations : List Relation} {accessors : List String}
    (h : List.Forall₂ (fun r a => r.accessor = .ok a) relations accessors) :
    (likeFields fields relations).card = 0 ↔ ∀ f ∈ fields, f.name ∉ accessors := by
  induction h with
  | nil => exact iff_of_true rfl fun _ _ => List.not_mem_nil
  | cons hr _ ih =>
    rw [card_likeFields_cons, Nat.add_eq_zero_iff, ih, ite_eq_right_iff]
    simp only [hr, Except.ok.injEq, List.mem_cons, not_or, one_ne_zero, imp_false, not_exists, not_and]
    constructor
    · rintro ⟨hfirst, hrest⟩ f hf
      exact ⟨fun heq => hfirst f hf heq.symm, hrest f hf⟩
    · intro hall
      exact ⟨fun f hf heq => (hall f hf).1 heq.symm, fun f hf => (hall f hf).2⟩

theorem card_repeatedAfter_eq_zero_iff {relations : List Relation} {accessors : List String}
    (h : List.Forall₂ (fun r a => r.accessor = .ok a) relations accessors) (before : List String) :
    (repeatedAfter before relations).card = 0 ↔ accessors.Nodup ∧ ∀ a ∈ accessors, a ∉ before := by
  induction h generalizing before with
  | nil => exact iff_of_true rfl ⟨List.nodup_nil, nofun⟩
  | cons hr _ ih =>
    rw [card_repeatedAfter_cons hr, Nat.add_eq_zero_iff, ih, ite_eq_right_iff, List.nodup_cons, List.forall_mem_cons]
    simp only [List.mem_append, List.mem_singleton, not_or, one_ne_zero, imp_false]
    constructor
    · rintro ⟨hfirst, hnodup, hrest⟩
      exact ⟨⟨fun hmem => (hrest _ hmem).2 rfl, hnodup⟩, hfirst, fun a ha => (hrest a ha).1⟩
    · rintro ⟨⟨hnew, hnodup⟩, hfirst, hrest⟩
      exact ⟨hfirst, hnodup, fun a ha => ⟨hrest a ha, fun heq => hnew (heq ▸ ha)⟩⟩

theorem card_likeEarlier_eq_zero_iff {relations : List Relation} {accessors : List String}
    (h : List.Forall₂ (fun r a => r.accessor = .ok a) relations accessors) :
    (likeEarlier relations).card = 0 ↔ accessors.Nodup := by
  rw [← repeatedAfter_nil, card_repeatedAfter_eq_zero_iff h]
  exact and_iff_left fun _ _ => List.not_mem_nil

/-- **Clashes are reported exactly.**  The review of relations that have been read gives a warning for each relation
with the accessor of a field and one for each with that of an earlier relation.  So there is none exactly if the
accessors differ from each other and from the fields.  Then the methods of the relations, which exist if the join
tables have names, are declared under names that differ from each other. -/
theorem clashes_reported (fields : List Field) {relations : List Relation} (skipped : List String)
    (h : ∀ r ∈ relations, WasRead r) : ∃ accessors findings,
      relations.mapM Relation.accessor = .ok accessors ∧
      (reviewRequest fields relations skipped).start.1 = .ok findings ∧
      (findings.warningsOf "W_ACCESSOR_CLASH").length =
        (likeFields fields relations).card + (likeEarlier relations).card ∧
      (findings.warningsOf "W_ACCESSOR_CLASH" = [] ↔ accessors.Nodup ∧ ∀ f ∈ fields, f.name ∉ accessors) ∧
      (findings.warningsOf "W_ACCESSOR_CLASH" = [] → ∀ entity,
        ((∃ text, relationMethods entity relations = .ok text) ↔
          ∀ r ∈ relations, r.kind.needsPivot = true → ∃ name, pivotName entity r.related = .ok name) ∧
        ∀ text, relationMethods entity relations = .ok text → ∃ methods, text = String.join methods ∧
          List.Forall₂ (fun r method => relationMethod entity r = .ok method) relations methods ∧
          methods.map declaredName = accessors.map some ∧ (methods.map declaredName).Nodup) := by
  have husable : ∀ r ∈ relations, isUsable r.related = true := fun r hr => (h r hr).isUsable
  obtain ⟨findings, hfindings⟩ := reviewRequest_ok fields skipped husable
  obtain ⟨accessors, haccessors, hclashes⟩ := clashes_of_reviewRequest hfindings
  have hall := forall₂_of_mapM haccessors
  have hlength : (findings.warningsOf "W_ACCESSOR_CLASH").length =
      (likeFields fields relations).card + (likeEarlier relations).card := by
    rw [hclashes, length_reviewAccessorsAfter fields hall [], repeatedAfter_nil]
  have hnone : findings.warningsOf "W_ACCESSOR_CLASH" = [] ↔ accessors.Nodup ∧ ∀ f ∈ fields, f.name ∉ accessors := by
    rw [← List.length_eq_zero_iff, hlength, Nat.add_eq_zero_iff, card_likeFields_eq_zero_iff hall,
      card_likeEarlier_eq_zero_iff hall, and_comm]
  refine ⟨accessors, findings, haccessors, hfindings, hlength, hnone, fun hquiet entity => ⟨?_, fun text htext => ?_⟩⟩
  · exact ⟨fun ⟨_, htext⟩ => pivotName_of_relationMethods htext, relationMethods_ok husable⟩
  · -- without a clash the emitted names are the accessors, and those are distinct
    obtain ⟨methods, hjoin, hmethods, hnames⟩ := exists_of_relationMethods htext haccessors
    refine ⟨methods, hjoin, hmethods, hnames, ?_⟩
    rw [hnames]
    exact (hnone.1 hquiet).1.map (Option.some_injective _)

/-- Two relations to one entity next to a field with the name of a third accessor, and two relations without a
clash. -/
theorem clashes_reported_comments :
    let clashing : List Relation := [⟨.hasMany, "Comment", "post_id", "id"⟩, ⟨.hasMany, "comments", "post_id", "id"⟩,
      ⟨.belongsTo, "User", "user_id", "id"⟩]
    let quiet : List Relation := [⟨.hasMany, "Comment", "post_id", "id"⟩, ⟨.belongsToMany, "Tag", "post_id", "tag_id"⟩]
    let fields : List Field := [⟨"title", "string"⟩, ⟨"user", "string"⟩]
    (∀ r ∈ clashing, WasRead r) ∧ (∀ r ∈ quiet, WasRead r) ∧
      (∃ findings, (reviewRequest fields clashing []).start.1 = .ok findings ∧
        (findings.warningsOf "W_ACCESSOR_CLASH").length = 2) ∧
      ∃ findings methods, (reviewRequest fields quiet []).start.1 = .ok findings ∧
        findings.warningsOf "W_ACCESSOR_CLASH" = [] ∧ relationMethods "Post" quiet = .ok (String.join methods) ∧
        methods.map declaredName = [some "comments", some "tags"] := by
  intro clashing quiet fields
  have hclashing : (parseRelations true (some
      "hasMany:Comment:post_id:id, hasMany:comments:post_id:id, belongsTo:User:user_id:id")).start.1 =
        .ok ⟨clashing, []⟩ := by decide
  have hquiet : (parseRelations true (some "hasMany:Comment:post_id:id, belongsToMany:Tag:post_id:tag_id")).start.1 =
      .ok ⟨quiet, []⟩ := by decide
  have hread : ∀ r ∈ clashing, WasRead r := fun r hr => ⟨true, _, _, hclashing, hr⟩
  have hread' : ∀ r ∈ quiet, WasRead r := fun r hr => ⟨true, _, _, hquiet, hr⟩
  obtain ⟨-, findings, -, hfindings, hlength, -⟩ := clashes_reported fields [] hread
  obtain ⟨accessors, findings', haccessors, hfindings', -, hnone, hdistinct⟩ := clashes_reported fields [] hread'
  have haccessors' : quiet.mapM Relation.accessor = .ok ["comments", "tags"] := by decide
  obtain rfl := Except.ok.inj (haccessors.symm.trans haccessors')
  have hnowarning := hnone.2 (by decide)
  -- the keys of the pivot relation name a join table
  obtain ⟨hemitted, htext⟩ := hdistinct hnowarning "Post"
  obtain ⟨text, hmethods⟩ := hemitted.2 (by
    intro r hr hneeds
    rcases List.mem_cons.1 hr with rfl | hr
    · cases hneeds
    · obtain rfl := List.mem_singleton.1 hr
      exact ⟨"post_tag", by decide⟩)
  obtain ⟨methods, rfl, -, hnames, -⟩ := htext text hmethods
  exact ⟨hread, hread', ⟨findings, hfindings, hlength.trans (by decide +kernel)⟩, findings', methods, hfindings',
    hnowarning, hmethods, hnames⟩

end CrudScaffold.Checks
