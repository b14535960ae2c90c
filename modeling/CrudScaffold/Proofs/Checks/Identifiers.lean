import CrudScaffold.Proofs.Checks.Findings
import CrudScaffold.Proofs.Code.Methods
import CrudScaffold.Proofs.Generation.DerivedNames
import CrudScaffold.Proofs.Naming.Initials
import CrudScaffold.Proofs.Spec.RelationTokens

/-!
# CrudScaffold.Proofs.Checks.Identifiers — which names the review vouches for

A request without a warning of bad names has plain names (`IsPlainName`) for its fields and for the keys of its
relations, and the other way round (`reviewIdentifiers_eq_nil_iff`).  The review does not look at accessors.  An
accessor has letters and digits only, so it is a plain name unless it begins with a digit, as it does if the first
letter or digit of the related base name is one (`isPlainName_accessor_iff`).
-/

namespace CrudScaffold.Checks

open CrudScaffold.Naming CrudScaffold.Spec CrudScaffold.Text

/-- An ASCII letter or an underscore, with ASCII letters, digits and underscores behind it. -/
def IsPlainName (s : String) : Prop :=
  ∃ c rest, s.toList = c :: rest ∧ (c.isAlpha = true ∨ c = '_') ∧ ∀ d ∈ rest, d.isAlphanum = true ∨ d = '_'

/-! ### The names that are looked at -/

theorem isIdentifier_iff {s : String} (htrim : strip s = s) : isIdentifier s = true ↔ IsPlainName s := by
  have hend : s.toList.getLast? ≠ some '\n' := by
    intro hlast
    have hblank := (trim_eq_self_iff.1 (strip_eq_self_iff.1 htrim)).2 '\n' hlast
    cases hblank
  unfold isIdentifier
  simp only [if_neg hend]
  cases hs : s.toList with
  | nil => simp [IsPlainName, hs]
  | cons c rest => simp [IsPlainName, hs, startsIdentifier, continuesIdentifier]

/-- Nothing is found if all fields and keys are names. -/
theorem reviewIdentifiers_eq_nil_iff {fields : List Field} {relations : List Relation} :
    reviewIdentifiers fields relations = [] ↔ (∀ f ∈ fields, isIdentifier f.name = true) ∧
      ∀ r ∈ relations, isIdentifier r.foreignKey = true ∧ isIdentifier r.localKey = true := by
  have hkey : ∀ (r : Relation) (label key : String), reviewKey r label key = [] ↔ isIdentifier key = true := by
    intro r label key
    unfold reviewKey
    split <;> simp_all
  simp only [reviewIdentifiers, List.append_eq_nil_iff, List.map_eq_nil_iff, List.filter_eq_nil_iff,
    List.flatMap_eq_nil_iff, hkey, Bool.not_eq_true', Bool.not_eq_false]

/-! ### Accessors -/

/-- The first of the letters and digits of the text is a letter. -/
def BeginsWithLetter (s : String) : Prop := ∃ c, s.toList.find? Char.isAlphanum = some c ∧ c.isAlpha = true

theorem isAlpha_iff_of_isAlphanum {c : Char} (h : c.isAlphanum = true) : c.isAlpha = true ↔ c.isDigit = false := by
  show (c.isUpper || c.isLower) = true ↔ _
  rw [Bool.or_eq_true]
  grind

/-- A text of letters and digits is a plain name unless it begins with a digit. -/
theorem isPlainName_iff_of_isAlphanum {s : String} (hne : s ≠ "") (h : ∀ c ∈ s.toList, c.isAlphanum = true) :
    IsPlainName s ↔ startsWithDigit s.toList = false := by
  obtain ⟨c, rest, hs⟩ := List.exists_cons_of_ne_nil fun hnil : s.toList = [] => hne (String.toList_inj.1 hnil)
  obtain ⟨hc, hrest⟩ := List.forall_mem_cons.1 (hs ▸ h)
  have hdigit : startsWithDigit s.toList = c.isDigit := by
    rw [hs]
    rfl
  rw [hdigit, ← isAlpha_iff_of_isAlphanum hc]
  constructor
  · rintro ⟨d, rest', hs', hd, -⟩
    obtain ⟨rfl, -⟩ := List.cons.inj (hs.symm.trans hs')
    refine hd.resolve_right fun hunder => ?_
    rw [hunder] at hc
    cases hc
  · intro hletter
    exact ⟨c, rest, hs, Or.inl hletter, fun d hd => Or.inl (hrest d hd)⟩

/-- Whether the accessor of a relation is a plain name depends on the related base name only, not on the kind. -/
theorem isPlainName_accessor_iff {r : Relation} {base accessor : String} (hbase : baseName r.related = .ok base)
    (h : r.accessor = .ok accessor) : IsPlainName accessor ↔ BeginsWithLetter base := by
  have hforms := Generation.formsAccessor_of_accessor hbase h
  obtain ⟨c, hfirst, halnum, hdigit⟩ := startsWithDigit_accessor hbase h
  rw [isPlainName_iff_of_isAlphanum hforms.ne_empty hforms.letters, hdigit, ← isAlpha_iff_of_isAlphanum halnum,
    BeginsWithLetter, hfirst]
  simp

/-! ### Requests -/

/-- **What the absence of warnings shows.**  The review of specs that have been read does not warn of bad names exactly
if all fields, foreign keys and local keys are plain names.  The accessor of a relation, under which its method is
declared, is one as well exactly if the first letter or digit of the related base name is a letter; the review does not
look at it. -/
theorem unwarned_plain_iff {fieldSpec relationSpec : Option String} {strict : Bool} {fields : List Field}
    {list : RelationList} (hfields : parseFields fieldSpec = .ok fields)
    (hlist : (parseRelations strict relationSpec).start.1 = .ok list) (skipped : List String) :
    ∃ findings, (reviewRequest fields list.relations skipped).start.1 = .ok findings ∧
      (findings.warningsOf "W_IDENTIFIER" = [] ↔ (∀ f ∈ fields, IsPlainName f.name) ∧
        ∀ r ∈ list.relations, IsPlainName r.foreignKey ∧ IsPlainName r.localKey) ∧
      ∀ r ∈ list.relations, ∃ base accessor, baseName r.related = .ok base ∧ r.accessor = .ok accessor ∧
        (∀ entity method, Code.relationMethod entity r = .ok method → Code.declaredName method = some accessor) ∧
        (IsPlainName accessor ↔ BeginsWithLetter base) := by
  have husable : ∀ r ∈ list.relations, isUsable r.related = true := fun r => isUsable_of_parseRelations hlist
  obtain ⟨findings, hfindings⟩ := reviewRequest_ok fields skipped husable
  refine ⟨findings, hfindings, ?_, fun r hr => ?_⟩
  · -- the names of the fields are trimmed, so the review tells whether they are plain
    have hname : ∀ f ∈ fields, (isIdentifier f.name = true ↔ IsPlainName f.name) := by
      intro f hf
      obtain ⟨-, hdeclares, -⟩ := parseFields_ok_iff.1 hfields
      obtain ⟨token, -, hdeclares⟩ := exists_declares hdeclares hf
      obtain ⟨before, after, -, hname, -⟩ := hdeclares.halves
      refine isIdentifier_iff ?_
      rw [hname, strip, String.toList_ofList, trim_trim]
    -- and so are the keys
    have hkeys : ∀ r ∈ list.relations, (isIdentifier r.foreignKey = true ∧ isIdentifier r.localKey = true ↔
        IsPlainName r.foreignKey ∧ IsPlainName r.localKey) := by
      intro r hr
      obtain ⟨token, -, ⟨kindToken, hfour, -⟩, -⟩ := gives_of_parseRelations hlist hr
      rw [isIdentifier_iff (hfour.strip (by simp)), isIdentifier_iff (hfour.strip (by simp))]
    rw [badNames_of_reviewRequest hfindings, reviewIdentifiers_eq_nil_iff]
    exact and_congr (forall₂_congr hname) (forall₂_congr hkeys)
  · -- the accessor is what the emitted method is called, and nothing looks at it
    obtain ⟨accessor, haccessor⟩ := accessor_ok (husable r hr)
    obtain ⟨base, hbase, -⟩ := bind_eq_ok.1 haccessor
    refine ⟨base, accessor, hbase, haccessor, fun entity method hmethod => ?_, isPlainName_accessor_iff hbase haccessor⟩
    obtain ⟨accessor', haccessor', hname⟩ := Code.declaredName_relationMethod hmethod
    obtain rfl := Except.ok.inj (haccessor'.symm.trans haccessor)
    exact hname

/-- There is no warning for these two relations; one of the accessors is a plain name, and the other one is not. -/
theorem unwarned_plain_iff_digit :
    parseFields (some "title:string") = .ok [⟨"title", "string"⟩] ∧
    (parseRelations false (some "hasMany:Comment:post_id:id, belongsTo:2fa:user_id:id")).start.1 =
      .ok ⟨[⟨.hasMany, "Comment", "post_id", "id"⟩, ⟨.belongsTo, "2fa", "user_id", "id"⟩], []⟩ ∧
    ∃ findings, (reviewRequest [⟨"title", "string"⟩] [⟨.hasMany, "Comment", "post_id", "id"⟩,
        ⟨.belongsTo, "2fa", "user_id", "id"⟩] []).start.1 = .ok findings ∧
      findings.warningsOf "W_IDENTIFIER" = [] ∧ IsPlainName "comments" ∧ ¬ IsPlainName "2Fa" := by
  have hfields : parseFields (some "title:string") = .ok [⟨"title", "string"⟩] := by decide
  have hlist : (parseRelations false (some "hasMany:Comment:post_id:id, belongsTo:2fa:user_id:id")).start.1 =
      .ok ⟨[⟨.hasMany, "Comment", "post_id", "id"⟩, ⟨.belongsTo, "2fa", "user_id", "id"⟩], []⟩ := by decide
  obtain ⟨findings, hfindings, hnone, haccessors⟩ := unwarned_plain_iff hfields hlist []
  have hplain : ∀ name ∈ ["title", "post_id", "id", "user_id"], IsPlainName name := by
    have hchecked : ∀ name ∈ ["title", "post_id", "id", "user_id"],
        strip name = name ∧ isIdentifier name = true := by decide
    exact fun name hname => (isIdentifier_iff (hchecked name hname).1).1 (hchecked name hname).2
  refine ⟨hfields, hlist, findings, hfindings, hnone.2 ⟨?_, ?_⟩, ?_, ?_⟩
  · intro f hf
    obtain rfl := List.mem_singleton.1 hf
    exact hplain _ (by decide)
  · intro r hr
    rcases List.mem_cons.1 hr with rfl | hr
    · exact ⟨hplain _ (by decide), hplain _ (by decide)⟩
    · obtain rfl := List.mem_singleton.1 hr
      exact ⟨hplain _ (by decide), hplain _ (by decide)⟩
  · obtain ⟨base, accessor, hbase, haccessor, -, hiff⟩ := haccessors _ List.mem_cons_self
    have hname : baseName "Comment" = .ok "Comment" := by decide
    have hvalue : Relation.accessor ⟨.hasMany, "Comment", "post_id", "id"⟩ = .ok "comments" := by decide
    obtain rfl := Except.ok.inj (hname.symm.trans hbase)
    obtain rfl := Except.ok.inj (hvalue.symm.trans haccessor)
    exact hiff.2 ⟨'C', by decide, rfl⟩
  · obtain ⟨base, accessor, hbase, haccessor, -, hiff⟩ := haccessors _ (List.mem_cons_of_mem _ List.mem_cons_self)
    have hname : baseName "2fa" = .ok "2fa" := by decide
    have hvalue : Relation.accessor ⟨.belongsTo, "2fa", "user_id", "id"⟩ = .ok "2Fa" := by decide
    obtain rfl := Except.ok.inj (hname.symm.trans hbase)
    obtain rfl := Except.ok.inj (hvalue.symm.trans haccessor)
    intro hplain
    obtain ⟨c, hfirst, hletter⟩ := hiff.1 hplain
    obtain rfl := Option.some.inj ((show "2fa".toList.find? Char.isAlphanum = some '2' by decide).symm.trans hfirst)
    cases hletter

/-- The accessor of a relation to `2fa` begins with a digit, and there is no warning of it. -/
theorem not_unwarned_plain : ¬ ∀ (fieldSpec relationSpec : Option String) (strict : Bool) (fields : List Field)
    (list : RelationList) (findings : Findings), parseFields fieldSpec = .ok fields →
      (parseRelations strict relationSpec).start.1 = .ok list →
      (reviewRequest fields list.relations list.skipped).start.1 = .ok findings →
      findings.warningsOf "W_IDENTIFIER" = [] →
        (∀ f ∈ fields, IsPlainName f.name) ∧ ∀ r ∈ list.relations, IsPlainName r.foreignKey ∧ IsPlainName r.localKey ∧
          ∀ accessor, r.accessor = .ok accessor → IsPlainName accessor := by
  intro h
  have hfields : parseFields (some "title:string") = .ok [⟨"title", "string"⟩] := by decide
  have hlist : (parseRelations false (some "belongsTo:2fa:user_id:id")).start.1 =
      .ok ⟨[⟨.belongsTo, "2fa", "user_id", "id"⟩], []⟩ := by decide
  obtain ⟨findings, hfindings⟩ := reviewRequest_ok [⟨"title", "string"⟩] [] fun r => isUsable_of_parseRelations hlist
  have hnone : reviewIdentifiers [⟨"title", "string"⟩] [⟨.belongsTo, "2fa", "user_id", "id"⟩] = [] :=
    reviewIdentifiers_eq_nil_iff.2 (by decide)
  obtain ⟨-, hrelations⟩ := h _ _ _ _ _ _ hfields hlist hfindings ((badNames_of_reviewRequest hfindings).trans hnone)
  obtain ⟨-, -, haccessor⟩ := hrelations _ List.mem_cons_self
  obtain ⟨c, rest, hname, hfirst, -⟩ := haccessor "2Fa" (by decide)
  obtain ⟨rfl, -⟩ := List.cons.inj ((show "2Fa".toList = ['2', 'F', 'a'] by decide).symm.trans hname)
  rcases hfirst with hletter | hunder
  · cases hletter
  · cases hunder

end CrudScaffold.Checks
