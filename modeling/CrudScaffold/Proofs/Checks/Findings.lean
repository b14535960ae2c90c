import CrudScaffold.Proofs.Spec.Relations

/-!
# CrudScaffold.Proofs.Checks.Findings — which review a warning comes from

Each review gives warnings with a code of its own.  So the warnings of a request with a certain code
(`Findings.warningsOf`) are those of one review, whatever the other reviews find: `clashes_of_reviewRequest` for the
accessors and `badNames_of_reviewRequest` for the names.
-/

namespace CrudScaffold.Checks

open CrudScaffold.Naming CrudScaffold.Spec

/-- The issue is a warning with the code. -/
structure IsWarning (code : String) (i : Issue) : Prop where
  severity : i.severity = .warning
  code : i.code = code

theorem isWarning_warning (code message : String) (context : List (String × Data.Value)) :
    IsWarning code (warning code message context) := ⟨rfl, rfl⟩

namespace Findings

/-- The warnings with the code. -/
def warningsOf (code : String) (f : Findings) : List Issue := f.warnings.filter (·.code = code)

variable {code code' : String} {f g : Findings}

@[simp] theorem warningsOf_append : warningsOf code (f ++ g) = warningsOf code f ++ warningsOf code g := by
  simp [warningsOf, warnings]

theorem warningsOf_eq_self (h : ∀ i ∈ f, IsWarning code i) : warningsOf code f = f := by
  have hwarnings : f.warnings = f := List.filter_eq_self.2 fun i hi => by simp [(h i hi).severity]
  rw [warningsOf, hwarnings]
  exact List.filter_eq_self.2 fun i hi => by simp [(h i hi).code]

theorem warningsOf_eq_nil (h : ∀ i ∈ f, IsWarning code' i) (hcode : code' ≠ code) : warningsOf code f = [] :=
  List.filter_eq_nil_iff.2 fun i hi => by simp [(h i (List.mem_of_mem_filter hi)).code, hcode]

end Findings

/-! ### The code of each review -/

theorem isWarning_reviewTypes (fields : List Field) : ∀ i ∈ reviewTypes fields, IsWarning "W_FIELD_TYPE" i :=
  List.forall_mem_map.2 fun _ _ => isWarning_warning _ _ _

theorem isWarning_reviewSkipped (skipped : List String) : ∀ i ∈ reviewSkipped skipped, IsWarning "W_RELATION_KIND" i :=
  List.forall_mem_map.2 fun _ _ => isWarning_warning _ _ _

theorem isWarning_reviewKey (r : Relation) (label key : String) :
    ∀ i ∈ reviewKey r label key, IsWarning "W_IDENTIFIER" i := by
  intro i hi
  unfold reviewKey at hi
  split at hi
  · cases hi
  · obtain rfl := List.mem_singleton.1 hi
    exact isWarning_warning _ _ _

theorem isWarning_reviewIdentifiers (fields : List Field) (relations : List Relation) :
    ∀ i ∈ reviewIdentifiers fields relations, IsWarning "W_IDENTIFIER" i := by
  refine List.forall_mem_append.2 ⟨List.forall_mem_map.2 fun _ _ => isWarning_warning _ _ _, fun i hi => ?_⟩
  obtain ⟨r, -, hi⟩ := List.mem_flatMap.1 hi
  rcases List.mem_append.1 hi with hi | hi
  · exact isWarning_reviewKey _ _ _ i hi
  · exact isWarning_reviewKey _ _ _ i hi

theorem isWarning_reviewAccessor (fields : List Field) (earlier : List String) (accessor : String) :
    ∀ i ∈ reviewAccessor fields earlier accessor, IsWarning "W_ACCESSOR_CLASH" i := by
  intro i hi
  rcases List.mem_append.1 hi with hi | hi
  all_goals
    split at hi
    · obtain rfl := List.mem_singleton.1 hi
      exact isWarning_warning _ _ _
    · cases hi

theorem isWarning_reviewAccessorsAfter (fields : List Field) (earlier accessors : List String) :
    ∀ i ∈ reviewAccessorsAfter fields earlier accessors, IsWarning "W_ACCESSOR_CLASH" i := by
  induction accessors generalizing earlier with
  | nil => exact nofun
  | cons a rest ih => exact List.forall_mem_append.2 ⟨isWarning_reviewAccessor _ _ _, ih _⟩

/-! ### The warnings of a request -/

variable {fields : List Field} {relations : List Relation} {skipped : List String} {findings : Findings}

theorem exists_of_reviewRequest (h : (reviewRequest fields relations skipped).start.1 = .ok findings) :
    ∃ accessors, relations.mapM Relation.accessor = .ok accessors ∧ findings =
      reviewTypes fields ++ reviewIdentifiers fields relations ++ reviewSkipped skipped ++
        reviewAccessorsAfter fields [] accessors := by
  rw [reviewRequest,
    Logged.start_bind_ok fun _ => (Logged.Appends.forM fun _ => .note _ _ _).bind fun _ => .pure _] at h
  obtain ⟨found, hfound, h⟩ := h
  rw [Logged.start_bind_ok fun _ => .pure _] at h
  obtain ⟨-, -, h⟩ := h
  obtain rfl := Except.ok.inj h
  obtain ⟨clashes, hclashes, hall⟩ := bind_eq_ok.1 (show reviewAll fields relations skipped = .ok found from hfound)
  obtain ⟨accessors, haccessors, hafter⟩ := bind_eq_ok.1 hclashes
  obtain rfl := Except.ok.inj hafter
  exact ⟨accessors, haccessors, (Except.ok.inj hall).symm⟩

/-- The warnings of clashes are those of the accessors alone. -/
theorem clashes_of_reviewRequest (h : (reviewRequest fields relations skipped).start.1 = .ok findings) :
    ∃ accessors, relations.mapM Relation.accessor = .ok accessors ∧
      findings.warningsOf "W_ACCESSOR_CLASH" = reviewAccessorsAfter fields [] accessors := by
  obtain ⟨accessors, haccessors, rfl⟩ := exists_of_reviewRequest h
  refine ⟨accessors, haccessors, ?_⟩
  rw [Findings.warningsOf_append, Findings.warningsOf_append, Findings.warningsOf_append,
    Findings.warningsOf_eq_nil (isWarning_reviewTypes fields) (by decide),
    Findings.warningsOf_eq_nil (isWarning_reviewIdentifiers fields relations) (by decide),
    Findings.warningsOf_eq_nil (isWarning_reviewSkipped skipped) (by decide),
    Findings.warningsOf_eq_self (isWarning_reviewAccessorsAfter fields [] accessors)]
  rfl

/-- The warnings of bad names are those of the names alone. -/
theorem badNames_of_reviewRequest (h : (reviewRequest fields relations skipped).start.1 = .ok findings) :
    findings.warningsOf "W_IDENTIFIER" = reviewIdentifiers fields relations := by
  obtain ⟨accessors, -, rfl⟩ := exists_of_reviewRequest h
  rw [Findings.warningsOf_append, Findings.warningsOf_append, Findings.warningsOf_append,
    Findings.warningsOf_eq_nil (isWarning_reviewTypes fields) (by decide),
    Findings.warningsOf_eq_self (isWarning_reviewIdentifiers fields relations),
    Findings.warningsOf_eq_nil (isWarning_reviewSkipped skipped) (by decide),
    Findings.warningsOf_eq_nil (isWarning_reviewAccessorsAfter fields [] accessors) (by decide), List.append_nil,
    List.append_nil]
  rfl

end CrudScaffold.Checks
