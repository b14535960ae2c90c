import CrudScaffold.Proofs.Template.Grammar
import CrudScaffold.Proofs.Text.Braces

/-!
# CrudScaffold.Proofs.Template.Packaged — the packaged templates can always be filled

The slots of a packaged template are among the placeholders that it declares, and its opening braces end their lines
(`fits_packaged`).  So values for the declared placeholders are all that filling needs: it does not fail and reports
nothing, strict or not (`render_packaged`).  Tidy values give a tidy text (`tidy_fill_packaged`).
-/

namespace CrudScaffold.Template

open CrudScaffold.Text

/-! ### The texts of the templates -/

theorem toList_textOfLines (lines : List String) :
    (textOfLines lines).toList = lines.flatMap fun line => line.toList ++ ['\n'] := by
  rw [textOfLines, String.toList_join, List.flatMap_map]
  simp

theorem toList_slot (name : String) :
    (slot name).toList = '\x7b' :: '\x7b' :: name.toList ++ ['\x7d', '\x7d'] := by
  simp [slot]

/-- A literal, or a slot for one of the names. -/
def Segment.isAmong (names : List (List Char)) : Segment → Bool
  | .literal _ => true
  | .marker m => names.contains m.name

/-- The opening braces outside of the slots end their lines. -/
def bracesEndLines (pieces : List Segment) : Bool := eachBefore (.literal '\x7b') (.literal '\n') pieces

/-- The templates are cut into pieces and looked through, after their texts have been written as lists of characters:
evaluation is slow on texts. -/
theorem fits_packaged (t : TemplateName) :
    (segments t.packaged.toList).all (Segment.isAmong (t.placeholders.map String.toList)) = true ∧
      bracesEndLines (segments t.packaged.toList) = true := by
  rw [← Bool.and_eq_true]
  cases t
  all_goals
    simp only [TemplateName.packaged, TemplateName.placeholders, modelText, migrationText, pivotMigrationText,
      controllerText, requestText, toList_textOfLines, toList_slot, String.toList_append, List.flatMap_cons,
      List.flatMap_nil, List.map_cons, List.map_nil]
    repeat rw [String.toList_ofList]
    decide +kernel

theorem mem_placeholders_of_marker {t : TemplateName} {m : Marker} (h : .marker m ∈ segments t.packaged.toList) :
    String.ofList m.name ∈ t.placeholders := by
  have hname := List.all_eq_true.1 (fits_packaged t).1 _ h
  rw [Segment.isAmong, List.contains_iff_mem, List.mem_map] at hname
  obtain ⟨name, hmem, hname⟩ := hname
  rwa [← hname, String.ofList_toList]

/-! ### Filling -/

/-- There is a value for each placeholder that the template declares. -/
def Covers (context : Context) (t : TemplateName) : Prop :=
  ∀ name ∈ t.placeholders, ∃ value, context.lookup name = some value

theorem covers_of_keys {context : Context} {t : TemplateName} (h : context.map Prod.fst = t.placeholders) :
    Covers context t := by
  intro name hname
  rw [← h, List.mem_map] at hname
  obtain ⟨entry, hentry, rfl⟩ := hname
  exact Option.isSome_iff_exists.1 (List.lookup_isSome_iff.2 ⟨entry, hentry, beq_self_eq_true _⟩)

theorem uncovered_packaged {context : Context} {t : TemplateName} (h : Covers context t) :
    uncovered context t.packaged = [] := by
  refine List.filter_eq_nil_iff.2 fun name hname => ?_
  obtain ⟨m, hpiece, rfl⟩ := mem_placeholdersOf.1 hname
  obtain ⟨value, hvalue⟩ := h _ (mem_placeholders_of_marker hpiece)
  simp [hvalue]

/-- The renderer of the packaged templates. -/
def Renderer.packaged (strict : Bool) : Renderer := ⟨.single .packaged, strict, packagedPlaceholders⟩

theorem get_packaged (v : View) (t : TemplateName) : (Store.single .packaged).get v t.label = .ok t.packaged := by
  cases t <;> rfl

theorem mem_requiredFor_packaged {strict : Bool} {t : TemplateName} {name : String}
    (h : name ∈ (Renderer.packaged strict).requiredFor t.label) : name ∈ t.placeholders := by
  have hlookup : packagedPlaceholders.lookup t.label = some t.placeholders := by cases t <;> rfl
  rw [Renderer.requiredFor, mem_sortTexts] at h
  have h := mem_distinct.1 h
  rw [Renderer.packaged] at h
  simp only [hlookup, Option.getD_some] at h
  exact h

/-- A packaged template with a value for each of its placeholders is filled, and nothing is reported. -/
theorem render_packaged (strict : Bool) (v : View) {t : TemplateName} {context : Context} (h : Covers context t) :
    (Renderer.packaged strict).render v t.label context = pure (fill context t.packaged) := by
  have hmissing : (((Renderer.packaged strict).requiredFor t.label).filter fun name =>
      (context.lookup name).isNone) = [] := by
    refine List.filter_eq_nil_iff.2 fun name hname => ?_
    obtain ⟨value, hvalue⟩ := h name (mem_requiredFor_packaged hname)
    simp [hvalue]
  rw [Renderer.render, Renderer.packaged, get_packaged]
  rw [Renderer.packaged] at hmissing
  show (if _ then _ else _) = _
  simp only [hmissing, List.isEmpty_nil, if_true, substitute, uncovered_packaged h]
  rfl

/-- Where every opening brace among the pieces ends its line, and the values are tidy, the filled text is tidy. -/
theorem eachBefore_fill {context : Context} {pieces : List Segment} (hbraces : bracesEndLines pieces = true)
    (hvalues : ∀ m, .marker m ∈ pieces → eachBefore '\x7b' '\n' ((Segment.marker m).fill context) = true) :
    eachBefore '\x7b' '\n' (pieces.flatMap (Segment.fill context)) = true := by
  induction pieces with
  | nil => rfl
  | cons piece pieces ih =>
    obtain ⟨hfirst, hrest⟩ := eachBefore_cons.1 hbraces
    have ih := ih hrest fun m hm => hvalues m (List.mem_cons_of_mem _ hm)
    rw [List.flatMap_cons]
    -- a value ends its own lines; a brace of the template has its line end behind it
    cases piece with
    | marker m => exact eachBefore_append (hvalues m List.mem_cons_self) ih
    | literal c =>
      refine eachBefore_cons.2 ⟨?_, ih⟩
      rcases hfirst with hfirst | hfirst
      · exact Or.inl fun hc => hfirst (congrArg _ hc)
      · obtain ⟨rest, rfl⟩ := List.head?_eq_some_iff.1 hfirst
        exact Or.inr rfl

/-- Tidy values give a tidy text. -/
theorem tidy_fill_packaged {t : TemplateName} {context : Context} (h : Covers context t)
    (htidy : ∀ entry ∈ context, Tidy entry.2) : Tidy (fill context t.packaged) := by
  rw [Tidy, fill, String.toList_ofList]
  refine eachBefore_fill (fits_packaged t).2 fun m hm => ?_
  obtain ⟨value, hvalue⟩ := h _ (mem_placeholders_of_marker hm)
  obtain ⟨front, back, hcontext, -⟩ := List.lookup_eq_some_iff.1 hvalue
  have hmem : (String.ofList m.name, value) ∈ context := by
    rw [hcontext]
    exact List.mem_append_right _ List.mem_cons_self
  simp only [Segment.fill, hvalue]
  exact htidy _ hmem

end CrudScaffold.Template
