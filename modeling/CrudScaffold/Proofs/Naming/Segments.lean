import CrudScaffold.Generation.EntityNames
import CrudScaffold.Proofs.Naming.Blocks
import CrudScaffold.Proofs.Naming.Snake

/-!
# CrudScaffold.Proofs.Naming.Segments — the segments of qualified names

A text without separators is its own only segment, and joining segments by slashes keeps them (`segments_intercalate`).
So the file of a model has the name of the model, whatever qualifiers stand before it (`getLast_modelTarget`).
-/

namespace CrudScaffold.Naming

open CrudScaffold.Text

/-- A segment of a name: not empty, and without separators. -/
def IsSegment (w : List Char) : Prop := w ≠ [] ∧ ∀ c ∈ w, isSeparator c = false

theorem isSegment_of_mem {cs w : List Char} (h : w ∈ segments cs) : IsSegment w := by
  refine ⟨ne_nil_of_mem_blocks h, fun c hc => ?_⟩
  simpa using (mem_of_mem_blocks h hc).2

theorem mem_of_mem_segments {cs w : List Char} (h : w ∈ segments cs) {c : Char} (hc : c ∈ w) : c ∈ cs :=
  (mem_of_mem_blocks h hc).1

theorem uncut_of_isSegment {w : List Char} (h : IsSegment w) :
    Uncut (fun c => !isSeparator c) (fun _ _ _ => false) w :=
  ⟨h.1, fun c hc => by simp [h.2 c hc], fun _ _ _ _ => rfl⟩

theorem segments_of_isSegment {w : List Char} (h : IsSegment w) : segments w = [w] :=
  blocks_of_uncut (uncut_of_isSegment h)

/-- Joining segments by slashes keeps them. -/
theorem segments_intercalate {ws : List (List Char)} (h : ∀ w ∈ ws, IsSegment w) :
    segments (['/'].intercalate ws) = ws :=
  blocks_intercalate (fun w hw => uncut_of_isSegment (h w hw)) rfl

/-- The text ends in the segment: there are only separators behind it, and a separator stands before it if anything
does. -/
structure EndsInSegment (cs w : List Char) : Prop where
  segment : IsSegment w
  split : ∃ front back, cs = front ++ w ++ back ∧ (∀ c ∈ front.getLast?, isSeparator c = true) ∧
    ∀ c ∈ back, isSeparator c = true

/-- The last segment of a text is the one that it ends in. -/
theorem getLast_segments_iff {cs w : List Char} : (segments cs).getLast? = some w ↔ EndsInSegment cs w := by
  have hlast : ∀ {v : List Char}, EndsInSegment cs v → (segments cs).getLast? = some v := by
    rintro v ⟨hsegment, front, back, rfl, hfront, hback⟩
    have hdropped : ∀ c ∈ back, (!isSeparator c) = false := fun c hc => by simp [hback c hc]
    rw [segments, blocks_append_of_neg_right (fun _ _ _ _ => rfl) _ hdropped]
    -- in front of the last segment stands a separator, or nothing
    rcases List.eq_nil_or_concat front with rfl | ⟨front, sep, rfl⟩
    · rw [List.nil_append, blocks_of_uncut (uncut_of_isSegment hsegment)]
      rfl
    · have hsep := hfront sep (by simp)
      rw [List.concat_eq_append, List.append_assoc, List.singleton_append,
        blocks_append_cons (fun _ _ _ _ => rfl) front (by simp [hsep]), blocks_of_uncut (uncut_of_isSegment hsegment),
        List.getLast?_concat]
  refine ⟨fun h => ?_, hlast⟩
  -- scanning from the end finds a segment, and it is the last one
  obtain ⟨back, rest, hcs, hback, hrest⟩ := exists_scan isSeparator cs.reverse
  obtain ⟨v, front, rfl, hv, hfront⟩ := exists_scan (fun c => !isSeparator c) rest
  have hsplit : cs = front.reverse ++ v.reverse ++ back.reverse := by
    rw [← List.reverse_reverse cs, hcs, List.reverse_append, List.reverse_append]
  -- without a last segment there would be none at all
  have hne : v ≠ [] := by
    rintro rfl
    cases front with
    | nil =>
      have hnone : segments cs = [] := blocks_eq_nil_iff.2 fun c hc => by
        have hc : c ∈ back := by simpa [hsplit] using hc
        simp [hback c hc]
      rw [hnone] at h
      cases h
    | cons c front =>
      have hc := hrest c rfl
      have hc' := hfront c rfl
      simp [hc] at hc'
  have hends : EndsInSegment cs v.reverse := by
    refine ⟨⟨by simpa using hne, fun c hc => ?_⟩, _, _, hsplit, ?_, by simpa using hback⟩
    · simpa using hv c (List.mem_reverse.1 hc)
    · rw [List.getLast?_reverse]
      exact fun c hc => by simpa using hfront c hc
  rw [hlast hends] at h
  obtain rfl := Option.some.inj h
  exact hends

/-! ### The names of an entity -/

theorem require_ok {given name : String} (h : require given = .ok name) : name.toList = trim given.toList := by
  unfold require at h
  cases hcs : nameChars given with
  | error e => rw [hcs] at h; cases h
  | ok cs =>
    rw [hcs] at h
    rw [← Except.ok.inj h, (nameChars_ok hcs).1, String.toList_ofList]

theorem baseName_ok {name base : String} (h : baseName name = .ok base) :
    (segments (trim name.toList)).getLast? = some base.toList := by
  have h := nameChars_bind_ok h
  split at h
  · rename_i last hlast
    cases h
    rw [hlast, String.toList_ofList]
  · cases h

/-- A name has a base name exactly when it has a segment: the last one. -/
theorem baseName_eq_ok_iff {name base : String} :
    baseName name = .ok base ↔ (segments (trim name.toList)).getLast? = some base.toList := by
  refine ⟨baseName_ok, fun h => ?_⟩
  have hne : trim name.toList ≠ [] := by
    intro hnil
    rw [hnil] at h
    cases h
  rw [baseName, nameChars_of_ne_nil hne]
  simp only [bind, Except.bind, h]
  exact congrArg Except.ok String.ofList_toList

theorem qualifier_ok {name : String} {qs : List String} (h : qualifier name = .ok qs) :
    qs = (segments (trim name.toList)).dropLast.map String.ofList := by
  have h := nameChars_bind_ok h
  cases h
  rfl

end CrudScaffold.Naming

namespace CrudScaffold.Generation

open CrudScaffold.Naming CrudScaffold.Text

/-- How the names of an entity follow from the given name, its qualifiers and the root of the namespace. -/
structure Derived (given root : String) (names : EntityNames) (qualifiers : List String) : Prop where
  entity : require given = .ok names.entity
  model : baseName names.entity = .ok names.modelName
  front : qualifier names.entity = .ok qualifiers
  table : pluralSnake names.modelName = .ok names.tableName
  modelVariable : camelCase names.modelName = .ok names.modelVariable
  target : names.modelTarget = "/".intercalate (qualifiers ++ [names.modelName])
  modelNamespace : names.modelNamespace = "\\".intercalate (root :: qualifiers)
  controller : names.controllerName = names.modelName ++ "Controller"
  storeRequest : names.storeRequestName = names.modelName ++ "StoreRequest"
  updateRequest : names.updateRequestName = names.modelName ++ "UpdateRequest"

theorem ofEntity_ok {given root : String} {names : EntityNames} (h : EntityNames.ofEntity given root = .ok names) :
    ∃ qualifiers, Derived given root names qualifiers := by
  obtain ⟨name, hrequire, h⟩ := bind_eq_ok.1 h
  obtain ⟨model, hmodel, h⟩ := bind_eq_ok.1 h
  obtain ⟨qualifiers, hqualifiers, h⟩ := bind_eq_ok.1 h
  obtain ⟨table, htable, h⟩ := bind_eq_ok.1 h
  obtain ⟨instanceName, hinstance, h⟩ := bind_eq_ok.1 h
  obtain rfl := Except.ok.inj h
  exact ⟨qualifiers, hrequire, hmodel, hqualifiers, htable, hinstance, rfl, rfl, rfl, rfl, rfl⟩

theorem Derived.segments_eq {given root : String} {names : EntityNames} {qualifiers : List String}
    (h : Derived given root names qualifiers) :
    (qualifiers ++ [names.modelName]).map String.toList = segments (trim names.entity.toList) := by
  have hid : (String.toList ∘ String.ofList) = id := by
    funext cs
    simp
  rw [qualifier_ok h.front, List.map_append, List.map_map, hid, List.map_id, List.map_singleton]
  obtain ⟨front, hfront⟩ := List.getLast?_eq_some_iff.1 (baseName_ok h.model)
  rw [hfront, List.dropLast_concat]

theorem Derived.segments_modelTarget {given root : String} {names : EntityNames} {qualifiers : List String}
    (h : Derived given root names qualifiers) :
    segments names.modelTarget.toList = segments (trim names.entity.toList) := by
  rw [h.target, String.toList_intercalate, h.segments_eq]
  exact segments_intercalate fun w => isSegment_of_mem

/-- The qualifiers and the name of the model are made of characters of the given name. -/
theorem Derived.mem {given root : String} {names : EntityNames} {qualifiers : List String}
    (h : Derived given root names qualifiers) {s : String} (hs : s ∈ qualifiers ++ [names.modelName]) {c : Char}
    (hc : c ∈ s.toList) : c ∈ given.toList := by
  have hsegment : s.toList ∈ segments (trim names.entity.toList) := h.segments_eq ▸ List.mem_map_of_mem hs
  rw [require_ok h.entity] at hsegment
  exact mem_trim (mem_trim (mem_of_mem_segments hsegment hc))

/-- What the names of an entity are made of, and from which names. -/
structure Named (names : EntityNames) : Prop where
  model : IsSegment names.modelName.toList
  target : (segments names.modelTarget.toList).getLast? = some names.modelName.toList
  table : pluralSnake names.modelName = .ok names.tableName
  controller : names.controllerName = names.modelName ++ "Controller"
  storeRequest : names.storeRequestName = names.modelName ++ "StoreRequest"
  updateRequest : names.updateRequestName = names.modelName ++ "UpdateRequest"

theorem named_of_ofEntity {entity root : String} {names : EntityNames}
    (h : EntityNames.ofEntity entity root = .ok names) : Named names := by
  obtain ⟨qualifiers, hderived⟩ := ofEntity_ok h
  have hlast := baseName_ok hderived.model
  refine ⟨isSegment_of_mem (List.mem_of_getLast? hlast), ?_, hderived.table, hderived.controller,
    hderived.storeRequest, hderived.updateRequest⟩
  rw [hderived.segments_modelTarget, hlast]

end CrudScaffold.Generation
