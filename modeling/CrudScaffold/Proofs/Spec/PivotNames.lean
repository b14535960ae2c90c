import CrudScaffold.Proofs.Naming.Segments
import CrudScaffold.Proofs.Naming.Singulars
import CrudScaffold.Spec.Pivot
import Mathlib.Data.String.Basic

/-!
# CrudScaffold.Proofs.Spec.PivotNames — the name of a join table belongs to both entities

The name is the parts of the two entities, joined in ascending order (`pivotName_eq_ok_iff`), and the part of an entity
depends on the last segment of its name only (`pivotPart_congr`).  So both sides of a relation find the same name,
whatever qualifiers they write (`pivotName_shared`).  An entity with a usable name has a part unless this name
`EndsInLoneS` (`pivotPart_isOk_iff`).
-/

namespace CrudScaffold.Spec

open CrudScaffold.Naming CrudScaffold.Text

/-- The last segment of the name has an `s` at its end, and no other letter or digit. -/
def EndsInLoneS (name : String) : Prop :=
  ∃ segment, EndsInSegment (trim name.toList) segment ∧ IsLoneS (trim segment)

/-! ### Parts -/

theorem pivotPart_eq_ok_iff {name part : String} : pivotPart name = .ok part ↔
    ∃ base one, baseName name = .ok base ∧ singular base = .ok one ∧ snakeCase one = .ok part := by
  rw [pivotPart, bind_eq_ok]
  refine exists_congr fun base => ?_
  rw [bind_eq_ok]
  constructor
  · rintro ⟨hbase, one, hone, hpart⟩
    exact ⟨one, hbase, hone, hpart⟩
  · rintro ⟨one, hbase, hone, hpart⟩
    exact ⟨hbase, one, hone, hpart⟩

/-- Names that end in the same segment have the same part. -/
theorem pivotPart_congr {name name' : String} {segment : List Char} (h : EndsInSegment (trim name.toList) segment)
    (h' : EndsInSegment (trim name'.toList) segment) : pivotPart name = pivotPart name' := by
  have hbase : ∀ {given : String}, EndsInSegment (trim given.toList) segment →
      baseName given = .ok (String.ofList segment) := by
    intro given hends
    rw [baseName_eq_ok_iff, String.toList_ofList, getLast_segments_iff]
    exact hends
  rw [pivotPart, pivotPart, hbase h, hbase h']

theorem singular_eq {name : String} (hne : trim name.toList ≠ []) :
    singular name = .ok (String.ofList (inflectLast singularWord (trim name.toList))) := by
  rw [singular, nameChars_of_ne_nil hne]
  rfl

/-- A base name with a letter or a digit has a part, unless its singular has none. -/
theorem pivotPart_isOk_iff {name base : String} (hbase : baseName name = .ok base)
    (hletter : ∃ c ∈ base.toList, c.isAlphanum = true) : (∃ part, pivotPart name = .ok part) ↔ ¬ EndsInLoneS name := by
  have hsegment : ∀ segment, EndsInSegment (trim name.toList) segment ↔ segment = base.toList := by
    intro segment
    rw [← getLast_segments_iff, baseName_ok hbase, Option.some.injEq, eq_comm]
  -- the base name has a letter, and so has what is inflected
  have hpos : 0 < letters (trim base.toList) := by
    rw [letters_trim]
    exact letters_pos_iff.2 hletter
  have hne : trim base.toList ≠ [] := by
    intro hnil
    rw [hnil] at hpos
    exact Nat.lt_irrefl 0 hpos
  have hpart : pivotPart name = snakeCase (String.ofList (inflectLast singularWord (trim base.toList))) := by
    simp only [pivotPart, hbase, singular_eq hne, bind, Except.bind]
  rw [hpart, snakeCase_isOk_iff, String.toList_ofList, ← letters_pos_iff, Nat.pos_iff_ne_zero, Ne,
    letters_inflectLast_singularWord hpos, EndsInLoneS]
  simp only [hsegment, exists_eq_left]

/-! ### Names -/

/-- The name of a join table is the two parts, the lower one first. -/
theorem pivotName_eq_ok_iff {entity related name : String} : pivotName entity related = .ok name ↔
    ∃ part part', pivotPart entity = .ok part ∧ pivotPart related = .ok part' ∧
      name = min part part' ++ "_" ++ max part part' := by
  -- the parts are joined in their order
  have hjoin : ∀ part part' : String,
      (if part' < part then part' ++ "_" ++ part else part ++ "_" ++ part') =
        min part part' ++ "_" ++ max part part' := by
    intro part part'
    by_cases hlt : part' < part
    · rw [if_pos hlt, min_eq_right hlt.le, max_eq_left hlt.le]
    · rw [if_neg hlt, min_eq_left (not_lt.1 hlt), max_eq_right (not_lt.1 hlt)]
  rw [pivotName, bind_eq_ok]
  refine exists_congr fun part => ?_
  rw [bind_eq_ok]
  constructor
  · rintro ⟨hpart, part', hpart', hname⟩
    exact ⟨part', hpart, hpart', (Except.ok.inj hname).symm.trans (hjoin part part')⟩
  · rintro ⟨part', hpart, hpart', rfl⟩
    exact ⟨hpart, part', hpart', congrArg Except.ok (hjoin part part')⟩

theorem pivotName_isOk_iff {entity related : String} : (∃ name, pivotName entity related = .ok name) ↔
    (∃ part, pivotPart entity = .ok part) ∧ ∃ part, pivotPart related = .ok part := by
  constructor
  · rintro ⟨name, h⟩
    obtain ⟨part, part', hpart, hpart', -⟩ := pivotName_eq_ok_iff.1 h
    exact ⟨⟨part, hpart⟩, part', hpart'⟩
  · rintro ⟨⟨part, hpart⟩, part', hpart'⟩
    exact ⟨_, pivotName_eq_ok_iff.2 ⟨part, part', hpart, hpart', rfl⟩⟩

theorem pivotName_comm {entity related name : String} :
    pivotName entity related = .ok name ↔ pivotName related entity = .ok name := by
  have hswap : ∀ {a b : String}, pivotName a b = .ok name → pivotName b a = .ok name := by
    intro a b h
    obtain ⟨part, part', hpart, hpart', hname⟩ := pivotName_eq_ok_iff.1 h
    rw [min_comm, max_comm] at hname
    exact pivotName_eq_ok_iff.2 ⟨part', part, hpart', hpart, hname⟩
  exact ⟨hswap, hswap⟩

theorem isSnakeText_join {s t : String} (hs : IsSnakeText s) (ht : IsSnakeText t) : IsSnakeText (s ++ "_" ++ t) := by
  obtain ⟨words, hne, hwords, hs⟩ := hs
  obtain ⟨words', hne', hwords', ht⟩ := ht
  refine ⟨words ++ words', by simp [hne], List.forall_mem_append.2 ⟨hwords, hwords'⟩, ?_⟩
  rw [intercalate_append hne hne', String.toList_append, String.toList_append, hs, ht]
  rfl

/-- **The name of a join table belongs to both entities.**  Naming them in the other order gives the same name, or
fails as well; so do other names that end in the same segment.  The name is a snake-case text that begins with the
singular snake-case form of one of the base names and ends with that of the other one. -/
theorem pivotName_shared :
    (∀ a b : String, (∃ name, pivotName a b = .ok name ∧ pivotName b a = .ok name) ∨
      ((∃ fault, pivotName a b = .error fault) ∧ ∃ fault, pivotName b a = .error fault)) ∧
    (∀ (a a' : String) (segment : List Char), EndsInSegment (trim a.toList) segment →
      EndsInSegment (trim a'.toList) segment →
        ∀ b, pivotName a b = pivotName a' b ∧ pivotName b a = pivotName b a') ∧
    ∀ a b name : String, pivotName a b = .ok name → IsSnakeText name ∧
      ∃ base base' one one' part part',
        (baseName a = .ok base ∧ singular base = .ok one ∧ snakeCase one = .ok part) ∧
        (baseName b = .ok base' ∧ singular base' = .ok one' ∧ snakeCase one' = .ok part') ∧
        (name = part ++ "_" ++ part' ∨ name = part' ++ "_" ++ part) := by
  refine ⟨fun a b => ?_, fun a a' segment h h' b => ?_, fun a b name h => ?_⟩
  · cases hab : pivotName a b with
    | ok name => exact Or.inl ⟨name, rfl, pivotName_comm.1 hab⟩
    | error fault =>
      cases hba : pivotName b a with
      | ok name =>
        rw [pivotName_comm.1 hba] at hab
        cases hab
      | error fault' => exact Or.inr ⟨⟨fault, rfl⟩, fault', rfl⟩
  · rw [pivotName, pivotName, pivotName, pivotName, pivotPart_congr h h']
    exact ⟨rfl, rfl⟩
  · obtain ⟨part, part', hpart, hpart', hname⟩ := pivotName_eq_ok_iff.1 h
    obtain ⟨base, one, hbase, hone, hsnake⟩ := pivotPart_eq_ok_iff.1 hpart
    obtain ⟨base', one', hbase', hone', hsnake'⟩ := pivotPart_eq_ok_iff.1 hpart'
    -- whichever part is the smaller one stands first
    have hjoined : name = part ++ "_" ++ part' ∨ name = part' ++ "_" ++ part := by
      rcases le_total part part' with hle | hle
      · rw [min_eq_left hle, max_eq_right hle] at hname
        exact Or.inl hname
      · rw [min_eq_right hle, max_eq_left hle] at hname
        exact Or.inr hname
    refine ⟨?_, base, base', one, one', part, part', ⟨hbase, hone, hsnake⟩, ⟨hbase', hone', hsnake'⟩, hjoined⟩
    have htext := isSnakeText_of_snakeCase hsnake
    have htext' := isSnakeText_of_snakeCase hsnake'
    rcases hjoined with rfl | rfl
    · exact isSnakeText_join htext htext'
    · exact isSnakeText_join htext' htext

/-- Two spellings of one entity: a qualifier with a backslash, and slashes and blanks all around. -/
theorem pivotName_shared_qualified :
    EndsInSegment (trim "Blog\\Tags".toList) "Tags".toList ∧ EndsInSegment (trim " /App//Tags/ ".toList) "Tags".toList ∧
    pivotName "Blog\\Tags" "Post" = .ok "post_tag" ∧ pivotName "Post" " /App//Tags/ " = .ok "post_tag" ∧
    IsSnakeText "post_tag" := by
  have hfirst : EndsInSegment (trim "Blog\\Tags".toList) "Tags".toList := getLast_segments_iff.1 (by decide)
  have hsecond : EndsInSegment (trim " /App//Tags/ ".toList) "Tags".toList := getLast_segments_iff.1 (by decide)
  have hname : pivotName "Blog\\Tags" "Post" = .ok "post_tag" := by decide
  have hother : pivotName "Post" " /App//Tags/ " = .ok "post_tag" := by
    rw [← (pivotName_shared.2.1 _ _ _ hfirst hsecond "Post").2]
    exact pivotName_comm.1 hname
  exact ⟨hfirst, hsecond, hname, hother, (pivotName_shared.2.2 _ _ _ hother).1⟩

end CrudScaffold.Spec
