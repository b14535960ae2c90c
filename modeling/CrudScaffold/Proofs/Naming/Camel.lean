import CrudScaffold.Proofs.Naming.Snake
import CrudScaffold.Proofs.Naming.WordScan

/-!
# CrudScaffold.Proofs.Naming.Camel — what accessors are made of

The camel-case form of a name has letters and digits only, and so has its plural.  The accessor of a relation is one
of the two (`isAlphanum_of_accessor`).
-/

namespace CrudScaffold.Naming

open CrudScaffold.Text

theorem isAlphanum_of_mem_camelWords {cs w : List Char} {c : Char} (hw : w ∈ camelWords cs) (hc : c ∈ w) :
    c.isAlphanum = true := by
  rw [camelWords_eq_blocks] at hw
  exact (mem_of_mem_blocks hw hc).2

theorem ne_nil_of_mem_camelWords {cs w : List Char} (h : w ∈ camelWords cs) : w ≠ [] := by
  rw [camelWords_eq_blocks] at h
  exact ne_nil_of_mem_blocks h

theorem flatten_camelWords (cs : List Char) : (camelWords cs).flatten = cs.filter Char.isAlphanum := by
  rw [camelWords_eq_blocks, flatten_blocks]

theorem map_lowerChars_camelWords (cs : List Char) :
    (camelWords cs).map lowerChars = (camelWords cs).map fun w => w.map Char.toLower :=
  List.map_congr_left fun _ hw =>
    lowerChars_of_ascii fun _ hc => toNat_lt_of_isAlphanum (isAlphanum_of_mem_camelWords hw hc)

theorem camelCase_ok {name s : String} (h : camelCase name = .ok s) : ∃ first others,
    camelWords (trim name.toList) = first :: others ∧
      s.toList = first.map Char.toLower ++ others.flatMap fun w => capitalize (w.map Char.toLower) := by
  have h := nameChars_bind_ok h
  rw [map_lowerChars_camelWords] at h
  cases hwords : camelWords (trim name.toList) with
  | nil =>
    rw [hwords] at h
    cases h
  | cons first others =>
    rw [hwords] at h
    obtain rfl := Except.ok.inj h
    exact ⟨first, others, rfl, by rw [String.toList_ofList, List.flatMap_map]⟩

theorem isAlphanum_of_mem_capitalize {w : List Char} (hw : ∀ c ∈ w, c.isAlphanum = true) {c : Char}
    (hc : c ∈ capitalize w) : c.isAlphanum = true := by
  cases w with
  | nil => cases hc
  | cons d w =>
    rcases List.mem_cons.1 hc with rfl | hc
    · exact isAlphanum_toUpper (hw d List.mem_cons_self)
    · exact hw c (List.mem_cons_of_mem _ hc)

/-- The camel-case form has letters and digits only, and at least one. -/
theorem isAlphanum_of_camelCase {name s : String} (h : camelCase name = .ok s) :
    s.toList ≠ [] ∧ ∀ c ∈ s.toList, c.isAlphanum = true := by
  obtain ⟨first, others, hwords, hs⟩ := camelCase_ok h
  have hfirst : first ∈ camelWords (trim name.toList) := hwords ▸ List.mem_cons_self
  have hlower : ∀ w ∈ camelWords (trim name.toList), ∀ c ∈ w.map Char.toLower, c.isAlphanum = true := by
    intro w hw c hc
    obtain ⟨d, hd, rfl⟩ := List.mem_map.1 hc
    exact isAlphanum_toLower (isAlphanum_of_mem_camelWords hw hd)
  rw [hs]
  refine ⟨fun hnil => ne_nil_of_mem_camelWords hfirst ?_, fun c hc => ?_⟩
  · simpa using (List.append_eq_nil_iff.1 hnil).1
  rcases List.mem_append.1 hc with hc | hc
  · exact hlower first hfirst c hc
  · obtain ⟨w, hw, hc⟩ := List.mem_flatMap.1 hc
    exact isAlphanum_of_mem_capitalize (hlower w (hwords ▸ List.mem_cons_of_mem _ hw)) hc

/-- The camel-case form does not begin with a capital. -/
theorem isUpper_head_of_camelCase {name s : String} (h : camelCase name = .ok s) :
    ∀ c ∈ s.toList.head?, c.isUpper = false := by
  obtain ⟨first, others, hwords, hs⟩ := camelCase_ok h
  have hfirst : first ∈ camelWords (trim name.toList) := hwords ▸ List.mem_cons_self
  obtain ⟨c, w, rfl⟩ := List.exists_cons_of_ne_nil (ne_nil_of_mem_camelWords hfirst)
  intro d hd
  obtain rfl : c.toLower = d := by simpa [hs] using hd
  exact isUpper_toLower c

/-! ### Plurals -/

/-- The letter case of a pattern raises letters, and changes nothing else. -/
theorem mem_matchCase {pattern inflected : List Char} {c : Char} (h : c ∈ matchCase pattern inflected) :
    c ∈ inflected ∨ ∃ d ∈ inflected, c ∈ upperChar d := by
  unfold matchCase at h
  split at h
  · exact Or.inr (List.mem_flatMap.1 h)
  split at h
  · cases inflected with
    | nil => cases h
    | cons d ds =>
      rcases List.mem_append.1 h with h | h
      · exact Or.inr ⟨d, List.mem_cons_self, h⟩
      · exact Or.inl (List.mem_cons_of_mem _ h)
  · exact Or.inl h

theorem isAlphanum_of_mem_matchCase {pattern inflected : List Char} (h : ∀ c ∈ inflected, c.isAlphanum = true)
    {c : Char} (hc : c ∈ matchCase pattern inflected) : c.isAlphanum = true := by
  rcases mem_matchCase hc with hc | ⟨d, hd, hc⟩
  · exact h c hc
  · have halnum := h d hd
    rw [upperChar, if_pos (toNat_lt_of_isAlphanum halnum), List.mem_singleton] at hc
    exact hc ▸ isAlphanum_toUpper halnum

/-- The plural of a name of letters and digits has letters and digits only. -/
theorem isAlphanum_of_plural {name s : String} (hname : ∀ c ∈ name.toList, c.isAlphanum = true)
    (h : plural name = .ok s) : ∀ c ∈ s.toList, c.isAlphanum = true := by
  have hall : ∀ c ∈ (splitLastWord (trim name.toList)).1 ++ (splitLastWord (trim name.toList)).2,
      c.isAlphanum = true := by
    rw [splitLastWord_append]
    exact fun c hc => hname c (mem_trim hc)
  obtain ⟨hbefore, hlast⟩ := List.forall_mem_append.1 hall
  intro c hc
  rw [toList_plural h] at hc
  rcases List.mem_append.1 hc with hc | hc
  · exact hbefore c hc
  -- the last word is inflected in its own letter case, which spells no letter out
  refine isAlphanum_of_mem_matchCase (fun d hd => ?_) hc
  rcases mem_pluralWord hd with hd | hd
  · rw [lowerChars_of_ascii fun e he => toNat_lt_of_isAlphanum (hlast e he)] at hd
    obtain ⟨e, he, rfl⟩ := List.mem_map.1 hd
    exact isAlphanum_toLower (hlast e he)
  · exact isAlphanum_of_isLower hd

/-! ### Accessors -/

/-- The accessor of a relation has letters and digits only. -/
theorem isAlphanum_of_accessor {r : Spec.Relation} {accessor : String} (h : r.accessor = .ok accessor) :
    ∀ c ∈ accessor.toList, c.isAlphanum = true := by
  obtain ⟨base, -, h⟩ := bind_eq_ok.1 h
  split at h
  · obtain ⟨camel, hcamel, h⟩ := bind_eq_ok.1 h
    exact isAlphanum_of_plural (isAlphanum_of_camelCase hcamel).2 h
  · exact (isAlphanum_of_camelCase h).2

end CrudScaffold.Naming
