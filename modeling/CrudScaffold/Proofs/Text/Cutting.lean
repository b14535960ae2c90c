import CrudScaffold.Proofs.Text.Characters
import Mathlib.Data.List.DropRight

/-!
# CrudScaffold.Proofs.Text.Cutting — pieces of texts, and texts without blanks at their ends

Pieces without the separator that are joined with it are what cutting the joined text gives back
(`cutAll_intercalate`), so what is written with separators can be read back.  A text is trimmed
when its first and its last character are no blanks (`trim_eq_self_iff`); trimming a text once more changes nothing.
-/

namespace CrudScaffold.Text

/-! ### Pieces -/

theorem cutAll_eq_splitOn (sep : Char) (cs : List Char) : cutAll sep cs = cs.splitOn sep := by
  induction cs with
  | nil => rfl
  | cons c cs ih =>
    rw [List.splitOn_eq_splitOnP] at ih ⊢
    rw [List.splitOnP_cons_eq_if_modifyHead, ← ih, cutAll]
    cases h : cutAll sep cs with
    | nil => exact absurd h (cutAll_ne_nil sep cs)
    | cons piece rest => by_cases hc : c = sep <;> simp [hc]

theorem cutAll_of_notMem {sep : Char} {cs : List Char} (h : sep ∉ cs) : cutAll sep cs = [cs] := by
  rw [cutAll_eq_splitOn, List.splitOn_eq_singleton h]

/-- Cutting a joined text gives the pieces back, if they are free of the separator. -/
theorem cutAll_intercalate {sep : Char} {pieces : List (List Char)} (hne : pieces ≠ [])
    (hclean : ∀ p ∈ pieces, sep ∉ p) : cutAll sep ([sep].intercalate pieces) = pieces := by
  rw [cutAll_eq_splitOn, List.splitOn_intercalate sep hclean hne]

/-- What has no separator in it stands in front of the first piece. -/
theorem cutAll_append {sep : Char} {front : List Char} (h : sep ∉ front) (cs : List Char) :
    ∃ piece rest, cutAll sep (front ++ cs) = (front ++ piece) :: rest := by
  induction front with
  | nil =>
    cases hcut : cutAll sep cs with
    | nil => exact absurd hcut (cutAll_ne_nil sep cs)
    | cons piece rest => exact ⟨piece, rest, hcut⟩
  | cons c front ih =>
    have hc : c ≠ sep := fun hc => h (hc ▸ List.mem_cons_self)
    obtain ⟨piece, rest, hcut⟩ := ih fun hmem => h (List.mem_cons_of_mem _ hmem)
    refine ⟨piece, rest, ?_⟩
    rw [List.cons_append, cutAll, if_neg hc, hcut]
    rfl

/-- A piece is made of characters of the text other than the separator. -/
theorem mem_of_mem_cutAll {sep : Char} {cs piece : List Char} (h : piece ∈ cutAll sep cs) {c : Char} (hc : c ∈ piece) :
    c ∈ cs ∧ c ≠ sep := by
  induction cs generalizing piece with
  | nil =>
    obtain rfl := List.mem_singleton.1 h
    cases hc
  | cons d cs ih =>
    have hrest : ∀ p ∈ cutAll sep cs, c ∈ p → c ∈ d :: cs ∧ c ≠ sep := fun p hp hcp =>
      ⟨List.mem_cons_of_mem _ (ih hp hcp).1, (ih hp hcp).2⟩
    rw [cutAll] at h
    -- at a separator a new piece begins; any other character goes to the first piece
    split at h
    · rcases List.mem_cons.1 h with rfl | h
      · cases hc
      · exact hrest piece h hc
    · rename_i hd
      cases hcut : cutAll sep cs with
      | nil => exact absurd hcut (cutAll_ne_nil sep cs)
      | cons first rest =>
        rw [hcut] at h hrest
        rcases List.mem_cons.1 h with rfl | h
        · rcases List.mem_cons.1 hc with rfl | hc
          · exact ⟨List.mem_cons_self, hd⟩
          · exact hrest first List.mem_cons_self hc
        · exact hrest piece (List.mem_cons_of_mem _ h) hc

/-- A text is cut at its first separator, if it has one. -/
theorem cutFirst_eq_some_iff {sep : Char} {cs before after : List Char} :
    cutFirst sep cs = some (before, after) ↔ cs = before ++ sep :: after ∧ sep ∉ before := by
  induction cs generalizing before with
  | nil => simp [cutFirst]
  | cons c cs ih =>
    -- the first separator is this one, or one in the rest
    by_cases hc : c = sep
    · subst hc
      cases before with
      | nil => simp [cutFirst, eq_comm]
      | cons b before =>
        simp only [cutFirst, if_true, Option.some.injEq, Prod.mk.injEq, List.cons_append, List.cons.injEq,
          List.mem_cons]
        constructor
        · rintro ⟨h, -⟩
          cases h
        · rintro ⟨⟨h, -⟩, hb⟩
          exact absurd (Or.inl h) hb
    · rw [cutFirst, if_neg hc, Option.map_eq_some_iff]
      cases before with
      | nil => simp [hc]
      | cons b before =>
        constructor
        · rintro ⟨⟨x, y⟩, hxy, h⟩
          cases h
          obtain ⟨hcs, hx⟩ := ih.1 hxy
          refine ⟨by rw [hcs, List.cons_append], fun hmem => ?_⟩
          rcases List.mem_cons.1 hmem with h | h
          · exact hc h.symm
          · exact hx h
        · rintro ⟨hcs, hb⟩
          obtain ⟨rfl, hrest⟩ := List.cons.inj hcs
          exact ⟨(before, after), ih.2 ⟨hrest, fun h => hb (List.mem_cons_of_mem _ h)⟩, rfl⟩

theorem cutFirst_eq_none_iff {sep : Char} {cs : List Char} : cutFirst sep cs = none ↔ sep ∉ cs := by
  induction cs with
  | nil => simp [cutFirst]
  | cons c cs ih =>
    rw [cutFirst]
    split
    · rename_i hc
      simp [hc]
    · rename_i hc
      rw [Option.map_eq_none_iff, ih, List.mem_cons, not_or]
      exact ⟨fun h => ⟨fun he => hc he.symm, h⟩, fun h => h.2⟩

/-! ### Trimmed texts -/

theorem trim_eq_nil_iff {cs : List Char} : trim cs = [] ↔ ∀ c ∈ cs, isBlank c = true := by
  constructor
  · intro h c hc
    by_contra hb
    exact trim_ne_nil hc (by simpa using hb) h
  · intro h
    rw [trim, List.dropWhile_eq_nil_iff.2 h]
    rfl

/-- A text is trimmed when no blank stands at its ends. -/
theorem trim_eq_self_iff {cs : List Char} :
    trim cs = cs ↔ (∀ c ∈ cs.head?, isBlank c = false) ∧ ∀ c ∈ cs.getLast?, isBlank c = false := trimBy_eq_self_iff

/-- No blank stands at the ends of what trimming leaves. -/
theorem trim_trim (cs : List Char) : trim (trim cs) = trim cs := trimBy_eq_self_iff.2 (bare_trimBy isBlank cs)

/-- A text with no blank at the ends of its first part and of its last one is trimmed. -/
theorem trim_append_append {front : List Char} (middle : List Char) {back : List Char}
    (hfront : trim front = front) (hne : front ≠ []) (hback : trim back = back) (hne' : back ≠ []) :
    trim (front ++ middle ++ back) = front ++ middle ++ back := by
  refine trim_eq_self_iff.2 ⟨?_, ?_⟩
  · rw [List.append_assoc, List.head?_append_of_ne_nil _ hne]
    exact (trim_eq_self_iff.1 hfront).1
  · rw [List.getLast?_append_of_ne_nil _ hne']
    exact (trim_eq_self_iff.1 hback).2

theorem toList_strip (s : String) : (strip s).toList = trim s.toList := String.toList_ofList

theorem strip_eq_self_iff {s : String} : strip s = s ↔ trim s.toList = s.toList := by
  rw [← String.toList_inj, toList_strip]

/-- Joined texts are read back by cutting and trimming, if they are trimmed and free of the separator. -/
theorem map_trim_cutAll_intercalate (sep : Char) {texts : List String} (hne : texts ≠ [])
    (hclean : ∀ s ∈ texts, sep ∉ s.toList) (htrim : ∀ s ∈ texts, strip s = s) :
    (cutAll sep ((String.singleton sep).intercalate texts).toList).map (fun t => String.ofList (trim t)) = texts := by
  rw [String.toList_intercalate, String.toList_singleton, cutAll_intercalate (by simpa using hne), List.map_map]
  · refine (List.map_congr_left fun s hs => ?_).trans (List.map_id texts)
    exact htrim s hs
  · intro piece hpiece
    obtain ⟨s, hs, rfl⟩ := List.mem_map.1 hpiece
    exact hclean s hs

end CrudScaffold.Text
