import CrudScaffold.Proofs.Naming.LastWord
import CrudScaffold.Proofs.Text.CaseImages

/-!
# CrudScaffold.Proofs.Naming.Singulars — names that have no singular to speak of

Taking the singular of a name keeps at least one of its letters and digits, with one exception: an `s` at the end of
the name is taken away even if there is no other letter (`letters_inflectLast_singularWord`).  The name may have
characters beyond ASCII, so the proof follows them through lower and upper case: no other character becomes an `s` in
lower case (`eq_of_mem_lowerChar`).
-/

namespace CrudScaffold.Naming

open CrudScaffold.Text

/-- An `s`, small or capital, is the last character of the text and its only letter or digit. -/
def IsLoneS (cs : List Char) : Prop :=
  ∃ front c, cs = front ++ [c] ∧ (c = 's' ∨ c = 'S') ∧ ∀ d ∈ front, d.isAlphanum = false

/-! ### Lower case -/

/-- No other character becomes an `s` in lower case. -/
theorem eq_of_mem_lowerChar {c : Char} (h : 's' ∈ lowerChar c) : c = 's' ∨ c = 'S' := by
  have hsources : lowerSources 's'.toNat 's'.toNat = [] := by decide
  rcases mem_lowerChar h (by decide) (Nat.le_refl _) (Nat.le_refl _) with hlow | hsource
  · have hnumber : c.toLower.toNat = 115 := congrArg Char.toNat hlow.symm
    rw [← Char.toNat_inj, ← Char.toNat_inj]
    show c.toNat = 115 ∨ c.toNat = 83
    grind
  · rw [hsources] at hsource
    cases hsource

theorem exists_s_of_lowerChars {cs : List Char} (h : (lowerChars cs).getLast? = some 's') :
    ∃ front c, cs = front ++ [c] ∧ (c = 's' ∨ c = 'S') := by
  rcases List.eq_nil_or_concat cs with rfl | ⟨front, c, rfl⟩
  · cases h
  obtain ⟨before, image, himage, hlower, -⟩ := lowerAfter_concat [] front c
  rw [List.concat_eq_append, lowerChars, hlower, List.getLast?_append_of_ne_nil _ himage.ne_nil] at h
  have hmem := himage.mem_lowerChar (List.mem_of_getLast? h) rfl
  exact ⟨front, c, List.concat_eq_append, eq_of_mem_lowerChar hmem⟩

/-! ### Letters and digits -/

theorem letters_eq_zero_iff {cs : List Char} : letters cs = 0 ↔ ∀ c ∈ cs, c.isAlphanum = false := by
  simp [letters]

theorem letters_pos_iff {cs : List Char} : 0 < letters cs ↔ ∃ c ∈ cs, c.isAlphanum = true := List.countP_pos_iff

theorem letters_cons_le {c : Char} {cs piece rest : List Char} (hpiece : c.isAlphanum = true → 0 < letters piece)
    (hrest : letters cs ≤ letters rest) : letters (c :: cs) ≤ letters (piece ++ rest) := by
  have hcons : letters (c :: cs) = letters cs + if c.isAlphanum = true then 1 else 0 := List.countP_cons
  rw [hcons, letters_append]
  split
  · rename_i hc
    have hpiece := hpiece hc
    omega
  · omega

theorem letters_lowerAfter (before cs : List Char) : letters cs ≤ letters (lowerAfter before cs) := by
  induction cs generalizing before with
  | nil => exact Nat.le_refl _
  | cons c cs ih =>
    refine letters_cons_le (fun hc => ?_) (ih _)
    have hascii := toNat_lt_of_isAlphanum hc
    rw [if_neg (by omega), lowerChar_of_isAlphanum hc]
    exact letters_pos_iff.2 ⟨_, List.mem_cons_self, isAlphanum_toLower hc⟩

theorem letters_upperChar {c : Char} (h : c.isAlphanum = true) : 0 < letters (upperChar c) := by
  rw [upperChar, if_pos (toNat_lt_of_isAlphanum h)]
  exact letters_pos_iff.2 ⟨_, List.mem_cons_self, isAlphanum_toUpper h⟩

theorem letters_upperChars (cs : List Char) : letters cs ≤ letters (upperChars cs) := by
  induction cs with
  | nil => exact Nat.le_refl _
  | cons c cs ih => exact letters_cons_le letters_upperChar ih

theorem letters_matchCase (pattern inflected : List Char) : letters inflected ≤ letters (matchCase pattern inflected) := by
  unfold matchCase
  split
  · exact letters_upperChars inflected
  split
  · cases inflected with
    | nil => exact Nat.le_refl _
    | cons c cs => exact letters_cons_le letters_upperChar (Nat.le_refl _)
  · exact Nat.le_refl _

/-! ### Singulars -/

theorem endsIn_iff {endings : List String} {word : List Char} :
    endsIn endings word = true ↔ ∃ e ∈ endings, ∃ front, word = front ++ e.toList := by
  simp only [endsIn, List.any_eq_true, List.isSuffixOf_iff_suffix]
  exact exists_congr fun e => and_congr_right fun _ => exists_congr fun front => eq_comm

theorem endsIn_singleton_iff {ending : String} {word : List Char} :
    endsIn [ending] word = true ↔ ∃ front, word = front ++ ending.toList := by
  simp only [endsIn_iff, List.mem_singleton, exists_eq_left]

/-- What holds of the words with each of the endings holds of a word that has one of them. -/
@[elab_as_elim]
theorem endsIn_elim {endings : List String} {word : List Char} {motive : List Char → Prop}
    (h : endsIn endings word = true) (hall : ∀ e ∈ endings, ∀ front, motive (front ++ e.toList)) : motive word := by
  obtain ⟨e, he, front, rfl⟩ := endsIn_iff.1 h
  exact hall e he front

theorem dropEnd_append (front : List Char) {n : Nat} {back : List Char} (h : n ≤ back.length) :
    dropEnd n (front ++ back) = front ++ dropEnd n back := by
  rw [dropEnd, dropEnd, List.length_append, Nat.add_sub_assoc h, List.take_length_add_append]

/-- The singular of an irregular plural is in the table. -/
theorem irregularSingular_ok {w image : List Char} (h : irregularSingular? w = some image) :
    ∃ p ∈ irregular, p.2.toList = w ∧ p.1.toList = image := by
  unfold irregularSingular? at h
  obtain ⟨p, hp, rfl⟩ := Option.map_eq_some_iff.1 h
  exact ⟨p, List.mem_of_find?_eq_some hp, by simpa using List.find?_some hp, rfl⟩

/-- The singular of a word loses all its letters and digits only if it is an `s` at the end. -/
theorem exists_s_of_singularWord {word : List Char} (h : 0 < letters word) (hnone : letters (singularWord word) = 0) :
    ∃ front, word = front ++ ['s'] ∧ letters front = 0 := by
  have hregular : letters (regularSingular word) = 0 → ∃ front, word = front ++ ['s'] ∧ letters front = 0 := by
    intro hnone
    -- the branches of the rules: only the last one may leave no letter
    unfold regularSingular at hnone
    split at hnone
    · omega
    split at hnone
    · rw [letters_append] at hnone
      have hy : letters ['y'] = 1 := rfl
      omega
    split at hnone
    · -- these endings have letters before the two that are taken away
      rename_i hends
      obtain ⟨e, he, front, rfl⟩ := endsIn_iff.1 hends
      have hlonger : ∀ e ∈ ["sses", "xes", "ches", "shes", "zzes"],
          2 ≤ e.toList.length ∧ 0 < letters (dropEnd 2 e.toList) := by decide
      obtain ⟨hlength, hletters⟩ := hlonger e he
      rw [dropEnd_append front hlength, letters_append] at hnone
      omega
    split at hnone
    · rename_i hends
      obtain ⟨front, rfl⟩ := endsIn_singleton_iff.1 hends
      rw [dropEnd_append front (by decide), letters_append] at hnone
      exact ⟨front, rfl, by omega⟩
    · omega
  unfold singularWord at hnone
  -- a listed word keeps its letters, and an irregular singular has some
  split at hnone
  · omega
  cases himage : irregularSingular? word with
  | none =>
    rw [himage] at hnone
    exact hregular hnone
  | some image =>
    rw [himage] at hnone
    obtain ⟨p, hp, -, rfl⟩ := irregularSingular_ok himage
    have hone := (irregular_small p hp).1
    have hlength := hone.length
    rw [Option.getD_some, hone.letters_eq] at hnone
    omega

/-- An `s` has no singular to speak of, -/
theorem inflectLast_singularWord_s {c : Char} (hc : c = 's' ∨ c = 'S') : inflectLast singularWord [c] = [] := by
  have hlone : inflectLast singularWord ['s'] = [] ∧ inflectLast singularWord ['S'] = [] := by decide
  rcases hc with rfl | rfl
  · exact hlone.1
  · exact hlone.2

/-- and is taken away where it stands alone at the end of a text. -/
theorem inflectLast_singularWord_lone {front : List Char} {c : Char}
    (hfront : ∀ d ∈ front.getLast?, d.isAlphanum = false) (hc : c = 's' ∨ c = 'S') :
    inflectLast singularWord (front ++ [c]) = front := by
  have hword : IsTailWord [c] := by
    rcases hc with rfl | rfl
    · exact .low (List.cons_ne_nil _ _) (List.forall_mem_singleton.2 rfl)
    · exact .capitals (List.cons_ne_nil _ _) (List.forall_mem_singleton.2 rfl)
  rw [(lastWord_append hfront hword).inflectLast_eq, inflectLast_singularWord_s hc, List.append_nil]

/-- **Singulars keep a letter or a digit**, unless the name has only one and it is an `s` at its end. -/
theorem letters_inflectLast_singularWord {cs : List Char} (h : 0 < letters cs) :
    letters (inflectLast singularWord cs) = 0 ↔ IsLoneS cs := by
  constructor
  · intro hnone
    have hsplit := splitLastWord_append cs
    rw [inflectLast] at hnone
    generalize splitLastWord cs = parts at hsplit hnone
    obtain ⟨before, last⟩ := parts
    subst hsplit
    have hmatch := letters_matchCase last (singularWord (lowerChars last))
    have hlower : letters last ≤ letters (lowerChars last) := letters_lowerAfter [] last
    simp only [letters_append] at h hnone
    -- the last word has letters, and its singular has none
    have hpos : 0 < letters (lowerChars last) := by omega
    obtain ⟨front, hfront, hnofront⟩ := exists_s_of_singularWord hpos (by omega)
    have hends : (lowerChars last).getLast? = some 's' := by rw [hfront, List.getLast?_concat]
    obtain ⟨rest, c, rfl, hc⟩ := exists_s_of_lowerChars hends
    have hone : letters (lowerChars (rest ++ [c])) = 1 := by
      rw [hfront, letters_append, hnofront]
      rfl
    have hletter : letters [c] = 1 := by rcases hc with rfl | rfl <;> rfl
    rw [letters_append] at hlower
    refine ⟨before ++ rest, c, (List.append_assoc _ _ _).symm, hc, letters_eq_zero_iff.1 ?_⟩
    rw [letters_append]
    omega
  · rintro ⟨front, c, rfl, hc, hfront⟩
    rw [inflectLast_singularWord_lone (fun d hd => hfront d (List.mem_of_getLast? hd)) hc]
    exact letters_eq_zero_iff.2 hfront

end CrudScaffold.Naming
