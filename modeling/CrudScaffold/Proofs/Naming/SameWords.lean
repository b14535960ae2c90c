import CrudScaffold.Proofs.Naming.OpenEnds

/-!
# CrudScaffold.Proofs.Naming.SameWords — lower case and back again

A name that ends in neither a letter nor a digit is taken to lower case and back into its letter case whenever it is
inflected.  If this does not change the name, then it does not change the words of an ending of the name, which is its
last segment for example, even where it changes other characters of the ending (`snakeWords_matchCase_lowerChars`).
The letters and digits stay and what stands between them does not become one of them (`SameLetters`).
-/

namespace CrudScaffold.Naming

open CrudScaffold.Text

/-- The second text has the letters and digits of the first one, and something else for every other character. -/
inductive SameLetters : List Char → List Char → Prop
  | nil : SameLetters [] []
  | letter {c : Char} {cs ds : List Char} (hc : c.isAlphanum = true) (h : SameLetters cs ds) :
      SameLetters (c :: cs) (c :: ds)
  | other {c : Char} {image cs ds : List Char} (hc : c.isAlphanum = false) (hne : image ≠ [])
      (himage : ∀ d ∈ image, d.isAlphanum = false) (h : SameLetters cs ds) : SameLetters (c :: cs) (image ++ ds)

/-! ### Words -/

namespace SameLetters

variable {cs ds : List Char}

theorem head (h : SameLetters cs ds) : cs.head?.any Char.isLower = ds.head?.any Char.isLower := by
  cases h with
  | nil => rfl
  | letter hc h => rfl
  | @other c image cs ds hc hne himage h =>
    obtain ⟨d, image, rfl⟩ := List.exists_cons_of_ne_nil hne
    have hsmall : ∀ e : Char, e.isAlphanum = false → e.isLower = false := fun e he =>
      Bool.eq_false_iff.2 fun hlow => by simp [isAlphanum_of_isLower hlow] at he
    show c.isLower = d.isLower
    rw [hsmall c hc, hsmall d (himage d List.mem_cons_self)]

theorem blocks_cons_other {c d : Char} (hc : c.isAlphanum = true) (hd : d.isAlphanum = false) (rest : List Char) :
    snakeWords (c :: d :: rest) = [c] :: snakeWords (d :: rest) := by
  rw [snakeWords, blocks_cons_cons hc, snakeWords]
  cases blocks Char.isAlphanum caseCut (d :: rest) with
  | nil => rfl
  | cons w ws => simp [hd]

theorem snakeWords_eq (h : SameLetters cs ds) : snakeWords cs = snakeWords ds := by
  induction h with
  | nil => rfl
  | other hc hne himage h ih =>
    rw [snakeWords, snakeWords, blocks_cons_of_neg hc, blocks_append_of_neg himage]
    exact ih
  | @letter c cs ds hc h ih =>
    cases h with
    | nil => rfl
    -- whether the block goes on depends on the next characters, which are letters alike
    | @letter d cs ds hd h =>
      have hcut : caseCut c d cs.head? = caseCut c d ds.head? := by rw [caseCut, caseCut, h.head]
      rw [snakeWords, snakeWords] at ih ⊢
      rw [blocks_cons_cons hc, blocks_cons_cons hc, ih, hcut]
    | @other d image cs ds hd hne himage h =>
      obtain ⟨e, image, rfl⟩ := List.exists_cons_of_ne_nil hne
      rw [List.cons_append] at ih ⊢
      rw [blocks_cons_other hc hd, blocks_cons_other hc (himage e List.mem_cons_self), ih]

end SameLetters

/-! ### Texts -/

/-- A text in lower case, with its characters raised again one by one. -/
theorem sameLetters_lowerAfter (raise : Char → List Char) {cs : List Char}
    (hletter : ∀ c ∈ cs, c.isAlphanum = true → raise c.toLower = [c])
    (hother : ∀ c ∈ cs, c.isAlphanum = false → ∀ image, LowerImage c image → image.flatMap raise ≠ [] ∧
      ∀ d ∈ image.flatMap raise, d.isAlphanum = false) (before : List Char) :
    SameLetters cs ((lowerAfter before cs).flatMap raise) := by
  induction cs generalizing before with
  | nil => exact .nil
  | cons c cs ih =>
    obtain ⟨image, himage, hlower⟩ := lowerAfter_cons before c cs
    obtain ⟨hc, hcs⟩ := List.forall_mem_cons.1 hletter
    obtain ⟨hc', hcs'⟩ := List.forall_mem_cons.1 hother
    have hrest := ih hcs hcs' (c :: before)
    rw [hlower, List.flatMap_append]
    -- a letter comes back as itself, and anything else as no letter
    by_cases halnum : c.isAlphanum = true
    · rw [lowerImage_of_isAlphanum himage halnum, List.flatMap_singleton, hc halnum]
      exact .letter halnum hrest
    · have halnum := Bool.eq_false_iff.2 halnum
      obtain ⟨hne, hnone⟩ := hc' halnum image himage
      exact .other halnum hne hnone hrest

section Texts

variable {cs : List Char} (hlost : ∀ c ∈ cs, c ∉ lostCapitals)
include hlost

theorem sameLetters_lower (hsmall : ∀ c ∈ cs, c.isUpper = false) (before : List Char) :
    SameLetters cs (lowerAfter before cs) := by
  rw [← List.flatMap_singleton' (lowerAfter before cs)]
  apply sameLetters_lowerAfter
  · intro c hc halnum
    rw [isAlphanum_eq_or, hsmall c hc, Bool.or_false] at halnum
    rw [(isLowerOrDigit_fixed halnum).2]
  · intro c hc halnum image himage
    rw [List.flatMap_singleton']
    exact ⟨himage.ne_nil, fun d hd => (lowerImage_of_other himage halnum (hlost c hc) hd).1⟩

/-- In a text without small letters, lower case and upper case together change no letter. -/
theorem sameLetters_upper (hcapital : ∀ c ∈ cs, isLowerChar c = false) :
    SameLetters cs (upperChars (lowerChars cs)) := by
  refine sameLetters_lowerAfter upperChar ?_ ?_ []
  · -- a letter that is no small one is its own upper case
    intro c hc halnum
    have hsmall : isLowerChar c = c.isLower := if_pos (toNat_lt_of_isAlphanum halnum)
    rw [upperChar_of_isAlphanum (isAlphanum_toLower halnum), toUpper_toLower (hsmall.symm.trans (hcapital c hc))]
  · intro c hc halnum image himage
    constructor
    · obtain ⟨d, image, rfl⟩ := List.exists_cons_of_ne_nil himage.ne_nil
      simp [upperChar_ne_nil]
    · -- only spelt-out characters have letters in their upper case, and those are small
      intro e he
      obtain ⟨d, hd, he⟩ := List.mem_flatMap.1 he
      obtain ⟨hother, hself⟩ := lowerImage_of_other himage halnum (hlost c hc) hd
      refine Bool.eq_false_iff.2 fun hletter => ?_
      have hspelt : SpeltOut d := ⟨hother, e, he, hletter⟩
      obtain rfl := hself hspelt
      have hsmall := hspelt.facts.2.1
      rw [hcapital d hc] at hsmall
      cases hsmall

/-- A text in its own letter case has the words of the text, if it is in capitals or has no ASCII capitals. -/
theorem snakeWords_matchCase (hcase : 1 < cs.length ∧ isUpperText cs = true ∨ ∀ c ∈ cs, c.isUpper = false) :
    snakeWords (matchCase cs (lowerChars cs)) = snakeWords cs := by
  symm
  apply SameLetters.snakeWords_eq
  -- the whole text is raised, its first character is, or nothing is
  unfold matchCase
  split
  · rename_i hupper
    obtain ⟨-, hupper⟩ := Bool.and_eq_true_iff.1 hupper
    obtain ⟨-, hnone⟩ := Bool.and_eq_true_iff.1 hupper
    refine sameLetters_upper hlost fun c hc => ?_
    have hc := List.all_eq_true.1 hnone c hc
    rw [Bool.not_eq_true', Bool.or_eq_false_iff] at hc
    exact hc.1
  rename_i hupper
  have hsmall := hcase.resolve_left fun h => hupper (by simpa using h)
  split
  · rename_i hhead
    cases cs with
    | nil => cases hhead
    | cons c cs =>
      obtain ⟨hc, hcs⟩ := List.forall_mem_cons.1 hlost
      obtain ⟨hc', hcs'⟩ := List.forall_mem_cons.1 hsmall
      have hcapital : isUpperChar c = true := hhead
      -- the raised first character is no letter
      have hother : c.isAlphanum = false := Bool.eq_false_iff.2 fun halnum => by
        rw [isUpperChar_of_isAlphanum halnum, hc'] at hcapital
        cases hcapital
      obtain ⟨image, himage, hlower⟩ := lowerAfter_cons [] c cs
      obtain ⟨d, image, rfl⟩ := List.exists_cons_of_ne_nil himage.ne_nil
      rw [lowerChars, hlower]
      show SameLetters (c :: cs) (upperChar d ++ (image ++ lowerAfter [c] cs))
      rw [← List.append_assoc]
      refine .other hother (by simp [upperChar_ne_nil]) ?_ (sameLetters_lower hcs hcs' [c])
      refine List.forall_mem_append.2 ⟨fun e he => Bool.eq_false_iff.2 fun hletter => ?_, fun e he => ?_⟩
      · obtain ⟨hd, hself⟩ := lowerImage_of_other himage hother hc (List.mem_cons_self)
        have hspelt : SpeltOut d := ⟨hd, e, he, hletter⟩
        obtain rfl := hself hspelt
        rw [hspelt.facts.2.2.1] at hcapital
        cases hcapital
      · exact (lowerImage_of_other himage hother hc (List.mem_cons_of_mem d he)).1
  · exact sameLetters_lower hlost hsmall []

end Texts

/-! ### Endings -/

/-- A text that is not changed has no lost capitals. -/
theorem not_lost_of_matchCase {cs : List Char} (h : matchCase cs (lowerChars cs) = cs) :
    ∀ c ∈ cs, c ∉ lostCapitals := by
  intro c hc hlost
  -- a lost capital is in no lower case, and raising does not bring it back
  have hnone : c ∉ lowerChars cs := by
    intro hmem
    obtain ⟨d, -, image, himage, hmem⟩ := mem_lowerAfter hmem
    exact notMem_lowerChar hlost (himage.mem_lowerChar hmem (lostCapitals_facts c hlost).2.1)
  have hraised : ∀ d ∈ lowerChars cs, c ∉ upperChar d := by
    intro d hd hmem
    exact hnone (eq_of_mem_upperChar hlost hmem ▸ hd)
  rw [← h] at hc
  unfold matchCase at hc
  split at hc
  · obtain ⟨d, hd, hmem⟩ := List.mem_flatMap.1 hc
    exact hraised d hd hmem
  split at hc
  · split at hc
    · cases hc
    · rename_i d rest hlower
      rw [hlower] at hnone hraised
      rcases List.mem_append.1 hc with hc | hc
      · exact hraised d List.mem_cons_self hc
      · exact hnone (List.mem_cons_of_mem d hc)
  · exact hnone hc

/-- A capital that is lowered and raised again has no capitals behind its first character. -/
theorem isUpper_of_mem_upperChar {e d first c : Char} {image more : List Char} (himage : LowerImage e (d :: image))
    (hcapital : isUpperChar e = true) (hlost : e ∉ lostCapitals) (hmore : upperChar d = first :: more)
    (hc : c ∈ more) : c.isUpper = false := by
  -- a letter behind the first one means that the small letter is spelt out
  refine Bool.eq_false_iff.2 fun hletter => ?_
  have hd : d.isAlphanum = false := by
    refine Bool.eq_false_iff.2 fun hd => ?_
    rw [upperChar_of_isAlphanum hd] at hmore
    obtain ⟨-, rfl⟩ := List.cons_eq_cons.1 hmore
    cases hc
  have hspelt : SpeltOut d := ⟨hd, c, by simp [hmore, hc], isAlphanum_of_isUpper hletter⟩
  have he : e.isAlphanum = false := by
    refine Bool.eq_false_iff.2 fun he => ?_
    obtain ⟨rfl, -⟩ := List.cons_eq_cons.1 (lowerImage_of_isAlphanum himage he)
    rw [isAlphanum_toLower he] at hd
    cases hd
  obtain rfl := (lowerImage_of_other himage he hlost List.mem_cons_self).2 hspelt
  rw [hspelt.facts.2.2.1] at hcapital
  cases hcapital

/-- Behind its first character, a text that is not changed has no capitals unless the whole text is in capitals. -/
theorem capitals_of_matchCase {front cs : List Char} (hne : front ≠ [])
    (h : matchCase (front ++ cs) (lowerChars (front ++ cs)) = front ++ cs) :
    isUpperText cs = true ∨ ∀ c ∈ cs, c.isUpper = false := by
  have hlost := not_lost_of_matchCase h
  have hsmall : ∀ c ∈ lowerChars (front ++ cs), c.isUpper = false := fun c => isUpper_of_mem_lowerAfter
  unfold matchCase at h
  -- all characters are raised, the first one is, or none
  split at h
  · rename_i hupper
    obtain ⟨-, hupper⟩ := Bool.and_eq_true_iff.1 hupper
    obtain ⟨-, hnone⟩ := Bool.and_eq_true_iff.1 hupper
    rw [List.all_append, Bool.and_eq_true] at hnone
    cases hany : cs.any isUpperChar with
    | true =>
      left
      rw [isUpperText, hany, hnone.2]
      rfl
    | false =>
      refine Or.inr fun c hc => Bool.eq_false_iff.2 fun hcapital => ?_
      have hc := List.any_eq_false.1 hany c hc
      rw [isUpperChar_of_isAlphanum (isAlphanum_of_isUpper hcapital)] at hc
      exact hc hcapital
  right
  intro c hc
  split at h
  · rename_i hhead
    obtain ⟨e, front, rfl⟩ := List.exists_cons_of_ne_nil hne
    have hcapital : isUpperChar e = true := hhead
    obtain ⟨image, himage, hlower⟩ := lowerAfter_cons [] e (front ++ cs)
    obtain ⟨d, image, rfl⟩ := List.exists_cons_of_ne_nil himage.ne_nil
    obtain ⟨first, more, hmore⟩ := List.exists_cons_of_ne_nil (upperChar_ne_nil d)
    rw [lowerChars, List.cons_append, hlower] at h hsmall
    have hform : upperChar d ++ (image ++ lowerAfter [e] (front ++ cs)) = e :: (front ++ cs) := h
    rw [hmore, List.cons_append] at hform
    obtain ⟨-, hrest⟩ := List.cons_eq_cons.1 hform
    have hc := List.mem_append_right front hc
    rw [← hrest] at hc
    -- what is raised stands in front; behind it there is only lower case
    rcases List.mem_append.1 hc with hc | hc
    · exact isUpper_of_mem_upperChar himage hcapital (hlost e (by simp)) hmore hc
    · exact hsmall c (List.mem_cons_of_mem d hc)
  · have hc := List.mem_append_right front hc
    rw [← h] at hc
    exact hsmall c hc

/-- **The words of an ending stay**, if inflecting leaves the whole text alone. -/
theorem snakeWords_matchCase_lowerChars {front cs : List Char} {x : Char} (hx : x.isAlphanum = false)
    (h : matchCase (front ++ (cs ++ [x])) (lowerChars (front ++ (cs ++ [x]))) = front ++ (cs ++ [x])) :
    snakeWords (matchCase (cs ++ [x]) (lowerChars (cs ++ [x]))) = snakeWords (cs ++ [x]) := by
  by_cases hne : front = []
  · subst hne
    exact congrArg snakeWords h
  have hlost := not_lost_of_matchCase h
  refine snakeWords_matchCase (fun c hc => hlost c (List.mem_append_right front hc)) ?_
  -- the end of a text that is not changed is in capitals, or has none
  rcases capitals_of_matchCase hne h with hupper | hsmall
  · by_cases hnil : cs = []
    · subst hnil
      refine Or.inr (List.forall_mem_singleton.2 (Bool.eq_false_iff.2 fun hcapital => ?_))
      rw [isAlphanum_of_isUpper hcapital] at hx
      cases hx
    · have hpos := List.length_pos_of_ne_nil hnil
      refine Or.inl ⟨?_, hupper⟩
      rw [List.length_append, List.length_singleton]
      omega
  · exact Or.inr hsmall

end CrudScaffold.Naming
