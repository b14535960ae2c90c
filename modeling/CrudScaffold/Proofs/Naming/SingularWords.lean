import CrudScaffold.Proofs.Naming.PluralWords

/-!
# CrudScaffold.Proofs.Naming.SingularWords — the singular of a plural

The rules for singulars undo those for plurals, except for the words that `Strays` lists by their endings: the plural
of `menu` is taken for a singular, and the plurals of `virus` and `waltz` lose too little.  A plural that a list has as
that of another word, or as a word of its own, is led astray as well; all other words come back (`LeadsBack`,
`singularWord_pluralWord`).  A word that does not come back has other letters afterwards (`leadsBack_of_perm`).
-/

namespace CrudScaffold.Naming

open CrudScaffold.Text

/-- The word ends so that the rules take its plural for that of another word, or for a singular. -/
def Strays (w : List Char) : Prop :=
  endsIn ["i", "u", "is", "us", "sse", "xe", "che", "she", "zze"] w = true ∨
    (endsIn ["z"] w = true ∧ endsIn ["zz"] w = false) ∨ (endsIn ["ie"] w = true ∧ w ≠ "ie".toList)

/-- The plural of the word leads back to it: a list pairs them, or no list has the plural and the rules undo it. -/
def LeadsBack (w : List Char) : Prop :=
  isUncountable w = true ∨ (irregularPlural? w).isSome = true ∨
    (¬ IsListed (pluralWord w) ∧ irregularPlural? (pluralWord w) = none ∧ ¬ Strays w)

/-- The singulars of all words. -/
inductive Singularised : List Char → List Char → Prop
  | listed {w : List Char} (h : isUncountable w = true ∨ (irregularPlural? w).isSome = true) : Singularised w w
  | irregular {p : String × String} (hp : p ∈ irregular) : Singularised p.2.toList p.1.toList
  | regular {w : List Char} (hlisted : ¬ IsListed w) (hfree : irregularPlural? w = none) :
      Singularised w (regularSingular w)

theorem singularWord_of_not {w : List Char} (h : ¬ (isUncountable w = true ∨ (irregularPlural? w).isSome = true)) :
    singularWord w = (irregularSingular? w).getD (regularSingular w) :=
  if_neg fun hlisted => h (Bool.or_eq_true_iff.1 hlisted)

theorem singularWord_of_free {w : List Char} (hlisted : ¬ IsListed w) (hfree : irregularPlural? w = none) :
    singularWord w = regularSingular w := by
  obtain ⟨hone, himage⟩ := not_or.1 hlisted
  rw [singularWord_of_not (not_or.2 ⟨hone, by simp [hfree]⟩), Option.not_isSome_iff_eq_none.1 himage]
  rfl

theorem singularised (w : List Char) : Singularised w (singularWord w) := by
  by_cases hlisted : isUncountable w = true ∨ (irregularPlural? w).isSome = true
  · have hself : singularWord w = w := if_pos (Bool.or_eq_true_iff.2 hlisted)
    rw [hself]
    exact .listed hlisted
  have hsingular := singularWord_of_not hlisted
  obtain ⟨hone, hfree⟩ := not_or.1 hlisted
  rw [hsingular]
  cases himage : irregularSingular? w with
  | some image =>
    obtain ⟨p, hp, rfl, rfl⟩ := irregularSingular_ok himage
    exact .irregular hp
  | none =>
    have hnot : ¬ IsListed w := by simp [IsListed, hone, himage]
    exact .regular hnot (Option.not_isSome_iff_eq_none.1 hfree)

/-- A singular has no other characters than its word, but for small letters. -/
theorem mem_singularWord {w : List Char} {c : Char} (h : c ∈ singularWord w) : c ∈ w ∨ c.isLower = true := by
  have hform := singularised w
  -- one case for each way a singular is formed: nothing is added but small letters
  generalize singularWord w = one at h hform
  cases hform with
  | listed => exact Or.inl h
  | irregular hp => exact Or.inr ((irregular_small _ hp).1.small c h)
  | regular hlisted hfree =>
    have hdrop : ∀ n, c ∈ dropEnd n w → c ∈ w := fun n => List.mem_of_mem_take
    unfold regularSingular at h
    repeat' split at h
    · exact Or.inl h
    · rcases List.mem_append.1 h with h | h
      · exact Or.inl (hdrop 3 h)
      · obtain rfl := List.mem_singleton.1 h
        exact Or.inr rfl
    · exact Or.inl (hdrop 2 h)
    · exact Or.inl (hdrop 1 h)
    · exact Or.inl h

theorem isLowerOrDigit_singularWord {w : List Char} (h : ∀ c ∈ w, isLowerOrDigit c = true) :
    ∀ c ∈ singularWord w, isLowerOrDigit c = true := by
  intro c hc
  rcases mem_singularWord hc with hc | hc
  · exact h c hc
  · exact isLowerOrDigit_of_isLower hc

/-- A word is its own singular if it ends in no small letter, or in a `k`. -/
theorem singularWord_of_getLast {w : List Char} {d : Char} (hlast : w.getLast? = some d)
    (hd : d.isLower = true → d = 'k') : singularWord w = w := by
  have hform := singularised w
  generalize singularWord w = one at hform ⊢
  cases hform with
  | listed => rfl
  -- the singular of a listed or irregular word ends as the tables say
  | @irregular p hp =>
    have hsmall := (irregular_small p hp).2.1.getLast
    rw [hlast] at hsmall
    obtain rfl := hd hsmall
    exact absurd hlast (irregular_getLast_ne_k p hp).2
  | regular hlisted hfree =>
    have hends : ∀ endings, (∀ e ∈ endings, e.toList ≠ [] ∧ e.toList.getLast? = some 's') → endsIn endings w = false := by
      intro endings hall
      refine Bool.eq_false_iff.2 fun hends => ?_
      obtain ⟨e, he, hword⟩ := getLast_of_endsIn (fun e he => (hall e he).1) hends
      rw [hlast, (hall e he).2] at hword
      obtain rfl := Option.some.inj hword
      exact absurd (hd rfl) (by decide)
    rw [regularSingular, hends _ (by decide), hends _ (by decide), hends _ (by decide), hends _ (by decide)]
    rfl

/-! ### Regular singulars -/

theorem length_dropEnd (n : Nat) (word : List Char) : (dropEnd n word).length = word.length - n := by
  rw [dropEnd, List.length_take]
  omega

/-- A word with the `s` of a plural has fewer letters in the singular. -/
theorem length_regularSingular_lt {w : List Char} (hs : endsIn ["s"] w = true)
    (hone : endsIn ["ss", "us", "is"] w = false) : (regularSingular w).length < w.length := by
  have hpos : 0 < w.length := by
    apply List.length_pos_iff.2
    rintro rfl
    cases hs
  have hthree := length_dropEnd 3 w
  have htwo := length_dropEnd 2 w
  have hlast := length_dropEnd 1 w
  rw [regularSingular, hone, if_neg (by decide), hs]
  -- each ending that is taken away is longer than what comes in its place
  split
  · rename_i hies
    have hlength : 3 < w.length := by simpa using (Bool.and_eq_true_iff.1 hies).2
    rw [List.length_append, List.length_singleton]
    omega
  split
  · omega
  · rw [if_pos rfl]
    omega

/-- The rules for singulars, for a word with an `s` behind it. -/
theorem regularSingular_concat_s (w : List Char) : regularSingular (w ++ ['s']) =
    if endsIn ["s", "u", "i"] w then w ++ ['s']
    else if endsIn ["ie"] w && 2 < w.length then dropEnd 2 w ++ ['y']
    else if endsIn ["sse", "xe", "che", "she", "zze"] w then dropEnd 1 w
    else w := by
  have hone : endsIn ["ss", "us", "is"] (w ++ ['s']) = endsIn ["s", "u", "i"] w := by simp [endsIn_eq]
  have hies : endsIn ["ies"] (w ++ ['s']) = endsIn ["ie"] w := by simp [endsIn_eq]
  have hes : endsIn ["sses", "xes", "ches", "shes", "zzes"] (w ++ ['s']) =
      endsIn ["sse", "xe", "che", "she", "zze"] w := by simp [endsIn_eq]
  have hs : endsIn ["s"] (w ++ ['s']) = true := by simp [endsIn_eq]
  have hlength : 3 < (w ++ ['s']).length ↔ 2 < w.length := by
    rw [List.length_append, List.length_singleton]
    omega
  have hdrop : ∀ n, dropEnd (n + 1) (w ++ ['s']) = dropEnd n w := by
    intro n
    rw [dropEnd, dropEnd, List.length_append, List.length_singleton, Nat.add_sub_add_right]
    exact List.take_append_of_le_length (Nat.sub_le _ _)
  have hwhole : dropEnd 0 w = w := List.take_length
  simp only [regularSingular, hone, hies, hes, hs, hlength, hdrop, hwhole, if_true]

theorem regularSingular_append_s {w : List Char} (hone : endsIn ["s", "u", "i"] w = false)
    (hie : endsIn ["ie"] w = true → w.length ≤ 2) (hes : endsIn ["sse", "xe", "che", "she", "zze"] w = false) :
    regularSingular (w ++ ['s']) = w := by
  have hies : ¬ ((endsIn ["ie"] w && decide (2 < w.length)) = true) := by
    rw [Bool.and_eq_true, decide_eq_true_eq]
    intro h
    have hlength := hie h.1
    omega
  rw [regularSingular_concat_s, hone, hes, if_neg hies]
  rfl

theorem regularSingular_append_es {w : List Char} (h : endsIn ["ss", "x", "ch", "sh", "zz"] w = true) :
    regularSingular (w ++ ['e', 's']) = w := by
  have hone : endsIn ["s", "u", "i"] (w ++ ['e']) = false := by simp [endsIn_eq, List.isPrefixOf]
  have hie : endsIn ["ie"] (w ++ ['e']) = false := by
    refine endsIn_elim h ?_
    simp [endsIn_eq, List.isPrefixOf]
  have hes : endsIn ["sse", "xe", "che", "she", "zze"] (w ++ ['e']) = true := by
    rw [← h]
    simp [endsIn_eq]
  have hsplit : w ++ ['e', 's'] = w ++ ['e'] ++ ['s'] := by simp
  rw [hsplit, regularSingular_concat_s, hone, hie, hes]
  exact (dropEnd_append w (Nat.le_refl 1)).trans (List.append_nil w)

theorem regularSingular_append_es_of_not {w : List Char} (hes : endsIn ["sh", "ch", "x", "z", "ss", "us"] w = true)
    (hlost : endsIn ["ss", "x", "ch", "sh", "zz"] w = false) : regularSingular (w ++ ['e', 's']) = w ++ ['e'] := by
  have hsplit : w ++ ['e', 's'] = w ++ ['e'] ++ ['s'] := by simp
  rw [hsplit]
  apply regularSingular_append_s
  · simp [endsIn_eq, List.isPrefixOf]
  · refine endsIn_elim hes ?_
    simp [endsIn_eq]
  · rw [← hlost]
    simp [endsIn_eq]

/-- A stray word with an `s` behind it keeps the `s`, or loses more than that. -/
theorem length_regularSingular_concat_ne {w : List Char} (hs : endsIn ["s"] w = false)
    (hes : endsIn ["sh", "ch", "x", "z"] w = false) (hstray : Strays w) :
    (regularSingular (w ++ ['s'])).length ≠ w.length := by
  have htwo := length_dropEnd 2 w
  have hlast := length_dropEnd 1 w
  rw [regularSingular_concat_s]
  -- what is behind the `s` that goes away decides how much goes with it
  split
  · simp
  rename_i hone
  split
  · rename_i hie
    have hlength : 2 < w.length := by simpa using (Bool.and_eq_true_iff.1 hie).2
    rw [List.length_append, List.length_singleton]
    omega
  rename_i hie
  split
  · rename_i hends
    have hpos : 0 < w.length := by
      apply List.length_pos_iff.2
      rintro rfl
      cases hends
    omega
  rename_i hends
  exfalso
  -- without these endings the word would not be a stray one
  rcases hstray with hstray | ⟨hz, -⟩ | ⟨hie', hne⟩
  · revert hs hone hends
    refine endsIn_elim hstray ?_
    simp [endsIn_eq]
  · rw [endsIn_of_forall (by decide) hz] at hes
    cases hes
  · obtain ⟨front, rfl⟩ := endsIn_singleton_iff.1 hie'
    apply hie
    rw [hie', Bool.true_and, decide_eq_true_eq]
    cases front with
    | nil => exact absurd rfl hne
    | cons c front => simp

theorem regularSingular_append_ies (front : List Char) (c : Char) :
    regularSingular (front ++ [c, 'i', 'e', 's']) = front ++ [c, 'y'] := by
  have hone : endsIn ["ss", "us", "is"] (front ++ [c, 'i', 'e', 's']) = false := by simp [endsIn_eq, List.isPrefixOf]
  have hies : (endsIn ["ies"] (front ++ [c, 'i', 'e', 's']) &&
      decide (3 < (front ++ [c, 'i', 'e', 's']).length)) = true := by
    have hlength : 3 < (front ++ [c, 'i', 'e', 's']).length := by simp
    rw [decide_eq_true hlength]
    simp [endsIn_eq]
  have hdrop : dropEnd 3 (front ++ [c, 'i', 'e', 's']) = front ++ [c] := dropEnd_append front (Nat.le_succ 3)
  rw [regularSingular, hone, hies, hdrop, List.append_assoc]
  rfl

/-! ### Singulars of regular plurals -/

namespace PluralRule

variable {w many : List Char}

theorem not_plural (hw : regularSingular w = w) (hs : endsIn ["s"] w = true) : endsIn ["ss", "us", "is"] w = true := by
  by_contra hone
  have hlt := length_regularSingular_lt hs (Bool.eq_false_iff.2 hone)
  rw [hw] at hlt
  exact Nat.lt_irrefl _ hlt

/-- The rules for singulars undo those for plurals. -/
theorem regularSingular_eq (h : PluralRule w many) (hw : regularSingular w = w) (hstray : ¬ Strays w) :
    regularSingular many = w := by
  rw [Strays, not_or, not_or] at hstray
  obtain ⟨hends, hz, hie⟩ := hstray
  -- one rule for plurals after the other, and the rule for singulars that undoes it
  cases h with
  | plural hs hone =>
    rw [not_plural hw hs] at hone
    cases hone
  | is front => simp [endsIn_eq] at hends
  | es hes =>
    apply regularSingular_append_es
    revert hends hz
    refine endsIn_elim hes ?_
    simp [endsIn_eq]
  | @ies front c hc => exact regularSingular_append_ies front c
  | s hs hes =>
    apply regularSingular_append_s
    · refine Bool.eq_false_iff.2 fun hone => ?_
      revert hs hends
      refine endsIn_elim hone ?_
      simp [endsIn_eq]
    · intro hends
      have hword : _ = "ie".toList := by_contra fun hne => hie ⟨hends, hne⟩
      rw [hword]
      decide
    · exact Bool.eq_false_iff.2 fun hends' => hends (endsIn_of_forall (by decide) hends')

/-- Where they do not, there are more or fewer letters afterwards. -/
theorem length_regularSingular_ne (h : PluralRule w many) (hw : regularSingular w = w) (hstray : Strays w) :
    (regularSingular many).length ≠ w.length := by
  -- one rule after the other: each of them leaves too much, or takes too much
  cases h with
  | plural hs hone =>
    rw [not_plural hw hs] at hone
    cases hone
  | is front =>
    have hlt : (regularSingular (front ++ ['e', 's'])).length < (front ++ ['e', 's']).length :=
      length_regularSingular_lt (by simp [endsIn_eq]) (by simp [endsIn_eq, List.isPrefixOf])
    simp only [List.length_append, List.length_cons, List.length_nil] at hlt ⊢
    omega
  | es hes =>
    have hlost : endsIn ["ss", "x", "ch", "sh", "zz"] w = false := by
      refine Bool.eq_false_iff.2 fun hends => ?_
      revert hstray
      refine endsIn_elim hends ?_
      simp [Strays, endsIn_eq]
    rw [regularSingular_append_es_of_not hes hlost]
    simp
  | @ies front c hc =>
    have hends : ¬ Strays (front ++ [c, 'y']) := by simp [Strays, endsIn_eq, List.isPrefixOf]
    exact absurd hstray hends
  | s hs hes => exact length_regularSingular_concat_ne hs hes hstray

end PluralRule

/-! ### Words that come back -/

/-- The words of which a rule can make this plural. -/
def wordsOf (many : List Char) : List (List Char) :=
  [many, dropEnd 2 many ++ ['i', 's'], dropEnd 2 many, dropEnd 3 many ++ ['y'], dropEnd 1 many]

theorem PluralRule.mem_wordsOf {w many : List Char} (h : PluralRule w many) : w ∈ wordsOf many := by
  have hdrop : ∀ (front back : List Char) (n : Nat), n = back.length → dropEnd n (front ++ back) = front := by
    rintro front back n rfl
    rw [dropEnd, List.length_append, Nat.add_sub_cancel, List.take_left]
  simp only [wordsOf, List.mem_cons, List.not_mem_nil, or_false]
  -- each rule for plurals has its place among the words that a plural may come from
  cases h with
  | plural hs hone => exact Or.inl rfl
  | is front =>
    right; left
    rw [hdrop front ['e', 's'] 2 rfl]
  | es hends =>
    right; right; left
    rw [hdrop w ['e', 's'] 2 rfl]
  | @ies front c hc =>
    right; right; right; left
    have hsplit : front ++ [c, 'i', 'e', 's'] = front ++ [c] ++ ['i', 'e', 's'] := by simp
    rw [hsplit, hdrop (front ++ [c]) ['i', 'e', 's'] 3 rfl, List.append_assoc]
    rfl
  | s hs hends =>
    right; right; right; right
    rw [hdrop w ['s'] 1 rfl]

/-- The table is its own inverse, and no other word with one of its plurals has the letters of the singular. -/
theorem irregular_back : ∀ p ∈ irregular, singularWord p.2.toList = p.1.toList ∧
    ∀ w ∈ wordsOf p.2.toList, p.1.toList.isPerm w = true → w = p.1.toList := by decide

section Back

variable {w : List Char} (hw : singularWord w = w)
include hw

theorem regular_of_singularWord (hone : ¬ (isUncountable w = true ∨ (irregularPlural? w).isSome = true)) :
    ¬ IsListed w ∧ irregularPlural? w = none ∧ regularSingular w = w := by
  have hform := singularised w
  generalize singularWord w = one at hform hw
  cases hform with
  | listed h => exact absurd h hone
  | @irregular p hp => exact absurd hw (irregular_singular_facts p hp).1
  | regular hlisted hfree => exact ⟨hlisted, hfree, hw⟩

/-- **The singular undoes the plural** of the words that lead back. -/
theorem singularWord_pluralWord (h : LeadsBack w) : singularWord (pluralWord w) = w := by
  unfold LeadsBack at h
  have hform := pluralised w
  generalize pluralWord w = many at h hform
  cases hform with
  | listed => exact hw
  | @irregular p hp => exact (irregular_back p hp).1
  | regular hlisted hfree hrule =>
    -- a listed word is its own singular; any other one is undone by the rules
    have hone : ¬ (isUncountable w = true ∨ (irregularPlural? w).isSome = true) := by
      rintro (hone | hsome)
      · exact hlisted (Or.inl hone)
      · rw [hfree] at hsome
        cases hsome
    obtain ⟨hlisted', hfree', hstray⟩ := (or_assoc.2 h).resolve_left hone
    rw [singularWord_of_free hlisted' hfree']
    exact hrule.regularSingular_eq (regular_of_singularWord hw hone).2.2 hstray

/-- A word whose plural has a singular with the letters of the word leads back. -/
theorem leadsBack_of_perm (hperm : (singularWord (pluralWord w)).Perm w) : LeadsBack w := by
  by_cases hone : isUncountable w = true ∨ (irregularPlural? w).isSome = true
  · exact or_assoc.1 (Or.inl hone)
  obtain ⟨hlisted, hfree, hself⟩ := regular_of_singularWord hw hone
  have hrule := pluralRule w
  rw [LeadsBack, pluralWord_of_free hlisted hfree]
  rw [pluralWord_of_free hlisted hfree] at hperm
  right; right
  have hform := singularised (regularPlural w)
  generalize singularWord (regularPlural w) = one at hform hperm
  generalize regularPlural w = many at hrule hform ⊢
  cases hform with
  | listed h =>
    -- then the plural has the letters of the word, and an `s` that singulars do not have
    obtain ⟨rfl, hs, hends⟩ := hrule.perm hperm
    rw [PluralRule.not_plural hself hs] at hends
    cases hends
  | @irregular p hp =>
    have hword := (irregular_back p hp).2 w hrule.mem_wordsOf (List.isPerm_iff.2 hperm)
    exact absurd (Or.inr (irregularPlural_isSome_iff.2 ⟨p, hp, hword.symm⟩)) hone
  | regular hlisted' hfree' =>
    exact ⟨hlisted', hfree', fun hstray => hrule.length_regularSingular_ne hself hstray hperm.length_eq⟩

end Back

/-- A word that does not end in a small letter leads back. -/
theorem leadsBack_of_getLast {w : List Char} (h : w.getLast?.any Char.isLower = false) : LeadsBack w := by
  have hnot : ∀ u : List Char, IsSmallWord u → u ≠ w ++ ['s'] := by
    rintro u hu rfl
    have hlast := hu.dropLast
    rw [List.dropLast_concat, h] at hlast
    cases hlast
  right; right
  rw [pluralWord_of_getLast h]
  -- what ends in no small letter is no listed word with an `s`
  refine ⟨?_, ?_, ?_⟩
  · rintro (hone | hmany)
    · obtain ⟨u, hu, hword⟩ := isUncountable_iff.1 hone
      exact hnot _ (uncountable_small u hu) hword
    · obtain ⟨p, hp, hword⟩ := irregularSingular_isSome_iff.1 hmany
      exact hnot _ (irregular_small p hp).2.1 hword
  · refine Option.not_isSome_iff_eq_none.1 fun hsome => ?_
    obtain ⟨p, hp, hword⟩ := irregularPlural_isSome_iff.1 hsome
    exact hnot _ (irregular_small p hp).1 hword
  · rintro (hends | ⟨hends, -⟩ | ⟨hends, -⟩)
    all_goals
      rw [endsIn_of_getLast h (by decide)] at hends
      cases hends

end CrudScaffold.Naming
