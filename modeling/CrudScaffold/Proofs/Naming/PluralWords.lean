import CrudScaffold.Proofs.Naming.Singulars

/-!
# CrudScaffold.Proofs.Naming.PluralWords — plurals that are taken for singulars

One rule gives the plural of a regular word (`PluralRule`, `pluralRule`).  A word is its own plural exactly if it
`LooksPlural` (`pluralWord_eq_self_iff`): the lists say so, or its ending does.  A plural looks plural, unless its word
`Regrows` (`looksPlural_pluralWord_iff`): `menu` gives `menus`, which ends like the singular `status`.
-/

namespace CrudScaffold.Naming

open CrudScaffold.Text

/-- The rules for regular words, each with the plural that it gives. -/
inductive PluralRule : List Char → List Char → Prop
  | plural {w : List Char} (hs : endsIn ["s"] w = true) (hone : endsIn ["ss", "us", "is"] w = false) : PluralRule w w
  | is (front : List Char) : PluralRule (front ++ ['i', 's']) (front ++ ['e', 's'])
  | es {w : List Char} (hends : endsIn ["sh", "ch", "x", "z", "ss", "us"] w = true) : PluralRule w (w ++ ['e', 's'])
  | ies (front : List Char) {c : Char} (hc : c ∉ vowels) : PluralRule (front ++ [c, 'y']) (front ++ [c, 'i', 'e', 's'])
  | s {w : List Char} (hs : endsIn ["s"] w = false) (hends : endsIn ["sh", "ch", "x", "z"] w = false) :
      PluralRule w (w ++ ['s'])

/-- A word that is listed with one form, or as a plural. -/
def IsListed (w : List Char) : Prop := isUncountable w = true ∨ (irregularSingular? w).isSome = true

/-- The plurals of all words. -/
inductive Pluralised : List Char → List Char → Prop
  | listed {w : List Char} (h : IsListed w) : Pluralised w w
  | irregular {p : String × String} (hp : p ∈ irregular) : Pluralised p.1.toList p.2.toList
  | regular {w many : List Char} (hlisted : ¬ IsListed w) (hfree : irregularPlural? w = none) (h : PluralRule w many) :
      Pluralised w many

/-- The word is its own plural: a list says so, or it ends in an `s` that no singular ends in. -/
def LooksPlural (w : List Char) : Prop :=
  IsListed w ∨ irregularPlural? w = none ∧ endsIn ["s"] w = true ∧ endsIn ["ss", "us", "is"] w = false

/-- The word gets an `s`, and then looks like a singular: it ends in `i` or `u`, or the `s` makes an irregular singular
of it. -/
def Regrows (w : List Char) : Prop :=
  endsIn ["s"] w = false ∧ (endsIn ["i", "u"] w = true ∨ (irregularPlural? (w ++ ['s'])).isSome = true)

instance : DecidablePred Regrows := fun _ => inferInstanceAs (Decidable (_ ∧ _))

/-! ### Endings -/

/-- Endings are compared from the last letter on. -/
theorem endsIn_eq (endings : List String) (word : List Char) :
    endsIn endings word = endings.any fun e => e.toList.reverse.isPrefixOf word.reverse := rfl

/-- What a shorter ending says about a longer one. -/
theorem endsIn_of_forall {endings endings' : List String} {word : List Char}
    (hall : ∀ e ∈ endings, endsIn endings' e.toList = true) (h : endsIn endings word = true) :
    endsIn endings' word = true := by
  refine endsIn_elim h fun e he front => ?_
  obtain ⟨e', he', front', hending⟩ := endsIn_iff.1 (hall e he)
  exact endsIn_iff.2 ⟨e', he', front ++ front', by rw [hending, List.append_assoc]⟩

/-- A word has the last letter of its ending. -/
theorem getLast_of_endsIn {endings : List String} {word : List Char} (hne : ∀ e ∈ endings, e.toList ≠ [])
    (h : endsIn endings word = true) : ∃ e ∈ endings, word.getLast? = e.toList.getLast? := by
  obtain ⟨e, he, front, rfl⟩ := endsIn_iff.1 h
  exact ⟨e, he, List.getLast?_append_of_ne_nil front (hne e he)⟩

/-! ### The lists -/

theorem isUncountable_iff {w : List Char} : isUncountable w = true ↔ ∃ u ∈ uncountable, u.toList = w := by
  simp [isUncountable]

theorem irregularSingular_isSome_iff {w : List Char} :
    (irregularSingular? w).isSome = true ↔ ∃ p ∈ irregular, p.2.toList = w := by
  simp [irregularSingular?]

theorem irregularPlural_isSome_iff {w : List Char} :
    (irregularPlural? w).isSome = true ↔ ∃ p ∈ irregular, p.1.toList = w := by
  simp [irregularPlural?]

theorem irregular_singular_facts : ∀ p ∈ irregular, p.1.toList ≠ p.2.toList ∧ endsIn ["es", "ks"] p.1.toList = false ∧
    endsIn ["shs", "chs", "xs", "zs", "ys"] p.1.toList = false ∧ ¬ Regrows p.1.toList := by decide

theorem irregular_getLast_ne_k : ∀ p ∈ irregular,
    p.1.toList.getLast? ≠ some 'k' ∧ p.2.toList.getLast? ≠ some 'k' := by decide

/-- No listed word regrows, none looks like a singular that ends in `s`, and none is the singular of an irregular
plural. -/
theorem listed_facts : ∀ w ∈ uncountable ++ irregular.map Prod.snd,
    ¬ Regrows w.toList ∧ endsIn ["ss", "us", "is"] w.toList = false ∧ irregularPlural? w.toList = none := by
  decide

/-! ### Regular plurals -/

theorem pluralRule (w : List Char) : PluralRule w (regularPlural w) := by
  -- one branch of the rules for each case
  unfold regularPlural
  split
  · rename_i h
    simp only [Bool.and_eq_true, Bool.not_eq_true'] at h
    exact .plural h.1 h.2
  rename_i hplural
  split
  · rename_i h
    obtain ⟨front, rfl⟩ := endsIn_singleton_iff.1 h
    have hdrop : dropEnd 2 (front ++ "is".toList) = front := by
      rw [dropEnd_append front (by decide)]
      exact List.append_nil front
    rw [hdrop]
    exact .is front
  rename_i his
  split
  · rename_i h
    exact .es h
  rename_i hes
  split
  · rename_i h
    obtain ⟨hy, hbefore⟩ := Bool.and_eq_true_iff.1 h
    obtain ⟨front, rfl⟩ := endsIn_singleton_iff.1 hy
    rcases List.eq_nil_or_concat front with rfl | ⟨front, c, rfl⟩
    · cases hbefore
    have hc : c ∉ vowels := by simpa [consonantBeforeLast] using hbefore
    have hdrop : dropEnd 1 (front.concat c ++ "y".toList) = front ++ [c] := by
      rw [dropEnd_append _ (by decide), List.concat_eq_append]
      exact List.append_nil _
    have hform := PluralRule.ies front hc
    rw [hdrop, List.append_assoc, List.concat_eq_append, List.append_assoc]
    exact hform
  · -- an `s` that is no plural would have called for another rule
    have hs : endsIn ["s"] w = false := by
      refine Bool.eq_false_iff.2 fun hs => ?_
      have hone : endsIn ["ss", "us", "is"] w = true := by simpa [hs] using hplural
      revert his hes
      refine endsIn_elim hone ?_
      simp [endsIn_eq]
    refine .s hs (Bool.eq_false_iff.2 fun hends => ?_)
    exact hes (endsIn_of_forall (by decide) hends)

/-- A regular plural has other letters than its word, unless it is the word: there is one more of them, or an `e` stands
for an `i`. -/
theorem PluralRule.perm {w many : List Char} (h : PluralRule w many) (hperm : many.Perm w) :
    many = w ∧ endsIn ["s"] w = true ∧ endsIn ["ss", "us", "is"] w = false := by
  have hlength := hperm.length_eq
  cases h with
  | plural hs hone => exact ⟨rfl, hs, hone⟩
  | is front =>
    have hcount := hperm.count_eq 'i'
    simp [List.count_append] at hcount
  | es hends => simp at hlength
  | ies front hc => simp at hlength
  | s hs hends => simp at hlength

/-- The other rules do not apply to a word with the `s` of a plural. -/
theorem PluralRule.eq_self {w many : List Char} (h : PluralRule w many) (hs : endsIn ["s"] w = true)
    (hone : endsIn ["ss", "us", "is"] w = false) : many = w := by
  cases h with
  | plural => rfl
  | is front => simp [endsIn_eq] at hone
  | es hends =>
    revert hs hone
    refine endsIn_elim hends ?_
    simp [endsIn_eq]
  | ies front hc => simp [endsIn_eq] at hs
  | s hfree hends =>
    rw [hfree] at hs
    cases hs

theorem pluralWord_of_not {w : List Char} (h : ¬ IsListed w) :
    pluralWord w = (irregularPlural? w).getD (regularPlural w) :=
  if_neg fun hlisted => h (Bool.or_eq_true_iff.1 hlisted)

theorem pluralWord_of_free {w : List Char} (hlisted : ¬ IsListed w) (hfree : irregularPlural? w = none) :
    pluralWord w = regularPlural w := by
  rw [pluralWord_of_not hlisted, hfree]
  rfl

theorem pluralised (w : List Char) : Pluralised w (pluralWord w) := by
  by_cases hlisted : IsListed w
  · have hself : pluralWord w = w := if_pos (Bool.or_eq_true_iff.2 hlisted)
    rw [hself]
    exact .listed hlisted
  have hplural := pluralWord_of_not hlisted
  rw [hplural]
  cases himage : irregularPlural? w with
  | some image =>
    obtain ⟨p, hp, rfl, rfl⟩ := irregularPlural_ok himage
    exact .irregular hp
  | none => exact .regular hlisted himage (pluralRule w)

theorem IsListed.isSmallWord {w : List Char} (h : IsListed w) : IsSmallWord w := by
  rcases h with h | h
  · obtain ⟨u, hu, rfl⟩ := isUncountable_iff.1 h
    exact uncountable_small u hu
  · obtain ⟨p, hp, rfl⟩ := irregularSingular_isSome_iff.1 h
    exact (irregular_small p hp).2.1

/-- A plural ends in a small letter. -/
theorem getLast_pluralWord (w : List Char) : (pluralWord w).getLast?.any Char.isLower = true := by
  have hform := pluralised w
  generalize pluralWord w = many at hform
  cases hform with
  | listed h => exact h.isSmallWord.getLast
  | irregular hp => exact (irregular_small _ hp).2.1.getLast
  | regular hlisted hfree hrule =>
    cases hrule with
    | plural hs hone =>
      obtain ⟨front, rfl⟩ := endsIn_singleton_iff.1 hs
      simp
    | is front => simp
    | es hends => simp
    | ies front hc => simp
    | s hs hends => simp

/-- A plural begins as its word does, or with a small letter. -/
theorem head_pluralWord {w : List Char} {c : Char} (h : (pluralWord w).head? = some c) :
    w.head? = some c ∨ c.isLower = true := by
  -- a rule that keeps the front keeps the first character
  have hnew : ∀ front other back : List Char, (front ++ back).head? = some c → back.head?.all Char.isLower = true →
      (front ++ other).head? = some c ∨ c.isLower = true := by
    intro front other back h hback
    cases front with
    | nil =>
      rw [List.nil_append] at h
      rw [h] at hback
      exact Or.inr hback
    | cons d front => exact Or.inl h
  have hform := pluralised w
  generalize pluralWord w = many at h hform
  cases hform with
  | listed => exact Or.inl h
  | irregular hp => exact Or.inr ((irregular_small _ hp).2.1.small c (List.mem_of_head? h))
  | regular hlisted hfree hrule =>
    cases hrule with
    | plural => exact Or.inl h
    | is front => exact hnew front _ _ h rfl
    | es hends => simpa using hnew w [] _ h rfl
    | ies front hc => cases front <;> exact Or.inl h
    | s hs hends => simpa using hnew w [] _ h rfl

/-- A word that does not end in a small letter has no ending that calls for a rule. -/
theorem endsIn_of_getLast {w : List Char} (h : w.getLast?.any Char.isLower = false) {endings : List String}
    (hall : ∀ e ∈ endings, e.toList ≠ [] ∧ e.toList.getLast?.any Char.isLower = true) : endsIn endings w = false := by
  refine Bool.eq_false_iff.2 fun hends => ?_
  obtain ⟨e, he, hlast⟩ := getLast_of_endsIn (fun e he => (hall e he).1) hends
  rw [hlast, (hall e he).2] at h
  cases h

theorem PluralRule.append_s {w many : List Char} (hrule : PluralRule w many)
    (h : w.getLast?.any Char.isLower = false) : many = w ++ ['s'] := by
  cases hrule with
  | plural hs hone =>
    rw [endsIn_of_getLast h (by decide)] at hs
    cases hs
  | is front => simp at h
  | es hes =>
    rw [endsIn_of_getLast h (by decide)] at hes
    cases hes
  | ies front hc => simp at h
  | s hs hes => rfl

/-- Such a word gets an `s`. -/
theorem pluralWord_of_getLast {w : List Char} (h : w.getLast?.any Char.isLower = false) : pluralWord w = w ++ ['s'] := by
  have hform := pluralised w
  generalize pluralWord w = many at hform
  cases hform with
  | listed hlisted =>
    rw [hlisted.isSmallWord.getLast] at h
    cases h
  | irregular hp =>
    rw [(irregular_small _ hp).1.getLast] at h
    cases h
  | regular hlisted hfree hrule => exact hrule.append_s h

/-- A plural has several letters, unless it is the word. -/
theorem length_pluralWord {w : List Char} (hne : w ≠ []) : pluralWord w = w ∨ 1 < (pluralWord w).length := by
  have hpos := List.length_pos_of_ne_nil hne
  have hform := pluralised w
  generalize pluralWord w = many at hform
  cases hform with
  | listed h => exact Or.inl rfl
  | irregular hp => exact Or.inr (irregular_small _ hp).2.1.length
  | regular hlisted hfree hrule =>
    -- the rules add at least a letter
    cases hrule with
    | plural hs hone => exact Or.inl rfl
    | is front => simp
    | es hends => simp
    | ies front hc => simp
    | s hs hends =>
      right
      rw [List.length_append, List.length_singleton]
      omega

/-! ### Words that look plural -/

theorem IsListed.facts {w : List Char} (h : IsListed w) :
    ¬ Regrows w ∧ endsIn ["ss", "us", "is"] w = false ∧ irregularPlural? w = none := by
  rcases h with h | h
  · obtain ⟨u, hu, rfl⟩ := isUncountable_iff.1 h
    exact listed_facts u (List.mem_append_left _ hu)
  · obtain ⟨p, hp, rfl⟩ := irregularSingular_isSome_iff.1 h
    exact listed_facts p.2 (List.mem_append_right _ (List.mem_map_of_mem hp))

theorem isListed_of_irregular {p : String × String} (hp : p ∈ irregular) : IsListed p.2.toList :=
  Or.inr (irregularSingular_isSome_iff.2 ⟨p, hp, rfl⟩)

theorem pluralWord_eq_self_iff {w : List Char} : pluralWord w = w ↔ LooksPlural w := by
  have hform := pluralised w
  generalize pluralWord w = many at hform
  cases hform with
  | listed h => exact iff_of_true rfl (Or.inl h)
  | @irregular p hp =>
    have hfree : irregularPlural? p.1.toList ≠ none := by
      rw [← Option.isSome_iff_ne_none, irregularPlural_isSome_iff]
      exact ⟨p, hp, rfl⟩
    have hne := (irregular_singular_facts p hp).1
    -- an irregular plural is another word
    refine iff_of_false (fun h => hne h.symm) ?_
    rintro (hlisted | hlooks)
    · exact hfree hlisted.facts.2.2
    · exact hfree hlooks.1
  | regular hlisted hfree hrule =>
    constructor
    · rintro rfl
      exact Or.inr ⟨hfree, (hrule.perm (.refl _)).2⟩
    · intro hlooks
      obtain ⟨-, hs, hone⟩ := hlooks.resolve_left hlisted
      exact hrule.eq_self hs hone

/-- No singular ends in `es` or `ks`. -/
theorem looksPlural_of_endsIn {w : List Char} (h : endsIn ["es", "ks"] w = true) : LooksPlural w := by
  refine Or.inr ⟨?_, ?_, ?_⟩
  · refine Option.not_isSome_iff_eq_none.1 fun hsome => ?_
    obtain ⟨p, hp, rfl⟩ := irregularPlural_isSome_iff.1 hsome
    rw [(irregular_singular_facts p hp).2.1] at h
    cases h
  · exact endsIn_of_forall (by decide) h
  · refine endsIn_elim h ?_
    simp [endsIn_eq, List.isPrefixOf]

/-- No plural ends in `ss`. -/
theorem not_looksPlural_append_ss (front : List Char) : ¬ LooksPlural (front ++ ['s', 's']) := by
  have hends : endsIn ["ss", "us", "is"] (front ++ ['s', 's']) = true := by simp [endsIn_eq]
  rintro (hlisted | ⟨-, -, hone⟩)
  · rw [hlisted.facts.2.1] at hends
    cases hends
  · rw [hone] at hends
    cases hends

/-! ### Words that regrow -/

/-- These endings call for another rule, and an `s` behind them makes no irregular singular. -/
theorem not_regrows_of_endsIn {w : List Char} (h : endsIn ["s", "sh", "ch", "x", "z", "y"] w = true) : ¬ Regrows w := by
  rintro ⟨hs, hregrows⟩
  rcases hregrows with hends | hsome
  · revert hs hends
    refine endsIn_elim h ?_
    simp [endsIn_eq]
  · obtain ⟨p, hp, hword⟩ := irregularPlural_isSome_iff.1 hsome
    have hends := (irregular_singular_facts p hp).2.2.1
    rw [hword] at hends
    revert hs hends
    refine endsIn_elim h ?_
    simp [endsIn_eq]

theorem not_regrows_of_getLast {w : List Char} (h : w.getLast?.any Char.isLower = false) : ¬ Regrows w := by
  rintro ⟨-, hends | hsome⟩
  · obtain ⟨e, he, hlast⟩ := getLast_of_endsIn (by decide) hends
    have hvowels : ∀ e ∈ ["i", "u"], e.toList.getLast?.any Char.isLower = true := by decide
    rw [hlast, hvowels e he] at h
    cases h
  · obtain ⟨p, hp, hword⟩ := irregularPlural_isSome_iff.1 hsome
    have hlast := (irregular_small p hp).1.dropLast
    rw [hword, List.dropLast_concat, h] at hlast
    cases hlast

/-- An `s` makes a plural of a word, unless the word regrows. -/
theorem looksPlural_append_s_iff {w : List Char} (hs : endsIn ["s"] w = false) :
    LooksPlural (w ++ ['s']) ↔ ¬ Regrows w := by
  have hends : endsIn ["ss", "us", "is"] (w ++ ['s']) = (endsIn ["s"] w || endsIn ["i", "u"] w) := by
    simp [endsIn_eq, Bool.or_comm]
  have hlast : endsIn ["s"] (w ++ ['s']) = true := by simp [endsIn_eq]
  -- the word with an `s` is listed, or the rules see it as a plural
  by_cases hlisted : IsListed (w ++ ['s'])
  · refine iff_of_true (Or.inl hlisted) ?_
    rintro ⟨-, hending | hsome⟩
    · have hfree := hlisted.facts.2.1
      rw [hends, hending, Bool.or_true] at hfree
      cases hfree
    · rw [hlisted.facts.2.2] at hsome
      cases hsome
  · rw [LooksPlural, Regrows, hends, hs, hlast, Bool.false_or]
    simp only [hlisted, false_or, true_and, not_or, Bool.not_eq_true, and_comm, Option.isSome_eq_false_iff,
      Option.isNone_iff_eq_none]

/-- **Which plurals look plural**: all but those of the words that regrow. -/
theorem looksPlural_pluralWord_iff {w : List Char} : LooksPlural (pluralWord w) ↔ ¬ Regrows w := by
  have hform := pluralised w
  generalize pluralWord w = many at hform
  cases hform with
  | listed h => exact iff_of_true (Or.inl h) h.facts.1
  | irregular hp => exact iff_of_true (Or.inl (isListed_of_irregular hp)) (irregular_singular_facts _ hp).2.2.2
  -- one case for each rule: what it makes looks like a plural, except an `s` that regrows
  | regular hlisted hfree hrule =>
    cases hrule with
    | plural hs hone =>
      exact iff_of_true (Or.inr ⟨hfree, hs, hone⟩) (not_regrows_of_endsIn (endsIn_of_forall (by decide) hs))
    | is front =>
      exact iff_of_true (looksPlural_of_endsIn (by simp [endsIn_eq])) (not_regrows_of_endsIn (by simp [endsIn_eq]))
    | es hends =>
      exact iff_of_true (looksPlural_of_endsIn (by simp [endsIn_eq]))
        (not_regrows_of_endsIn (endsIn_of_forall (by decide) hends))
    | ies front hc =>
      exact iff_of_true (looksPlural_of_endsIn (by simp [endsIn_eq])) (not_regrows_of_endsIn (by simp [endsIn_eq]))
    | s hs hends => exact looksPlural_append_s_iff hs

end CrudScaffold.Naming
