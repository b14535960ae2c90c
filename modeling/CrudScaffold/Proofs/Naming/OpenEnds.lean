import CrudScaffold.Proofs.Naming.LetterCase

/-!
# CrudScaffold.Proofs.Naming.OpenEnds — names that end in neither a letter nor a digit

Such a name counts as one word, so inflecting it takes the whole name to lower case and back into its letter case.
Nothing but an `s` at the end of a plural is new (`pluralWord_open`), and what stands in front of the `s` is a letter in
two cases only: the Kelvin sign has a `k` as its lower case, and the sharp s is spelt out in capitals
(`matchCase_open`).
-/

namespace CrudScaffold.Naming

open CrudScaffold.Text

section

variable (front : List Char) {x : Char} (hx : x.isAlphanum = false)
include hx

theorem splitLastWord_open : splitLastWord (front ++ [x]) = ([], front ++ [x]) := by
  have hkinds := hx
  rw [isAlphanum_eq_or, Bool.or_eq_false_iff] at hkinds
  have hsize : tailSize (front ++ [x]).reverse = 0 := by
    rw [List.reverse_append, List.reverse_singleton, List.singleton_append, tailSize,
      List.takeWhile_cons_of_neg (by simp [hkinds.1]), List.takeWhile_cons_of_neg (by simp [hkinds.2])]
    rfl
  rw [splitLastWord_eq, if_pos hsize]

theorem inflectLast_open (inflect : List Char → List Char) :
    inflectLast inflect (front ++ [x]) = matchCase (front ++ [x]) (inflect (lowerChars (front ++ [x]))) := by
  rw [inflectLast, splitLastWord_open front hx]
  rfl

/-- The last character in lower case: a letter only if it comes from the Kelvin sign. -/
theorem lowerChars_open : ∃ low d, lowerChars (front ++ [x]) = low ++ [d] ∧ front.length ≤ low.length ∧
    (d.isAlphanum = true → x = kelvinSign ∧ d = 'k') ∧ (SpeltOut d → d = x ∨ x = capitalSharpS) := by
  obtain ⟨before, image, himage, hlower, hlength⟩ := lowerAfter_concat [] front x
  rcases List.eq_nil_or_concat image with rfl | ⟨rest, d, rfl⟩
  · exact absurd rfl himage.ne_nil
  rw [List.concat_eq_append] at himage hlower
  refine ⟨before ++ rest, d, by rw [lowerChars, hlower, List.append_assoc], ?_, fun hd => ?_, fun hd => ?_⟩
  · rw [List.length_append]
    omega
  · have hsigma : isSmallSigma d = false := by
      have hascii := toNat_lt_of_isAlphanum hd
      exact isSmallSigma_eq_false (by omega)
    have hmem : d ∈ rest ++ [d] := by simp
    -- the lower case of `x` ends in a letter for two characters only
    rcases letter_of_mem_lowerChar (himage.mem_lowerChar hmem hsigma) hd with hletter | hdotted | hkelvin
    · rw [hx] at hletter
      cases hletter
    · -- the dotted capital I leaves its dot behind
      have hlast : (lowerChar (Char.ofNat 0x130)).getLast?.any Char.isAlphanum = false := by decide
      rcases himage with himage | ⟨-, e, himage, he⟩
      · rw [← hdotted, Char.ofNat_toNat, ← himage, List.getLast?_concat, Option.any_some, hd] at hlast
        cases hlast
      · have hmem' := himage ▸ hmem
        rw [List.mem_singleton.1 hmem', he] at hsigma
        cases hsigma
    · have hk : lowerChar (Char.ofNat 0x212a) = ['k'] := by decide
      have hmem' := himage.mem_lowerChar hmem hsigma
      rw [← Char.ofNat_toNat x, hkelvin, hk, List.mem_singleton] at hmem'
      exact ⟨by rw [kelvinSign, ← hkelvin, Char.ofNat_toNat], hmem'⟩
  · exact hd.eq_of_mem_lowerChar (himage.mem_lowerChar (by simp) hd.isSmallSigma)

/-- The plural of the whole name in lower case: a name that spells the word feedback with a Kelvin sign is its own
plural, and every other one gets an `s`. -/
theorem pluralWord_open : pluralWord (lowerChars (front ++ [x])) = lowerChars (front ++ [x]) ++ ['s'] ∨
    lowerChars (front ++ [x]) = "feedback".toList := by
  obtain ⟨low, d, hlower, -, hletter, -⟩ := lowerChars_open front hx
  have hlast : (lowerChars (front ++ [x])).getLast? = some d := by rw [hlower, List.getLast?_concat]
  generalize lowerChars (front ++ [x]) = w at hlast
  by_cases hd : d.isLower = true
  case neg =>
    refine Or.inl (pluralWord_of_getLast ?_)
    rw [hlast]
    exact Bool.eq_false_iff.2 hd
  obtain ⟨-, rfl⟩ := hletter (isAlphanum_of_isLower hd)
  have hone : ∀ u ∈ uncountable, u.toList.getLast? = some 'k' → u.toList = "feedback".toList := by decide
  have hends : ∀ endings, (∀ e ∈ endings, e.toList ≠ [] ∧ e.toList.getLast? ≠ some 'k') → endsIn endings w = false := by
    intro endings hall
    refine Bool.eq_false_iff.2 fun hends => ?_
    -- no ending of the rules is that of the word
    obtain ⟨e, he, hword⟩ := getLast_of_endsIn (fun e he => (hall e he).1) hends
    exact (hall e he).2 (hword.symm.trans hlast)
  have hform := pluralised w
  generalize pluralWord w = many at hform
  cases hform with
  | listed h =>
    -- of the listed words only one ends in a `k`
    rcases h with h | h
    · obtain ⟨u, hu, rfl⟩ := isUncountable_iff.1 h
      exact Or.inr (hone u hu hlast)
    · obtain ⟨p, hp, rfl⟩ := irregularSingular_isSome_iff.1 h
      exact absurd hlast (irregular_getLast_ne_k p hp).2
  | irregular hp => exact absurd hlast (irregular_getLast_ne_k _ hp).1
  | regular hlisted hfree hrule =>
    cases hrule with
    | plural hs hmany =>
      rw [hends _ (by decide)] at hs
      cases hs
    | is front => simp at hlast
    | es hes =>
      rw [hends _ (by decide)] at hes
      cases hes
    | ies front hc => simp at hlast
    | s hs hes => exact Or.inl rfl

/-- In its letter case again, the name ends in a letter only if this comes from the Kelvin sign, or if the name is in
capitals and ends in the sharp s. -/
theorem matchCase_open (hsharp : ¬ (isUpperText (front ++ [x]) = true ∧ x = capitalSharpS)) :
    ∃ rest m, matchCase (front ++ [x]) (lowerChars (front ++ [x])) = rest ++ [m] ∧
      (m.isAlphanum = true → m = 'k' ∨ m = 'K') := by
  obtain ⟨low, d, hlower, hlength, hletter, hspelt⟩ := lowerChars_open front hx
  rw [hlower]
  have hsmall : d.isAlphanum = true → d = 'k' ∨ d = 'K' := fun hd => Or.inl (hletter hd).2
  -- the last character is raised to a letter only if it is a `k`
  have hraised : (SpeltOut x → False) → x ≠ capitalSharpS → ∃ rest m, upperChar d = rest ++ [m] ∧
      (m.isAlphanum = true → m = 'k' ∨ m = 'K') := by
    intro hself hother
    rcases List.eq_nil_or_concat (upperChar d) with hnil | ⟨rest, m, hform⟩
    · exact absurd hnil (upperChar_ne_nil d)
    rw [List.concat_eq_append] at hform
    refine ⟨rest, m, hform, fun hm => ?_⟩
    have hmem : m ∈ upperChar d := by simp [hform]
    by_cases hd : d.isAlphanum = true
    · obtain ⟨-, rfl⟩ := hletter hd
      rw [upperChar_of_isAlphanum hd] at hmem
      exact Or.inr (List.mem_singleton.1 hmem)
    · have hspells : SpeltOut d := ⟨Bool.eq_false_iff.2 hd, m, hmem, hm⟩
      rcases hspelt hspells with rfl | hx
      · exact (hself hspells).elim
      · exact absurd hx hother
  unfold matchCase
  split
  · -- the text is in capitals, begins with one, or stays in lower case
    rename_i hupper
    obtain ⟨-, hupper⟩ := Bool.and_eq_true_iff.1 hupper
    have hnone := List.all_eq_true.1 (Bool.and_eq_true_iff.1 hupper).2 x (by simp)
    obtain ⟨rest, m, hform, hm⟩ := hraised (fun h => by simp [h.facts.2.1] at hnone) fun hx => hsharp ⟨hupper, hx⟩
    refine ⟨upperChars low ++ rest, m, ?_, hm⟩
    rw [upperChars, List.flatMap_append, List.flatMap_singleton, hform, List.append_assoc]
    rfl
  split
  · rename_i hhead
    cases low with
    | cons c low => exact ⟨upperChar c ++ low, d, (List.append_assoc _ _ _).symm, hsmall⟩
    | nil =>
      -- the name is one capital
      obtain rfl := List.eq_nil_of_length_eq_zero (Nat.le_zero.1 hlength)
      have hcapital : isUpperChar x = true := hhead
      have hsingle : isUpperText [capitalSharpS] = true := by decide
      obtain ⟨rest, m, hform, hm⟩ := hraised (fun h => by simp [h.facts.2.2.1] at hcapital) fun hx =>
        hsharp ⟨hx ▸ hsingle, hx⟩
      exact ⟨rest, m, by simp [hform], hm⟩
  · exact ⟨low, d, rfl, hsmall⟩

end

/-- In capitals, the sharp s at the end of the name is spelt out. -/
theorem matchCase_sharp {front : List Char} (h : isUpperText (front ++ [capitalSharpS]) = true) :
    ∃ rest, matchCase (front ++ [capitalSharpS]) (lowerChars (front ++ [capitalSharpS])) = rest ++ ['S', 'S'] := by
  by_cases hne : front = []
  · subst hne
    exact ⟨[], by decide⟩
  have hlength : 1 < (front ++ [capitalSharpS]).length := by
    have hpos := List.length_pos_iff.2 hne
    rw [List.length_append, List.length_singleton]
    omega
  obtain ⟨before, image, himage, hlower, -⟩ := lowerAfter_concat [] front capitalSharpS
  have hsmall : lowerChar capitalSharpS = [Char.ofNat 0xdf] := by decide
  have hspelt : upperChar (Char.ofNat 0xdf) = ['S', 'S'] := by decide
  have hsigma : capitalSharpS.toNat ≠ 0x3a3 := by decide
  obtain rfl := himage.resolve_right fun h => hsigma h.1
  refine ⟨upperChars before, ?_⟩
  rw [matchCase.eq_def, h, decide_eq_true hlength, lowerChars, hlower, hsmall]
  show upperChars (before ++ [Char.ofNat 0xdf]) = _
  rw [upperChars, List.flatMap_append, List.flatMap_singleton, hspelt]
  rfl

end CrudScaffold.Naming
