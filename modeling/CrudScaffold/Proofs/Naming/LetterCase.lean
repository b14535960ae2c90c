import CrudScaffold.Proofs.Naming.Initials
import CrudScaffold.Proofs.Naming.PluralWords
import CrudScaffold.Proofs.Text.CaseImages

/-!
# CrudScaffold.Proofs.Naming.LetterCase — the letter case of a last word

The letter case of a last word is one of four (`WordCase`).  A word of small letters and digits that gets it comes back
in lower case (`map_toLower_matchCase`), and the lower case of the last word gets it back (`matchCase_map_toLower`).
What holds of every text: no letter case puts a blank at either end (`head_matchCase`, `blank_getLast_matchCase`), and
an `s` at the end stays one (`matchCase_append_s`).
-/

namespace CrudScaffold.Naming

open CrudScaffold.Text

/-- The word is in capitals: it has several characters, and no small letter among them. -/
def inCapitals (w : List Char) : Bool := 1 < w.length && w.any Char.isUpper && w.all fun c => !c.isLower

/-- The letter cases of a last word. -/
inductive WordCase : List Char → Prop
  | low {w : List Char} (hw : IsSnakeWord w) : WordCase w
  | capital {c : Char} {w : List Char} (hc : c.isUpper = true) (hw : ∀ d ∈ w, isLowerOrDigit d = true)
      (hcase : inCapitals (c :: w) = false) : WordCase (c :: w)
  | digits {c : Char} {w : List Char} (hc : c.isUpper = true) (hne : w ≠ []) (hw : ∀ d ∈ w, d.isDigit = true) :
      WordCase (c :: w)
  | capitals {w : List Char} (hlength : 1 < w.length) (hw : ∀ c ∈ w, c.isUpper = true) : WordCase w

/-! ### Letter case of ASCII words -/

theorem isUpperChar_of_isAlphanum {c : Char} (h : c.isAlphanum = true) : isUpperChar c = c.isUpper :=
  if_pos (toNat_lt_of_isAlphanum h)

theorem inRuns_of_lt {runs : List (Nat × Nat × Nat)} {low n : Nat} (hruns : ∀ run ∈ runs, low ≤ run.1) (hn : n < low) :
    inRuns runs n = false := by
  refine List.any_eq_false.2 fun run hrun => ?_
  have hfirst := hruns run hrun
  simp only [Bool.and_eq_true, decide_eq_true_eq]
  omega

theorem isSmall_of_isAlphanum {c : Char} (h : c.isAlphanum = true) : (isLowerChar c || isTitleChar c) = c.isLower := by
  have hascii := toNat_lt_of_isAlphanum h
  have htitle : isTitleChar c = false := inRuns_of_lt (by decide) hascii
  rw [isLowerChar, if_pos hascii, htitle, Bool.or_false]

theorem upperChars_of_isAlphanum {cs : List Char} (h : ∀ c ∈ cs, c.isAlphanum = true) :
    upperChars cs = cs.map Char.toUpper := by
  induction cs with
  | nil => rfl
  | cons c cs ih =>
    obtain ⟨hc, hcs⟩ := List.forall_mem_cons.1 h
    rw [upperChars, List.flatMap_cons, upperChar_of_isAlphanum hc]
    exact congrArg (c.toUpper :: ·) (ih hcs)

/-- The letter case of a pattern of ASCII letters and digits. -/
theorem matchCase_eq {pattern word : List Char} (hpattern : ∀ c ∈ pattern, c.isAlphanum = true)
    (hword : ∀ c ∈ word, c.isAlphanum = true) : matchCase pattern word =
      if inCapitals pattern then word.map Char.toUpper
      else if pattern.head?.any Char.isUpper then capitalize word else word := by
  -- letters and digits have the case that ASCII gives them
  have hany : pattern.any isUpperChar = pattern.any Char.isUpper := by
    rw [Bool.eq_iff_iff, List.any_eq_true, List.any_eq_true]
    exact exists_congr fun c => and_congr_right fun hc => by rw [isUpperChar_of_isAlphanum (hpattern c hc)]
  have hall : (pattern.all fun c => !(isLowerChar c || isTitleChar c)) = pattern.all fun c => !c.isLower := by
    rw [Bool.eq_iff_iff, List.all_eq_true, List.all_eq_true]
    exact forall₂_congr fun c hc => by rw [isSmall_of_isAlphanum (hpattern c hc)]
  have hhead : pattern.head?.any isUpperChar = pattern.head?.any Char.isUpper := by
    cases pattern with
    | nil => rfl
    | cons c cs => exact isUpperChar_of_isAlphanum (hpattern c List.mem_cons_self)
  have hraised : ∀ c cs, word = c :: cs → upperChar c ++ cs = c.toUpper :: cs := by
    rintro c cs rfl
    rw [upperChar_of_isAlphanum (hword c List.mem_cons_self)]
    rfl
  rw [matchCase.eq_def, isUpperText, hany, hall, hhead, upperChars_of_isAlphanum hword, inCapitals, Bool.and_assoc]
  cases word with
  | nil => rfl
  | cons c cs => simp only [hraised c cs rfl, capitalize]

/-! ### Ends -/

/-- An `s` behind a word stays an `s` in every letter case. -/
theorem matchCase_append_s (pattern : List Char) {word : List Char} (hne : word ≠ []) :
    ∃ c, (c = 's' ∨ c = 'S') ∧ matchCase pattern (word ++ ['s']) = matchCase pattern word ++ [c] := by
  obtain ⟨d, word, rfl⟩ := List.exists_cons_of_ne_nil hne
  unfold matchCase
  split
  · exact ⟨'S', Or.inr rfl, by rw [upperChars, List.flatMap_append]; rfl⟩
  split
  · exact ⟨'s', Or.inl rfl, (List.append_assoc _ _ _).symm⟩
  · exact ⟨'s', Or.inl rfl, rfl⟩

/-- Lower case puts no blank at the beginning, -/
theorem head_lowerChars {cs : List Char} (h : ∀ c ∈ cs.head?, isBlank c = false) :
    ∀ c ∈ (lowerChars cs).head?, isBlank c = false := by
  cases cs with
  | nil => exact nofun
  | cons c cs =>
    intro d hd
    obtain ⟨image, himage, hlower⟩ := lowerAfter_cons [] c cs
    rw [lowerChars, hlower, List.head?_append_of_ne_nil _ himage.ne_nil] at hd
    exact himage.isBlank_eq_false (h c rfl) (List.mem_of_mem_head? hd)

/-- and none at the end. -/
theorem getLast_lowerChars {cs : List Char} (h : ∀ c ∈ cs.getLast?, isBlank c = false) :
    ∀ c ∈ (lowerChars cs).getLast?, isBlank c = false := by
  rcases List.eq_nil_or_concat cs with rfl | ⟨front, c, rfl⟩
  · exact nofun
  rw [List.concat_eq_append] at h ⊢
  intro d hd
  obtain ⟨before, image, himage, hlower, -⟩ := lowerAfter_concat [] front c
  rw [lowerChars, hlower, List.getLast?_append_of_ne_nil _ himage.ne_nil] at hd
  exact himage.isBlank_eq_false (h c (by simp)) (List.mem_of_getLast? hd)

theorem matchCase_nil (pattern : List Char) : matchCase pattern [] = [] := by
  unfold matchCase
  split
  · rfl
  · split <;> rfl

/-- No letter case puts a blank at the beginning, -/
theorem head_matchCase {pattern word : List Char} (h : ∀ c ∈ word.head?, isBlank c = false) :
    ∀ c ∈ (matchCase pattern word).head?, isBlank c = false := by
  cases word with
  | nil =>
    rw [matchCase_nil]
    exact nofun
  | cons d word =>
    -- a raised character is no blank, unless it was one before
    have hraised : ∀ rest : List Char, ∀ c ∈ (upperChar d ++ rest).head?, isBlank c = false := by
      intro rest c hc
      rw [List.head?_append_of_ne_nil _ (upperChar_ne_nil d)] at hc
      exact isBlank_of_mem_upperChar (h d rfl) (List.mem_of_mem_head? hc)
    unfold matchCase
    split
    · exact hraised (upperChars word)
    split
    · exact hraised word
    · exact h

/-- and none at the end. -/
theorem blank_getLast_matchCase {pattern word : List Char} (h : ∀ c ∈ word.getLast?, isBlank c = false) :
    ∀ c ∈ (matchCase pattern word).getLast?, isBlank c = false := by
  rcases List.eq_nil_or_concat word with rfl | ⟨front, d, rfl⟩
  · rw [matchCase_nil]
    exact nofun
  have hd := h d (by simp)
  -- a character that is no blank is spelt out to characters that are none
  have hraised : ∀ rest : List Char, ∀ c ∈ (rest ++ upperChar d).getLast?, isBlank c = false := by
    intro rest c hc
    rw [List.getLast?_append_of_ne_nil _ (upperChar_ne_nil d)] at hc
    exact isBlank_of_mem_upperChar hd (List.mem_of_getLast? hc)
  rw [List.concat_eq_append] at h ⊢
  unfold matchCase
  split
  · rw [upperChars, List.flatMap_append, List.flatMap_singleton]
    exact hraised (upperChars front)
  split
  · cases front with
    | nil => simpa using hraised []
    | cons e front => simpa using hd
  · exact h

/-- A small letter at the end stays a letter in every letter case. -/
theorem getLast_matchCase {pattern word : List Char} (h : word.getLast?.any Char.isLower = true) :
    ∃ front c, matchCase pattern word = front ++ [c] ∧ c.isAlphanum = true := by
  obtain ⟨c, hc, hlow⟩ := (Option.any_eq_true _ _).1 h
  obtain ⟨front, rfl⟩ := List.getLast?_eq_some_iff.1 hc
  have halnum := isAlphanum_of_isLower hlow
  unfold matchCase
  split
  · refine ⟨upperChars front, c.toUpper, ?_, isAlphanum_toUpper halnum⟩
    rw [upperChars, List.flatMap_append, List.flatMap_singleton, upperChar_of_isAlphanum halnum]
    rfl
  split
  · cases front with
    | nil => exact ⟨[], c.toUpper, by rw [← upperChar_of_isAlphanum halnum]; simp, isAlphanum_toUpper halnum⟩
    | cons d front => exact ⟨upperChar d ++ front, c, (List.append_assoc _ _ _).symm, halnum⟩
  · exact ⟨front, c, rfl, halnum⟩

/-! ### The four letter cases -/

theorem isDigit_or_isLower {c : Char} (h : isLowerOrDigit c = true) (hlow : c.isLower = false) : c.isDigit = true := by
  simpa [isLowerOrDigit, hlow] using h

theorem IsTailWord.wordCase {w : List Char} (h : IsTailWord w) : WordCase w := by
  cases h with
  | low hne h => exact .low ⟨hne, h⟩
  | @capital c w hc hne h =>
    -- one capital in front of digits only is in capitals
    cases hcase : inCapitals (c :: w) with
    | false => exact .capital hc h hcase
    | true =>
      rw [inCapitals, Bool.and_eq_true, List.all_eq_true] at hcase
      refine .digits hc hne fun d hd => isDigit_or_isLower (h d hd) ?_
      simpa using hcase.2 d (List.mem_cons_of_mem _ hd)
  | capitals hne h =>
    obtain ⟨c, w, rfl⟩ := List.exists_cons_of_ne_nil hne
    cases w with
    | nil => exact .capital (h c List.mem_cons_self) nofun rfl
    | cons d w => exact .capitals (by simp) h

theorem isLower_of_isUpper {c : Char} (h : c.isUpper = true) : c.isLower = false := by grind

theorem isLower_of_isDigit {c : Char} (h : c.isDigit = true) : c.isLower = false := by grind

theorem inCapitals_cons {c : Char} {w : List Char} (hc : c.isUpper = true) (hne : w ≠ [])
    (hw : ∀ d ∈ w, d.isLower = false) : inCapitals (c :: w) = true := by
  have hlength : 1 < (c :: w).length := by
    have hpos := List.length_pos_of_ne_nil hne
    rw [List.length_cons]
    omega
  have hall : ∀ d ∈ c :: w, (!d.isLower) = true :=
    List.forall_mem_cons.2 ⟨by simp [isLower_of_isUpper hc], fun d hd => by simp [hw d hd]⟩
  rw [inCapitals, List.all_eq_true.2 hall, decide_eq_true hlength, List.any_cons, hc]
  rfl

theorem inCapitals_of_digits {c : Char} {w : List Char} (hc : c.isUpper = true) (hne : w ≠ [])
    (hw : ∀ d ∈ w, d.isDigit = true) : inCapitals (c :: w) = true :=
  inCapitals_cons hc hne fun d hd => isLower_of_isDigit (hw d hd)

theorem inCapitals_of_capitals {w : List Char} (hlength : 1 < w.length) (hw : ∀ c ∈ w, c.isUpper = true) :
    inCapitals w = true := by
  obtain ⟨c, w, rfl⟩ := List.exists_cons_of_length_pos (Nat.zero_lt_of_lt hlength)
  obtain ⟨hc, hw⟩ := List.forall_mem_cons.1 hw
  refine inCapitals_cons hc ?_ fun d hd => isLower_of_isUpper (hw d hd)
  rintro rfl
  exact Nat.lt_irrefl 1 hlength

section Matching

variable {pattern word : List Char} (hpattern : ∀ c ∈ pattern, c.isAlphanum = true)
  (hword : ∀ c ∈ word, isLowerOrDigit c = true)
include hpattern hword

theorem matchCase_capital (hcase : inCapitals pattern = false) (hhead : pattern.head?.any Char.isUpper = true) :
    matchCase pattern word = capitalize word := by
  rw [matchCase_eq hpattern fun c hc => isAlphanum_of_isLowerOrDigit (hword c hc), hcase, hhead]
  rfl

theorem matchCase_capitals (hcase : inCapitals pattern = true) : matchCase pattern word = word.map Char.toUpper := by
  rw [matchCase_eq hpattern fun c hc => isAlphanum_of_isLowerOrDigit (hword c hc), hcase]
  rfl

/-- A word of letters and digits keeps to them in every letter case. -/
theorem isAlphanum_matchCase : ∀ c ∈ matchCase pattern word, c.isAlphanum = true := by
  have halnum : ∀ c ∈ word, c.isAlphanum = true := fun c hc => isAlphanum_of_isLowerOrDigit (hword c hc)
  rw [matchCase_eq hpattern halnum]
  split
  · intro c hc
    obtain ⟨d, hd, rfl⟩ := List.mem_map.1 hc
    exact isAlphanum_toUpper (halnum d hd)
  split
  · cases word with
    | nil => exact nofun
    | cons d word =>
      obtain ⟨hd, hrest⟩ := List.forall_mem_cons.1 halnum
      exact List.forall_mem_cons.2 ⟨isAlphanum_toUpper hd, hrest⟩
  · exact halnum

/-- In lower case, a word is what it was before it got the letter case of the pattern. -/
theorem map_toLower_matchCase : (matchCase pattern word).map Char.toLower = word := by
  have hback : ∀ c ∈ word, c.toUpper.toLower = c := fun c hc => by
    rw [toLower_toUpper, (isLowerOrDigit_fixed (hword c hc)).2]
  have hlow : word.map Char.toLower = word := by
    rw [List.map_congr_left fun c hc => (isLowerOrDigit_fixed (hword c hc)).2, List.map_id']
  rw [matchCase_eq hpattern fun c hc => isAlphanum_of_isLowerOrDigit (hword c hc)]
  split
  · rw [List.map_map]
    exact (List.map_congr_left hback).trans (List.map_id' word)
  split
  · have hraised := map_toLower_capitalize (w := word) fun c hc => isAlphanum_of_isLowerOrDigit (hword c hc)
    rwa [hlow] at hraised
  · exact hlow

end Matching

theorem toUpper_toLower {c : Char} (h : c.isLower = false) : c.toLower.toUpper = c :=
  Char.toNat_inj.1 (by grind)

/-- The lower case of a word gets the letter case of the word back. -/
theorem matchCase_map_toLower {w : List Char} (h : IsTailWord w) : matchCase w (w.map Char.toLower) = w := by
  have halnum := h.isAlphanum
  have hlow : ∀ c ∈ w.map Char.toLower, isLowerOrDigit c = true := by
    intro c hc
    obtain ⟨d, hd, rfl⟩ := List.mem_map.1 hc
    exact isLowerOrDigit_toLower (halnum d hd)
  -- capitals come back from lower case
  have hraised : inCapitals w = true → (w.map Char.toLower).map Char.toUpper = w := by
    intro hcase
    rw [inCapitals, Bool.and_eq_true, List.all_eq_true] at hcase
    have hback : ∀ c ∈ w, c.toLower.toUpper = c := fun c hc => toUpper_toLower (by simpa using hcase.2 c hc)
    rw [List.map_map]
    exact (List.map_congr_left hback).trans (List.map_id' w)
  cases h.wordCase with
  | low hw =>
    rw [hw.map_toLower, hw.matchCase_eq]
  | @capital c w hc hw hcase =>
    rw [matchCase_capital halnum hlow hcase (by simpa using hc), List.map_cons, capitalize,
      toUpper_toLower (isLower_of_isUpper hc),
      List.map_congr_left fun d hd => (isLowerOrDigit_fixed (hw d hd)).2, List.map_id']
  | digits hc hne hw =>
    have hcase := inCapitals_of_digits hc hne hw
    rw [matchCase_capitals halnum hlow hcase, hraised hcase]
  | capitals hlength hw =>
    have hcase := inCapitals_of_capitals hlength hw
    rw [matchCase_capitals halnum hlow hcase, hraised hcase]

end CrudScaffold.Naming
