import CrudScaffold.Proofs.Naming.LetterCase

/-!
# CrudScaffold.Proofs.Naming.Inflected — the last word of a plural

A plural keeps the letter case of the last word.  So the last word of a plural is the plural of the last word in its
letter case, and it is inflected in this letter case again (`LastWord.plural_last`).  Digits behind a single capital
make the one exception: in `V2S` the last word is `S`.
-/

namespace CrudScaffold.Naming

open CrudScaffold.Text

/-! ### Words and what stands in front of them -/

theorem isTailWord_cons_low {d : Char} {w : List Char} (hw : IsSnakeWord w) :
    IsTailWord (d :: w) ↔ d.isAlphanum = true := by
  constructor
  · exact fun h => h.isAlphanum d List.mem_cons_self
  · intro hd
    rw [isAlphanum_eq_or, Bool.or_eq_true] at hd
    rcases hd with hd | hd
    · exact .low (List.cons_ne_nil d w) (List.forall_mem_cons.2 ⟨hd, hw.low⟩)
    · exact .capital hd hw.ne_nil hw.low

theorem not_isTailWord_cons_capital {c d : Char} {w : List Char} (hc : c.isUpper = true) (hne : w ≠ [])
    (hw : ∀ e ∈ w, isLowerOrDigit e = true) : ¬ IsTailWord (d :: c :: w) := by
  have hsmall := isLowerOrDigit_of_isUpper hc
  intro h
  cases h with
  | low _ h => simp [h c (by simp)] at hsmall
  | capital _ _ h => simp [h c (by simp)] at hsmall
  | capitals _ h =>
    obtain ⟨e, w, rfl⟩ := List.exists_cons_of_ne_nil hne
    have he := isLowerOrDigit_of_isUpper (h e (by simp))
    simp [hw e List.mem_cons_self] at he

theorem isTailWord_cons_capitals {d : Char} {w : List Char} (hne : w ≠ []) (hw : ∀ c ∈ w, c.isUpper = true) :
    IsTailWord (d :: w) ↔ d.isUpper = true := by
  constructor
  · intro h
    cases h with
    | low _ h =>
      obtain ⟨c, w, rfl⟩ := List.exists_cons_of_ne_nil hne
      have hc := isLowerOrDigit_of_isUpper (hw c List.mem_cons_self)
      simp [h c (by simp)] at hc
    | capital hd _ _ => exact hd
    | capitals _ h => exact h d List.mem_cons_self
  · exact fun hd => .capitals (List.cons_ne_nil d w) (List.forall_mem_cons.2 ⟨hd, hw⟩)

/-! ### Inflecting a plural -/

theorem IsTailWord.isSnakeWord_map_toLower {w : List Char} (h : IsTailWord w) : IsSnakeWord (w.map Char.toLower) := by
  refine ⟨by simpa using h.ne_nil, fun c hc => ?_⟩
  obtain ⟨d, hd, rfl⟩ := List.mem_map.1 hc
  exact isLowerOrDigit_toLower (h.isAlphanum d hd)

theorem getLast?_cons_of_ne_nil {α : Type} {a : α} {l : List α} (h : l ≠ []) : (a :: l).getLast? = l.getLast? :=
  List.getLast?_append_of_ne_nil [a] h

theorem isUpper_toUpper {c : Char} (h : c.isLower = true) : c.toUpper.isUpper = true := by grind

theorem isLower_toLower {c : Char} (h : c.isUpper = true) : c.toLower.isLower = true := by grind

/-- A word of several characters that ends in a small letter is not in capitals when its first letter is raised. -/
theorem capitalize_isTailWord {v : List Char} (hv : IsSnakeWord v) (hlength : 1 < v.length)
    (hhead : startsWithDigit v = false) (hend : v.getLast?.any Char.isLower = true) :
    ∃ c w, capitalize v = c :: w ∧ c.isUpper = true ∧ w ≠ [] ∧ (∀ d ∈ w, isLowerOrDigit d = true) ∧
      inCapitals (c :: w) = false := by
  obtain ⟨c, w, rfl⟩ := List.exists_cons_of_ne_nil hv.ne_nil
  obtain ⟨hc, hw⟩ := List.forall_mem_cons.1 hv.low
  have hne : w ≠ [] := by
    rintro rfl
    exact Nat.lt_irrefl 1 hlength
  -- a word that begins with no digit begins with a small letter
  have hletter : c.isLower = true := by
    have hdigit : c.isDigit = false := hhead
    simpa [isLowerOrDigit, hdigit] using hc
  refine ⟨c.toUpper, w, rfl, isUpper_toUpper hletter, hne, hw, Bool.eq_false_iff.2 fun hcase => ?_⟩
  rw [inCapitals, Bool.and_eq_true, List.all_eq_true] at hcase
  rw [getLast?_cons_of_ne_nil hne] at hend
  obtain ⟨d, hd, hlow⟩ := (Option.any_eq_true _ _).1 hend
  have hcapital := hcase.2 d (List.mem_cons_of_mem _ (List.mem_of_getLast? hd))
  simp [hlow] at hcapital

theorem isUpper_of_mem_pluralWord {w : List Char} (hw : ∀ c ∈ w, c.isUpper = true) :
    ∀ c ∈ (pluralWord (w.map Char.toLower)).map Char.toUpper, c.isUpper = true := by
  intro c hc
  obtain ⟨d, hd, rfl⟩ := List.mem_map.1 hc
  refine isUpper_toUpper ?_
  rcases mem_pluralWord hd with hd | hd
  · obtain ⟨e, he, rfl⟩ := List.mem_map.1 hd
    exact isLower_toLower (hw e he)
  · exact hd

theorem getLast_map_toLower_of_digits (c : Char) {w : List Char} (hne : w ≠ []) (hw : ∀ d ∈ w, d.isDigit = true) :
    ((c :: w).map Char.toLower).getLast?.any Char.isLower = false := by
  have hdigit := hw _ (List.getLast_mem hne)
  rw [List.getLast?_map, getLast?_cons_of_ne_nil hne, List.getLast?_eq_some_getLast hne]
  show (w.getLast hne).toLower.isLower = false
  grind

theorem lastWord_capital_of_digits {before w : List Char} {c d : Char} (hne : w ≠ [])
    (hw : ∀ e ∈ w, e.isDigit = true) (hd : d.isUpper = true) :
    LastWord (before ++ c :: w ++ [d]) (before ++ c :: w) [d] := by
  have hcapital : ∀ e ∈ [d], e.isUpper = true := List.forall_mem_singleton.2 hd
  refine lastWord_iff.2 ⟨.capitals (List.cons_ne_nil _ _) hcapital, fun e he hlonger => ?_⟩
  rw [isTailWord_cons_capitals (List.cons_ne_nil _ _) hcapital] at hlonger
  rw [List.getLast?_append_of_ne_nil _ (List.cons_ne_nil _ _), getLast?_cons_of_ne_nil hne] at he
  have hdigit := hw e (List.mem_of_getLast? he)
  grind

namespace LastWord

variable {cs before w : List Char}

/-- The last word of a plural: it has the letter case of the last word of the name, or it is the capital `S` behind a
digit. -/
theorem plural_last (h : LastWord cs before w) :
    let word := matchCase w (Naming.pluralWord (w.map Char.toLower))
    (LastWord (before ++ word) before word ∧
      ∀ v, (∀ c ∈ v, isLowerOrDigit c = true) → matchCase word v = matchCase w v) ∨
    ((w.map Char.toLower).getLast?.any Char.isLower = false ∧ word = w ++ ['S'] ∧
      LastWord (before ++ word) (before ++ w) ['S']) := by
  have hlast : LastWord (before ++ w) before w := h.append ▸ h
  obtain ⟨-, hfront⟩ := lastWord_iff.1 hlast
  have hsmall := h.word.isSnakeWord_map_toLower
  have halnum := h.word.isAlphanum
  have hself := matchCase_map_toLower h.word
  have hmany := hsmall.pluralWord
  have hend := getLast_pluralWord (w.map Char.toLower)
  have hhead := startsWithDigit_pluralWord hsmall.ne_nil
  -- the word is its own plural, or has a plural with more than one letter
  rcases length_pluralWord hsmall.ne_nil with hplural | hlength
  · rw [hplural, hself]
    exact Or.inl ⟨hlast, fun v hv => rfl⟩
  -- one case for each letter case of the word; the plural takes it on
  cases h.word.wordCase with
  | low hw =>
    rw [hw.matchCase_eq]
    refine Or.inl ⟨lastWord_iff.2 ⟨.low hmany.ne_nil hmany.low, fun d hd => ?_⟩, fun v hv => ?_⟩
    · rw [isTailWord_cons_low hmany, ← isTailWord_cons_low hw]
      exact hfront d hd
    · rw [hmany.matchCase_eq, hw.matchCase_eq]
  | @capital c w hc hw hcase =>
    have hmatch : ∀ v, (∀ c ∈ v, isLowerOrDigit c = true) → matchCase (c :: w) v = capitalize v := fun v hv =>
      matchCase_capital halnum hv hcase (by simpa using hc)
    have hdigit : c.toLower.isDigit = false := by grind
    obtain ⟨c', w', hraised, hc', hne, hw', hcase'⟩ := capitalize_isTailWord hmany hlength (hhead.trans hdigit) hend
    have hword : IsTailWord (c' :: w') := .capital hc' hne hw'
    rw [hmatch _ hmany.low, hraised]
    refine Or.inl ⟨lastWord_iff.2 ⟨hword, fun d hd => not_isTailWord_cons_capital hc' hne hw'⟩, fun v hv => ?_⟩
    rw [hmatch v hv, matchCase_capital hword.isAlphanum hv hcase' (by simpa using hc')]
  -- capitals with digits stay as they are, and the ending is a capital of its own
  | @digits c w hc hne hw =>
    have hcase := inCapitals_of_digits hc hne hw
    have hlow := getLast_map_toLower_of_digits c hne hw
    rw [matchCase_capitals halnum hsmall.low hcase] at hself
    rw [matchCase_capitals halnum hmany.low hcase, pluralWord_of_getLast hlow, List.map_append, hself]
    refine Or.inr ⟨hlow, rfl, ?_⟩
    rw [List.map_singleton, ← List.append_assoc]
    exact lastWord_capital_of_digits hne hw rfl
  | capitals hlength' hw =>
    have hcapitals := isUpper_of_mem_pluralWord hw
    have hcase := inCapitals_of_capitals hlength' hw
    have hcase' := inCapitals_of_capitals (by simpa using hlength) hcapitals
    have hne : (Naming.pluralWord (w.map Char.toLower)).map Char.toUpper ≠ [] := by simpa using hmany.ne_nil
    rw [matchCase_capitals halnum hmany.low hcase]
    refine Or.inl ⟨lastWord_iff.2 ⟨.capitals hne hcapitals, fun d hd => ?_⟩, fun v hv => ?_⟩
    · rw [isTailWord_cons_capitals hne hcapitals, ← isTailWord_cons_capitals h.word.ne_nil hw]
      exact hfront d hd
    · rw [matchCase_capitals (fun c hc => isAlphanum_of_isUpper (hcapitals c hc)) hv hcase',
        matchCase_capitals halnum hv hcase]

end LastWord

end CrudScaffold.Naming
