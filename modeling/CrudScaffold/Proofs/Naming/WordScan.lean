import CrudScaffold.Proofs.Naming.Passes

/-!
# CrudScaffold.Proofs.Naming.WordScan — the words of the camel-case form

At a letter or a digit the word pattern finds the block of letters and digits that begins there, up to the next place
where `kindCut` applies (`first_word`).  Which alternative finds it depends on the first two characters only: a run of
small letters, of digits or of capitals, and before a small letter the run of capitals gives back its last one.  So the
third alternative is never needed, and the words that are found are the blocks (`camelWords_eq_blocks`).
-/

namespace CrudScaffold.Naming

open CrudScaffold.Text CrudScaffold.Text.Pattern

variable {keep : Char → Bool} {cut : Char → Char → Option Char → Bool} {back cs w rest : List Char}

/-! ## The first block of a text -/

/-- The text before `rest` is a block: all of it is kept, and the cut rule applies nowhere but at its end, unless the
end is marked by a character that is not kept. -/
inductive IsBlock (keep : Char → Bool) (cut : Char → Char → Option Char → Bool) : List Char → List Char → Prop
  | last {c : Char} {rest : List Char} (hc : keep c = true)
      (hend : ∀ d after, rest = d :: after → keep d = true → cut c d after.head? = true) : IsBlock keep cut [c] rest
  | cons {c d : Char} {w rest : List Char} (hc : keep c = true) (hd : keep d = true)
      (hjoin : cut c d (w ++ rest).head? = false) (h : IsBlock keep cut (d :: w) rest) :
      IsBlock keep cut (c :: d :: w) rest

theorem IsBlock.blocks_eq (h : IsBlock keep cut w rest) : blocks keep cut (w ++ rest) = w :: blocks keep cut rest := by
  -- the induction is on the block; what stands behind it is cut off at its last character
  induction h with
  | @last c rest hc hend =>
    cases rest with
    | nil => exact blocks_singleton hc
    | cons d after =>
      rw [List.singleton_append, blocks_cons_cons hc]
      cases hblocks : blocks keep cut (d :: after) with
      | nil => rfl
      | cons v vs =>
        by_cases hd : keep d = true
        · simp [hend d after rfl hd]
        · simp [hd]
  | @cons c d w rest hc hd hjoin h ih =>
    rw [List.cons_append] at ih
    rw [List.cons_append, List.cons_append, blocks_cons_cons hc, ih, hd, hjoin]
    rfl

/-- Characters of a class in which the cut rule does not apply, up to a place where it does. -/
theorem isBlock_run {p : Char → Bool} (ok : Char → Bool) (hne : w ≠ []) (hw : ∀ c ∈ w, p c = true)
    (hkeep : ∀ c, p c = true → keep c = true) (hok : ∀ c, p c = true → ok c = true)
    (hrest : ∀ c ∈ rest.head?, ok c = true)
    (hjoin : ∀ x y next, p x = true → p y = true → (∀ n ∈ next, ok n = true) → cut x y next = false)
    (hend : ∀ c d after, p c = true → rest = d :: after → keep d = true → cut c d after.head? = true) :
    IsBlock keep cut w rest := by
  induction w with
  | nil => exact absurd rfl hne
  | cons c w ih =>
    obtain ⟨hc, hw⟩ := List.forall_mem_cons.1 hw
    cases w with
    | nil => exact .last (hkeep c hc) fun d after => hend c d after hc
    | cons d w =>
      obtain ⟨hd, hw'⟩ := List.forall_mem_cons.1 hw
      refine .cons (hkeep c hc) (hkeep d hd) (hjoin c d _ hc hd ?_) (ih (List.cons_ne_nil d w) hw)
      cases w with
      | nil => exact hrest
      | cons e w => simpa using hok e (hw' e List.mem_cons_self)

/-! ## Where `kindCut` applies -/

theorem isAlpha_iff {c : Char} : c.isAlpha = true ↔ c.isUpper = true ∨ c.isLower = true := Bool.or_eq_true_iff

theorem kindCut_iff {x y : Char} {next : Option Char} : kindCut x y next = true ↔
    (y.isUpper = true ∧ (x.isLower = true ∨ x.isDigit = true ∨ x.isUpper = true ∧ next.any Char.isLower = true)) ∨
      (x.isAlpha = true ∧ y.isDigit = true) ∨ (x.isDigit = true ∧ y.isAlpha = true) := by
  simp only [kindCut, caseCut, Bool.or_eq_true, Bool.and_eq_true, or_assoc]

theorem kindCut_small {x y : Char} (hx : x.isAlpha = true) (hy : y.isLower = true) (next : Option Char) :
    kindCut x y next = false := by
  refine Bool.eq_false_iff.2 fun h => ?_
  rw [kindCut_iff] at h
  simp only [isAlpha_iff] at h hx
  grind

theorem kindCut_digits {x y : Char} (hx : x.isDigit = true) (hy : y.isDigit = true) (next : Option Char) :
    kindCut x y next = false := by
  refine Bool.eq_false_iff.2 fun h => ?_
  rw [kindCut_iff] at h
  simp only [isAlpha_iff] at h
  grind

theorem kindCut_capitals {x y : Char} {next : Option Char} (hx : x.isUpper = true) (hy : y.isUpper = true)
    (hnext : ∀ n ∈ next, (!n.isLower) = true) : kindCut x y next = false := by
  refine Bool.eq_false_iff.2 fun h => ?_
  have hnone : next.any Char.isLower = false := by
    cases next with
    | none => rfl
    | some n => simpa using hnext n rfl
  rw [kindCut_iff, hnone] at h
  simp only [isAlpha_iff] at h
  grind

theorem kindCut_of_isDigit_ne {x y : Char} {next : Option Char} (hx : x.isAlphanum = true) (hy : y.isAlphanum = true)
    (h : x.isDigit ≠ y.isDigit) : kindCut x y next = true := by
  rw [kindCut_iff]
  simp only [isAlpha_iff]
  grind

theorem kindCut_behind_small {x y : Char} {next : Option Char} (hx : x.isLower = true) (hy : y.isAlphanum = true)
    (h : y.isLower = false) : kindCut x y next = true := by
  rw [kindCut_iff]
  simp only [isAlpha_iff]
  grind

/-! ## The match at a letter or a digit -/

/-- A text of letters and digits, with blanks for everything else. -/
def IsSpaced (cs : List Char) : Prop := ∀ c ∈ cs, c.isAlphanum = true ∨ c = ' '

theorem isBlock_small (hne : w ≠ []) (hw : ∀ c ∈ w, c.isLower = true) (hrest : ∀ c ∈ rest.head?, c.isLower = false) :
    IsBlock Char.isAlphanum kindCut w rest := by
  refine isBlock_run (fun _ => true) hne hw (fun c => isAlphanum_of_isLower) (fun _ _ => rfl) (fun _ _ => rfl) ?_ ?_
  · exact fun x y next hx hy _ => kindCut_small (isAlpha_iff.2 (Or.inr hx)) hy next
  · rintro c d after hc rfl hd
    exact kindCut_behind_small hc hd (hrest d rfl)

theorem isBlock_digits (hne : w ≠ []) (hw : ∀ c ∈ w, c.isDigit = true) (hrest : ∀ c ∈ rest.head?, c.isDigit = false) :
    IsBlock Char.isAlphanum kindCut w rest := by
  refine isBlock_run (fun _ => true) hne hw (fun c hc => by grind) (fun _ _ => rfl) (fun _ _ => rfl) ?_ ?_
  · exact fun x y next hx hy _ => kindCut_digits hx hy next
  · rintro c d after hc rfl hd
    exact kindCut_of_isDigit_ne (by grind) hd (by rw [hc, hrest d rfl]; exact Bool.noConfusion)

/-- Capitals are a block if what stands behind them is no letter, or the capital of a word. -/
theorem isBlock_capitals (hne : w ≠ []) (hw : ∀ c ∈ w, c.isUpper = true)
    (hrest : ∀ d after, rest = d :: after → d.isLower = false ∧
      (d.isUpper = true → after.head?.any Char.isLower = true)) :
    IsBlock Char.isAlphanum kindCut w rest := by
  refine isBlock_run (fun c => !c.isLower) hne hw (fun c => isAlphanum_of_isUpper) ?_ ?_ ?_ ?_
  · grind
  · cases rest with
    | nil => nofun
    | cons d after => simpa using (hrest d after rfl).1
  · exact fun x y next hx hy hnext => kindCut_capitals hx hy hnext
  · rintro c d after hc rfl hd
    obtain ⟨hlower, hcapital⟩ := hrest d after rfl
    rw [kindCut_iff]
    simp only [isAlpha_iff]
    grind

theorem reaches_smallWord_eq_nil {c : Char} (hc : c.isLower = false)
    (hnext : c.isUpper = true → ∀ d ∈ cs.head?, d.isLower = false) : smallWord.reaches ⟨back, c :: cs, []⟩ = [] := by
  have hhere : (plus Char.isLower).reaches ⟨back, c :: cs, []⟩ = [] := reaches_plus_eq_nil (by simpa using hc)
  cases hcapital : c.isUpper with
  | false => simp [smallWord, maybe, reaches, hcapital, hhere]
  | true => simp [smallWord, maybe, reaches, hcapital, hhere, reaches_plus_eq_nil (hnext hcapital)]

theorem first_small (hne : w ≠ []) (hw : ∀ c ∈ w, c.isLower = true) (hrest : ∀ c ∈ rest.head?, c.isLower = false) :
    wordPattern.first back (w ++ rest) = some ⟨w.reverse ++ back, rest, []⟩ := by
  obtain ⟨fewer, hfewer⟩ := reaches_plus [] back hne hw hrest
  have hno : (one Char.isUpper).reaches ⟨back, w ++ rest, []⟩ = [] := by
    obtain ⟨c, w, rfl⟩ := List.exists_cons_of_ne_nil hne
    have hc := hw c List.mem_cons_self
    have hc' : c.isUpper = false := by grind
    simp [reaches, hc']
  refine head?_either_left (head?_seq (m := ⟨back, w ++ rest, []⟩) ?_ ?_)
  · rw [maybe, reaches_either_right hno]
    rfl
  · rw [hfewer, List.head?_cons]

theorem first_capitalized (back : List Char) {c : Char} (hc : c.isUpper = true) (hne : w ≠ [])
    (hw : ∀ d ∈ w, d.isLower = true) (hrest : ∀ d ∈ rest.head?, d.isLower = false) :
    wordPattern.first back (c :: (w ++ rest)) = some ⟨w.reverse ++ c :: back, rest, []⟩ := by
  obtain ⟨fewer, hfewer⟩ := reaches_plus [] (c :: back) hne hw hrest
  refine head?_either_left (head?_seq (m := ⟨c :: back, w ++ rest, []⟩) (head?_either_left ?_) ?_)
  · simp [reaches, hc]
  · rw [hfewer, List.head?_cons]

theorem first_digits (hne : w ≠ []) (hw : ∀ c ∈ w, c.isDigit = true) (hrest : ∀ c ∈ rest.head?, c.isDigit = false) :
    wordPattern.first back (w ++ rest) = some ⟨w.reverse ++ back, rest, []⟩ := by
  obtain ⟨fewer, hfewer⟩ := reaches_plus [] back hne hw hrest
  obtain ⟨c, w, rfl⟩ := List.exists_cons_of_ne_nil hne
  have hc := hw c List.mem_cons_self
  have hupper : c.isUpper = false := by grind
  have hlower : c.isLower = false := by grind
  rw [List.cons_append] at hfewer ⊢
  -- neither of the alternatives that begin with a letter fits
  have hacronym : acronym.reaches ⟨back, c :: (w ++ rest), []⟩ = [] :=
    reaches_seq_eq_nil (reaches_plus_eq_nil (by simpa using hupper))
  have hcapital : (one Char.isUpper).reaches ⟨back, c :: (w ++ rest), []⟩ = [] := by simp [reaches, hupper]
  rw [Pattern.first, wordPattern, reaches_either_right (reaches_smallWord_eq_nil hlower fun h => by simp [hupper] at h),
    reaches_either_right hacronym, reaches_either_right hcapital, hfewer, List.head?_cons]

theorem reaches_smallWord_capitals (back : List Char) (hne : w ≠ []) (hw : ∀ c ∈ w, c.isUpper = true)
    (hrest : ∀ c ∈ rest.head?, c.isLower = false) : smallWord.reaches ⟨back, w ++ rest, []⟩ = [] := by
  obtain ⟨c, w, rfl⟩ := List.exists_cons_of_ne_nil hne
  obtain ⟨hc, hw⟩ := List.forall_mem_cons.1 hw
  refine reaches_smallWord_eq_nil (by grind) fun _ => ?_
  cases w with
  | nil => exact hrest
  | cons d w =>
    have hd := hw d List.mem_cons_self
    rintro _ ⟨⟩
    grind

theorem first_capitals (hne : w ≠ []) (hw : ∀ c ∈ w, c.isUpper = true) (hrest : ∀ c ∈ rest.head?, c.isAlpha = false)
    (hspaced : IsSpaced rest) : wordPattern.first back (w ++ rest) = some ⟨w.reverse ++ back, rest, []⟩ := by
  have hrest : ∀ c ∈ rest.head?, c.isUpper = false ∧ c.isLower = false := fun c hc =>
    Bool.or_eq_false_iff.1 (hrest c hc)
  obtain ⟨fewer, hfewer⟩ := reaches_plus [] back hne hw fun c hc => (hrest c hc).1
  have hsmall := reaches_smallWord_capitals back hne hw fun c hc => (hrest c hc).2
  have hlast : (w.reverse ++ back).head?.any isWordChar = true := by
    rw [List.head?_append, List.head?_reverse, List.getLast?_eq_some_getLast hne, Option.some_or, Option.any_some,
      isWordChar, isAlphanum_of_isUpper (hw _ (List.getLast_mem hne)), Bool.true_or]
  -- what stands behind the capitals is a digit, or no part of a word
  have hahead : ∃ t, t ∈ (either (seq (one Char.isUpper) (one Char.isLower))
      (either (one Char.isDigit) (edge isWordChar))).reaches ⟨w.reverse ++ back, rest, []⟩ := by
    cases rest with
    | nil =>
      refine ⟨⟨w.reverse ++ back, [], []⟩, mem_reaches_either.2 (Or.inr (mem_reaches_either.2 (Or.inr ?_)))⟩
      rw [reaches, hlast]
      exact List.mem_singleton_self _
    | cons d rest =>
      rcases hspaced d List.mem_cons_self with hd | rfl
      · have hdigit : d.isDigit = true := by
          obtain ⟨hupper, hlower⟩ := hrest d rfl
          grind
        exact ⟨⟨d :: (w.reverse ++ back), rest, []⟩, mem_reaches_either.2 (Or.inr (mem_reaches_either.2 (Or.inl
          (mem_reaches_one.2 ⟨d, rest, rfl, hdigit, rfl⟩))))⟩
      · refine ⟨⟨w.reverse ++ back, ' ' :: rest, []⟩, mem_reaches_either.2 (Or.inr (mem_reaches_either.2 (Or.inr ?_)))⟩
        rw [reaches, hlast]
        exact List.mem_singleton_self _
  obtain ⟨t, ht⟩ := hahead
  rw [Pattern.first, wordPattern, reaches_either_right hsmall]
  refine head?_either_left (head?_seq (m := ⟨w.reverse ++ back, rest, []⟩) ?_ ?_)
  · rw [hfewer, List.head?_cons]
  · rw [reaches_ahead_of_mem ht, List.head?_cons]

/-- Capitals in front of a small letter give back the last one. -/
theorem first_acronym (back rest : List Char) {a b : Char} (hne : w ≠ []) (hw : ∀ c ∈ w, c.isUpper = true)
    (ha : a.isUpper = true) (hb : b.isLower = true) :
    wordPattern.first back (w ++ a :: b :: rest) = some ⟨w.reverse ++ back, a :: b :: rest, []⟩ := by
  have hupper : b.isUpper = false := by grind
  have hdigit : b.isDigit = false := by grind
  have hlower : a.isLower = false := by grind
  have hstop : ∀ c ∈ (b :: rest).head?, c.isUpper = false := by simpa using hupper
  obtain ⟨fewer, hfewer⟩ := reaches_plus_cons [] back hne hw ha hstop
  have hsmall : smallWord.reaches ⟨back, w ++ a :: b :: rest, []⟩ = [] :=
    reaches_smallWord_capitals back hne hw (by simpa using hlower)
  -- behind all the capitals there is no capital and no digit, and a word goes on
  have hfar : (ahead (either (seq (one Char.isUpper) (one Char.isLower))
      (either (one Char.isDigit) (edge isWordChar)))).reaches ⟨a :: w.reverse ++ back, b :: rest, []⟩ = [] := by
    simp [reaches, hupper, hdigit, isWordChar, isAlphanum_of_isUpper ha, isAlphanum_of_isLower hb]
  have hnear : (⟨b :: a :: (w.reverse ++ back), rest, []⟩ : Spot) ∈ (either (seq (one Char.isUpper) (one Char.isLower))
      (either (one Char.isDigit) (edge isWordChar))).reaches ⟨w.reverse ++ back, a :: b :: rest, []⟩ :=
    mem_reaches_either.2 (Or.inl (by simp [reaches, ha, hb]))
  rw [Pattern.first, wordPattern, reaches_either_right hsmall]
  refine head?_either_left ?_
  rw [acronym, reaches, hfewer, List.flatMap_cons, hfar, List.nil_append, List.flatMap_cons,
    reaches_ahead_of_mem hnear, List.singleton_append, List.head?_cons]

/-- Capitals in front of a small letter: a single one begins a word, and of several the last one does. -/
theorem first_word_capitals {b : Char} (hne : w ≠ []) (hw : ∀ c ∈ w, c.isUpper = true) (hb : b.isLower = true) :
    ∃ v rest', w ++ b :: rest = v ++ rest' ∧ IsBlock Char.isAlphanum kindCut v rest' ∧
      wordPattern.first back (w ++ b :: rest) = some ⟨v.reverse ++ back, rest', []⟩ := by
  -- the search takes all capitals but the last one
  obtain hnil | ⟨u, a, rfl⟩ := w.eq_nil_or_concat'
  · exact absurd hnil hne
  have ha := hw a (by simp)
  cases u with
  | nil =>
    obtain ⟨v, rest', hrest, hv, hstop⟩ := exists_scan Char.isLower (b :: rest)
    have hvne : v ≠ [] := by
      rintro rfl
      obtain rfl : b :: rest = rest' := hrest
      exact Bool.noConfusion ((hstop b rfl).symm.trans hb)
    refine ⟨a :: v, rest', by simp [hrest], ?_, ?_⟩
    · obtain ⟨d, v, rfl⟩ := List.exists_cons_of_ne_nil hvne
      have hd := hv d List.mem_cons_self
      have hjoin := kindCut_small (isAlpha_iff.2 (Or.inl ha)) hd (v ++ rest').head?
      exact .cons (isAlphanum_of_isUpper ha) (isAlphanum_of_isLower hd) hjoin (isBlock_small hvne hv hstop)
    · have hfirst := first_capitalized back ha hvne hv hstop
      simpa [hrest] using hfirst
  | cons c u =>
    -- of several capitals the last one begins the next word
    have hu : ∀ d ∈ c :: u, d.isUpper = true := fun d hd => hw d (List.mem_append_left [a] hd)
    have hune := List.cons_ne_nil c u
    refine ⟨c :: u, a :: b :: rest, by simp, isBlock_capitals hune hu ?_, ?_⟩
    · rintro _ _ ⟨⟩
      exact ⟨by grind, fun _ => by simpa using hb⟩
    · have hfirst := first_acronym back rest hune hu ha hb
      simpa using hfirst

/-- **At a letter or a digit the pattern finds the first block of the text.** -/
theorem first_word (back : List Char) {c : Char} {cs : List Char} (hc : c.isAlphanum = true)
    (hspaced : IsSpaced (c :: cs)) :
    ∃ w rest, c :: cs = w ++ rest ∧ IsBlock Char.isAlphanum kindCut w rest ∧
      wordPattern.first back (c :: cs) = some ⟨w.reverse ++ back, rest, []⟩ := by
  -- the characters of one class from `c` on
  have hrun : ∀ p : Char → Bool, p c = true → ∃ w rest, c :: cs = w ++ rest ∧ w ≠ [] ∧ (∀ d ∈ w, p d = true) ∧
      ∀ d ∈ rest.head?, p d = false := by
    intro p hp
    obtain ⟨w, rest, hcs, hw, hrest⟩ := exists_scan p (c :: cs)
    refine ⟨w, rest, hcs, ?_, hw, hrest⟩
    rintro rfl
    obtain rfl : c :: cs = rest := hcs
    exact Bool.noConfusion ((hrest c rfl).symm.trans hp)
  -- a capital, a small letter or a digit decides which alternative is tried
  have hkind : c.isUpper = true ∨ c.isLower = true ∨ c.isDigit = true := by grind
  rcases hkind with hupper | hlower | hdigit
  · obtain ⟨w, rest, hcs, hne, hw, hrest⟩ := hrun Char.isUpper hupper
    rw [hcs] at hspaced ⊢
    by_cases hsmall : ∃ b after, rest = b :: after ∧ b.isLower = true
    · obtain ⟨b, after, rfl, hb⟩ := hsmall
      exact first_word_capitals hne hw hb
    · have hletter : ∀ d ∈ rest.head?, d.isAlpha = false := by
        intro d hd
        obtain ⟨after, rfl⟩ := List.head?_eq_some_iff.1 hd
        refine Bool.or_eq_false_iff.2 ⟨hrest d rfl, Bool.eq_false_iff.2 fun h => hsmall ⟨d, after, rfl, h⟩⟩
      refine ⟨w, rest, rfl, isBlock_capitals hne hw ?_, first_capitals hne hw hletter fun d hd => ?_⟩
      · rintro d after rfl
        obtain ⟨hupper, hlower⟩ := Bool.or_eq_false_iff.1 (hletter d rfl)
        exact ⟨hlower, fun h => Bool.noConfusion (hupper.symm.trans h)⟩
      · exact hspaced d (List.mem_append_right w hd)
  · obtain ⟨w, rest, hcs, hne, hw, hrest⟩ := hrun Char.isLower hlower
    exact ⟨w, rest, hcs, isBlock_small hne hw hrest, by rw [hcs]; exact first_small hne hw hrest⟩
  · obtain ⟨w, rest, hcs, hne, hw, hrest⟩ := hrun Char.isDigit hdigit
    exact ⟨w, rest, hcs, isBlock_digits hne hw hrest, by rw [hcs]; exact first_digits hne hw hrest⟩

/-! ## All the words -/

theorem first_blank : wordPattern.first back (' ' :: cs) = none := by
  have hsmall : smallWord.reaches ⟨back, ' ' :: cs, []⟩ = [] := reaches_smallWord_eq_nil rfl nofun
  have hacronym : acronym.reaches ⟨back, ' ' :: cs, []⟩ = [] := reaches_seq_eq_nil (reaches_plus_eq_nil (by simp))
  rw [first_eq_none_iff, wordPattern, reaches_either_right hsmall, reaches_either_right hacronym]
  exact List.append_eq_nil_iff.2 ⟨rfl, reaches_plus_eq_nil (by simp)⟩

/-- The words that the search meets are the blocks of the text. -/
theorem found_wordPattern {pieces : List Piece} (h : Scans wordPattern back cs pieces) (hspaced : IsSpaced cs) :
    pieces.flatMap Piece.found = blocks Char.isAlphanum kindCut cs := by
  induction h with
  | nil => rfl
  | @hit back w rest groups pieces hne hfirst h ih =>
    obtain ⟨c, w, rfl⟩ := List.exists_cons_of_ne_nil hne
    -- a match begins with a letter or a digit, and then it is the next block
    have hc : c.isAlphanum = true := by
      refine (hspaced c List.mem_cons_self).resolve_right ?_
      rintro rfl
      rw [List.cons_append, first_blank] at hfirst
      cases hfirst
    rw [List.cons_append] at hspaced
    obtain ⟨v, rest', hcs, hblock, hfirst'⟩ := first_word back hc hspaced
    rw [← List.cons_append] at hcs hfirst' hspaced
    obtain ⟨-, rfl, -⟩ := Spot.mk.inj (Option.some.inj (hfirst.symm.trans hfirst'))
    obtain rfl := List.append_cancel_right hcs
    rw [List.flatMap_cons, ih fun d hd => hspaced d (List.mem_append_right _ hd), hblock.blocks_eq]
    rfl
  | @plain back cs c pieces hnone h ih =>
    have hc : c.isAlphanum = false := by
      refine Bool.eq_false_iff.2 fun hc => ?_
      obtain ⟨v, rest', -, -, hfirst⟩ := first_word back hc hspaced
      cases hnone.symm.trans hfirst
    rw [List.flatMap_cons, ih fun d hd => hspaced d (List.mem_cons_of_mem c hd), blocks_cons_of_neg hc]
    rfl

theorem isSpaced_map_letterOr (cs : List Char) : IsSpaced (cs.map (letterOr ' ')) := by
  intro c hc
  obtain ⟨d, -, rfl⟩ := List.mem_map.1 hc
  unfold letterOr
  split
  · exact Or.inl ‹_›
  · exact Or.inr rfl

theorem isLower_letterOr (c : Char) : (letterOr ' ' c).isLower = c.isLower := by
  unfold letterOr
  split
  · rfl
  · rename_i hc
    exact (Bool.eq_false_iff.2 fun h => hc (isAlphanum_of_isLower h)).symm

/-- **The words that the pattern finds in a text are its blocks of letters and digits, cut where the kind changes.** -/
theorem camelWords_eq_blocks (cs : List Char) : camelWords cs = blocks Char.isAlphanum kindCut cs := by
  have hspaced := isSpaced_map_letterOr cs
  have hblanks : foreign.replace (fun _ => [' ']) cs = cs.map (letterOr ' ') :=
    written_foreign ' ' (scans_pieces rfl [] cs)
  have hcut : ∀ x y next, x.isAlphanum = true → y.isAlphanum = true →
      kindCut x y (next.map (letterOr ' ')) = kindCut x y next := by
    rintro x y (_ | n) - -
    · rfl
    · simp only [kindCut, caseCut, Option.map_some, Option.any_some, isLower_letterOr]
  rw [camelWords, hblanks, findAll, found_wordPattern (scans_pieces rfl [] _) hspaced]
  exact blocks_map (isAlphanum_letterOr rfl) (fun c hc => if_pos hc) hcut cs

end CrudScaffold.Naming
