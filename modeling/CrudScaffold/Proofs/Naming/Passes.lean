import CrudScaffold.Proofs.Naming.Blocks
import CrudScaffold.Proofs.Text.Patterns

/-!
# CrudScaffold.Proofs.Naming.Passes — what the passes of the snake-case form come to

Each pass is described by a plain function of the text that it is given.  The first two put an underscore wherever a cut
rule applies, and the second does not undo the first (`withCuts_withCuts`).  The third puts an underscore in the place of
every character that is neither a letter nor a digit.  The last two leave one underscore of several, and none at the
ends.  Together they give the words of the text with an underscore between them (`underscored_eq`).
-/

namespace CrudScaffold.Naming

open CrudScaffold.Text CrudScaffold.Text.Pattern

/-! ## Definitions -/

/-- The first part of `caseCut`: the last capital of a run, in front of a small letter. -/
def acronymCut (x y : Char) (next : Option Char) : Bool := x.isUpper && y.isUpper && next.any Char.isLower

/-- The second part of `caseCut`: a capital after a small letter or a digit. -/
def lowCut (x y : Char) (_ : Option Char) : Bool := isLowerOrDigit x && y.isUpper

/-- A text with an underscore in each place where the cut rule applies. -/
def withCuts (cut : Char → Char → Option Char → Bool) : List Char → List Char
  | [] => []
  | [c] => [c]
  | c :: d :: after =>
    if cut c d after.head? then c :: '_' :: withCuts cut (d :: after) else c :: withCuts cut (d :: after)

/-- A letter or a digit, or the character that stands for all others. -/
def letterOr (x c : Char) : Char := if c.isAlphanum then c else x

/-- A text without the underscores that stand in front of another one. -/
def squeezed : List Char → List Char
  | [] => []
  | [c] => [c]
  | c :: d :: after =>
    if isUnderscore c && isUnderscore d then squeezed (d :: after) else c :: squeezed (d :: after)

/-- A text without the underscores at its end. -/
def unended : List Char → List Char
  | [] => []
  | c :: cs => if (c :: cs).all isUnderscore then [] else c :: unended cs

/-- The blocks of letters and digits in a text. -/
def letterBlocks (cs : List Char) : List (List Char) := blocks Char.isAlphanum (fun _ _ _ => false) cs

variable {cut : Char → Char → Option Char → Bool} {back cs w rest : List Char} {groups : List (List Char)} {t : Spot}

/-! ## Cuts -/

theorem caseCut_eq (x y : Char) (next : Option Char) : caseCut x y next = (acronymCut x y next || lowCut x y next) := by
  rw [caseCut, acronymCut, lowCut, isLowerOrDigit]
  cases x.isLower <;> cases x.isDigit <;> cases x.isUpper <;> cases y.isUpper <;> simp

theorem exists_withCuts_cons (cut : Char → Char → Option Char → Bool) (c : Char) (cs : List Char) :
    ∃ more, withCuts cut (c :: cs) = c :: more := by
  cases cs with
  | nil => exact ⟨[], rfl⟩
  | cons d after =>
    unfold withCuts
    split
    · exact ⟨_, rfl⟩
    · exact ⟨_, rfl⟩

theorem withCuts_cons {c : Char} (h : ∀ d after, cs = d :: after → cut c d after.head? = false) :
    withCuts cut (c :: cs) = c :: withCuts cut cs := by
  cases cs with
  | nil => rfl
  | cons d after => exact if_neg (by simp [h d after rfl])

/-- The second pass leaves the cuts of the first one alone. -/
theorem withCuts_withCuts (cs : List Char) : withCuts lowCut (withCuts acronymCut cs) = withCuts caseCut cs := by
  induction cs with
  | nil => rfl
  | cons c cs ih =>
    cases cs with
    | nil => rfl
    | cons d after =>
    obtain ⟨more, hmore⟩ := exists_withCuts_cons acronymCut d after
    rw [hmore] at ih
    rw [withCuts, withCuts, caseCut_eq, ← ih, hmore]
    -- an underscore is neither a small letter nor a digit nor a capital
    have hbefore : lowCut c '_' (some d) = false := by simp [lowCut]
    have hbehind : lowCut '_' d more.head? = false := rfl
    have hnext : lowCut c d more.head? = lowCut c d after.head? := rfl
    cases hacronym : acronymCut c d after.head? with
    | true => simp [withCuts, hbefore, hbehind]
    | false => simp [withCuts, hnext]

/-! ## The passes -/

section Passes

theorem mem_reaches_acronymEnd : t ∈ acronymEnd.reaches ⟨back, cs, []⟩ ↔ ∃ u a b rest, cs = u ++ a :: b :: rest ∧
    u ≠ [] ∧ (∀ c ∈ u, c.isUpper = true) ∧ a.isUpper = true ∧ b.isLower = true ∧
      t = ⟨b :: a :: (u.reverse ++ back), rest, [u, [a, b]]⟩ := by
  simp only [acronymEnd, mem_reaches_seq, mem_reaches_group, mem_reaches_plus, mem_reaches_one]
  constructor
  · rintro ⟨_, ⟨_, ⟨u, cs', hcs, hne, hu, rfl⟩, v, hv, rfl⟩, _, ⟨_, ⟨a, cs'', ha', ha, rfl⟩, b, rest, hb', hb, rfl⟩,
      v', hv', rfl⟩
    simp only at *
    subst hb' ha' hcs
    obtain rfl := List.append_cancel_right hv
    obtain rfl : [a, b] = v' := List.append_cancel_right (hv' : [a, b] ++ rest = v' ++ rest)
    exact ⟨u, a, b, rest, rfl, hne, hu, ha, hb, rfl⟩
  · rintro ⟨u, a, b, rest, rfl, hne, hu, ha, hb, rfl⟩
    exact ⟨_, ⟨_, ⟨u, a :: b :: rest, rfl, hne, hu, rfl⟩, u, rfl, rfl⟩, _, ⟨_, ⟨a, b :: rest, rfl, ha, rfl⟩, b, rest, rfl,
      hb, rfl⟩, [a, b], rfl, rfl⟩

theorem mem_reaches_wordEnd : t ∈ wordEnd.reaches ⟨back, cs, []⟩ ↔ ∃ a b rest, cs = a :: b :: rest ∧
    isLowerOrDigit a = true ∧ b.isUpper = true ∧ t = ⟨b :: a :: back, rest, [[a], [b]]⟩ := by
  simp only [wordEnd, mem_reaches_seq, mem_reaches_group, mem_reaches_one]
  constructor
  · rintro ⟨_, ⟨_, ⟨a, cs', hcs, ha, rfl⟩, v, hv, rfl⟩, _, ⟨b, rest, hb', hb, rfl⟩, v', hv', rfl⟩
    simp only at *
    subst hb' hcs
    obtain rfl : [a] = v := List.append_cancel_right (hv : [a] ++ b :: rest = v ++ b :: rest)
    obtain rfl : [b] = v' := List.append_cancel_right (hv' : [b] ++ rest = v' ++ rest)
    exact ⟨a, b, rest, rfl, ha, hb, rfl⟩
  · rintro ⟨a, b, rest, rfl, ha, hb, rfl⟩
    exact ⟨_, ⟨_, ⟨a, b :: rest, rfl, ha, rfl⟩, [a], rfl, rfl⟩, _, ⟨b, rest, rfl, hb, rfl⟩, [b], rfl, rfl⟩

/-- Among capitals there is no cut but in front of the last one. -/
theorem withCuts_acronym {u : List Char} {a b : Char} (hne : u ≠ []) (hu : ∀ c ∈ u, c.isUpper = true)
    (ha : a.isUpper = true) (hb : b.isLower = true) (rest : List Char) :
    withCuts acronymCut (u ++ a :: b :: rest) = u ++ '_' :: a :: b :: withCuts acronymCut rest := by
  have hb' : b.isUpper = false := by grind
  -- the induction is on the capitals; the cut stands in front of the last one
  induction u with
  | nil => exact absurd rfl hne
  | cons c u ih =>
    obtain ⟨hc, hu⟩ := List.forall_mem_cons.1 hu
    cases u with
    | nil =>
      have hlast : withCuts acronymCut (a :: b :: rest) = a :: b :: withCuts acronymCut rest := by
        rw [withCuts_cons, withCuts_cons]
        · simp [acronymCut, hb']
        · simp [acronymCut, hb']
      have hcut : acronymCut c a (some b) = true := by simp [acronymCut, hc, ha, hb]
      rw [List.singleton_append, withCuts, List.head?_cons, if_pos hcut, hlast, List.singleton_append]
    | cons d u =>
      have ih := ih (List.cons_ne_nil d u) hu
      rw [List.cons_append] at ih
      rw [List.cons_append, List.cons_append, withCuts_cons, ih]
      · rfl
      · intro d' after heq
        obtain ⟨rfl, rfl⟩ := List.cons_eq_cons.1 heq
        -- in front of a capital, capitals are not cut
        have hnext : ∀ e ∈ (u ++ a :: b :: rest).head?, e.isUpper = true := by
          cases u with
          | nil => simpa using ha
          | cons e u => simpa using hu e (by simp)
        cases hhead : (u ++ a :: b :: rest).head? with
        | none => simp [acronymCut]
        | some e =>
          have he := hnext e hhead
          have he' : e.isLower = false := by grind
          simp [acronymCut, he']

theorem written_acronymEnd {pieces : List Piece} (h : Scans acronymEnd back cs pieces) :
    pieces.flatMap (Piece.written parted) = withCuts acronymCut cs := by
  -- a hit is an acronym with the head of a word behind it; anywhere else nothing is cut
  induction h with
  | nil => rfl
  | @hit back w rest groups pieces _ hfirst h ih =>
    obtain ⟨u, a, b, rest', hcs, hne, hu, ha, hb, heq⟩ := mem_reaches_acronymEnd.1 (mem_of_first hfirst)
    obtain ⟨-, rfl, rfl⟩ := Spot.mk.inj heq
    rw [List.flatMap_cons, ih, hcs, withCuts_acronym hne hu ha hb]
    simp [Piece.written, parted, List.intercalate_cons_cons]
  | @plain back cs c pieces hnone h ih =>
    rw [List.flatMap_cons, ih, withCuts_cons]
    · rfl
    · -- a cut here would have been a hit
      intro d after hcs
      refine Bool.eq_false_iff.2 fun hcut => ?_
      cases after with
      | nil => simp [acronymCut] at hcut
      | cons e after =>
        simp only [acronymCut, List.head?_cons, Option.any_some, Bool.and_eq_true] at hcut
        obtain ⟨⟨hc, hd⟩, he⟩ := hcut
        exact not_mem_of_first hnone _ (mem_reaches_acronymEnd.2
          ⟨[c], d, e, after, by rw [hcs]; rfl, by simp, by simpa using hc, hd, he, rfl⟩)

theorem written_wordEnd {pieces : List Piece} (h : Scans wordEnd back cs pieces) :
    pieces.flatMap (Piece.written parted) = withCuts lowCut cs := by
  -- a hit is a small letter or a digit, with a capital behind it
  induction h with
  | nil => rfl
  | @hit back w rest groups pieces _ hfirst h ih =>
    obtain ⟨a, b, rest', hcs, ha, hb, heq⟩ := mem_reaches_wordEnd.1 (mem_of_first hfirst)
    obtain ⟨-, rfl, rfl⟩ := Spot.mk.inj heq
    have hb' : isLowerOrDigit b = false := by
      rw [isLowerOrDigit, Bool.or_eq_false_iff]
      grind
    have hbehind : withCuts lowCut (b :: rest) = b :: withCuts lowCut rest :=
      withCuts_cons fun d after _ => by rw [lowCut, hb', Bool.false_and]
    have hcut : ∀ next, lowCut a b next = true := fun _ => by rw [lowCut, ha, hb, Bool.true_and]
    rw [List.flatMap_cons, ih, hcs, withCuts, if_pos (hcut _), hbehind]
    simp [Piece.written, parted, List.intercalate_cons_cons]
  | @plain back cs c pieces hnone h ih =>
    rw [List.flatMap_cons, ih, withCuts_cons]
    · rfl
    · -- a cut here would have been a hit
      rintro d after rfl
      refine Bool.eq_false_iff.2 fun hcut => ?_
      obtain ⟨hc, hd⟩ := Bool.and_eq_true_iff.1 hcut
      exact not_mem_of_first hnone _ (mem_reaches_wordEnd.2 ⟨c, d, after, rfl, hc, hd, rfl⟩)

theorem written_foreign (x : Char) {pieces : List Piece} (h : Scans foreign back cs pieces) :
    pieces.flatMap (Piece.written fun _ => [x]) = cs.map (letterOr x) := by
  induction h with
  | nil => rfl
  | @hit back w rest groups pieces _ hfirst h ih =>
    obtain ⟨c, rest', hcs, hc, heq⟩ := mem_reaches_one.1 (mem_of_first hfirst)
    obtain ⟨-, rfl, -⟩ := Spot.mk.inj heq
    have hcs : w ++ rest = c :: rest := hcs
    have hc : c.isAlphanum = false := by simpa using hc
    rw [List.flatMap_cons, ih, hcs, List.map_cons, letterOr, hc]
    rfl
  | @plain back cs c pieces hnone h ih =>
    -- a letter that is passed over is no hit
    have hc : c.isAlphanum = true := by
      by_contra hc
      exact not_mem_of_first hnone _ (mem_reaches_one.2 ⟨c, cs, rfl, by simpa using hc, rfl⟩)
    rw [List.flatMap_cons, ih, List.map_cons, letterOr, if_pos hc]
    rfl

/-! ### Underscores -/

theorem isUnderscore_iff {c : Char} : isUnderscore c = true ↔ c = '_' := beq_iff_eq

/-- Underscores in a row come down to one. -/
theorem squeezed_append (hne : w ≠ []) (hw : ∀ c ∈ w, isUnderscore c = true)
    (hrest : ∀ c ∈ rest.head?, isUnderscore c = false) : squeezed (w ++ rest) = '_' :: squeezed rest := by
  induction w with
  | nil => exact absurd rfl hne
  | cons c w ih =>
    obtain ⟨hc, htail⟩ := List.forall_mem_cons.1 hw
    cases w with
    | nil =>
      rw [isUnderscore_iff.1 hc]
      cases rest with
      | nil => rfl
      | cons d rest => simp [squeezed, hrest d rfl]
    | cons d w =>
      have ih := ih (List.cons_ne_nil d w) htail
      rw [List.cons_append] at ih
      rw [List.cons_append, List.cons_append, squeezed, hc, htail d List.mem_cons_self, ih]
      rfl

theorem squeezed_cons {c : Char} (h : ∀ d after, cs = d :: after → (isUnderscore c && isUnderscore d) = false) :
    squeezed (c :: cs) = c :: squeezed cs := by
  cases cs with
  | nil => rfl
  | cons d after => exact if_neg (by simp [h d after rfl])

theorem mem_reaches_manyUnderscores : t ∈ manyUnderscores.reaches ⟨back, cs, []⟩ ↔ ∃ c w rest, cs = c :: w ++ rest ∧
    w ≠ [] ∧ (∀ d ∈ c :: w, isUnderscore d = true) ∧ t = ⟨(c :: w).reverse ++ back, rest, []⟩ := by
  simp only [manyUnderscores, mem_reaches_seq, mem_reaches_one, mem_reaches_plus]
  constructor
  · rintro ⟨_, ⟨c, cs', rfl, hc, rfl⟩, w, rest, hcs, hne, hw, rfl⟩
    simp only at hcs
    subst hcs
    exact ⟨c, w, rest, rfl, hne, List.forall_mem_cons.2 ⟨hc, hw⟩, by simp⟩
  · rintro ⟨c, w, rest, rfl, hne, hw, rfl⟩
    obtain ⟨hc, hw⟩ := List.forall_mem_cons.1 hw
    exact ⟨_, ⟨c, w ++ rest, rfl, hc, rfl⟩, w, rest, rfl, hne, hw, by simp⟩

theorem first_manyUnderscores (back : List Char) {c : Char} (hne : w ≠ []) (hw : ∀ d ∈ c :: w, isUnderscore d = true)
    (hrest : ∀ d ∈ rest.head?, isUnderscore d = false) :
    manyUnderscores.first back (c :: w ++ rest) = some ⟨(c :: w).reverse ++ back, rest, []⟩ := by
  obtain ⟨hc, hw⟩ := List.forall_mem_cons.1 hw
  obtain ⟨fewer, hfewer⟩ := reaches_plus [] (c :: back) hne hw hrest
  simp [Pattern.first, manyUnderscores, reaches, hc, hfewer]

theorem written_manyUnderscores {pieces : List Piece} (h : Scans manyUnderscores back cs pieces) :
    pieces.flatMap (Piece.written fun _ => ['_']) = squeezed cs := by
  induction h with
  | nil => rfl
  | @hit back w rest groups pieces hne hfirst h ih =>
    obtain ⟨c, v, rest', hcs, hv, hall, heq⟩ := mem_reaches_manyUnderscores.1 (mem_of_first hfirst)
    obtain ⟨-, rfl, -⟩ := Spot.mk.inj heq
    obtain rfl := List.append_cancel_right hcs
    -- all underscores that follow are in the match, too
    obtain ⟨more, rest', hrest, hmore, hend⟩ := exists_scan isUnderscore rest
    have hvmore : v ++ more ≠ [] := by simp [hv]
    have hallmore : ∀ d ∈ c :: (v ++ more), isUnderscore d = true := by
      rw [← List.cons_append]
      exact List.forall_mem_append.2 ⟨hall, hmore⟩
    have hlongest := first_manyUnderscores back hvmore hallmore hend
    rw [← List.cons_append, List.append_assoc, ← hrest, hfirst] at hlongest
    obtain ⟨-, rfl, -⟩ := Spot.mk.inj (Option.some.inj hlongest)
    rw [List.flatMap_cons, ih, squeezed_append hne hall hend]
    rfl
  -- two underscores here would have been a hit
  | @plain back cs c pieces hnone h ih =>
    rw [List.flatMap_cons, ih, squeezed_cons]
    · rfl
    · rintro d after rfl
      refine Bool.eq_false_iff.2 fun hboth => ?_
      obtain ⟨hc, hd⟩ := Bool.and_eq_true_iff.1 hboth
      have hall : ∀ e ∈ [c, d], isUnderscore e = true := List.forall_mem_cons.2 ⟨hc, by simpa using hd⟩
      exact not_mem_of_first hnone _ (mem_reaches_manyUnderscores.2 ⟨c, [d], after, rfl, by simp, hall, rfl⟩)

theorem mem_reaches_outerUnderscores : t ∈ outerUnderscores.reaches ⟨back, cs, []⟩ ↔ ∃ w rest, cs = w ++ rest ∧
    w ≠ [] ∧ (∀ c ∈ w, isUnderscore c = true) ∧ (back = [] ∨ rest = [] ∨ rest = ['\n']) ∧
      t = ⟨w.reverse ++ back, rest, []⟩ := by
  simp only [outerUnderscores, mem_reaches_either, mem_reaches_seq, mem_reaches_plus]
  constructor
  · -- the underscores stand at the start, or at the end
    rintro (⟨m, hm, w, rest, hcs, hne, hw, rfl⟩ | ⟨_, ⟨w, rest, hcs, hne, hw, rfl⟩, ht⟩)
    · cases back with
      | nil =>
        obtain rfl := List.mem_singleton.1 hm
        exact ⟨w, rest, hcs, hne, hw, Or.inl rfl, rfl⟩
      | cons c back => cases hm
    · simp only [reaches] at ht
      split at ht
      · rename_i hend
        obtain rfl := List.mem_singleton.1 ht
        exact ⟨w, rest, hcs, hne, hw, Or.inr hend, rfl⟩
      · cases ht
  · rintro ⟨w, rest, hcs, hne, hw, rfl | hend, rfl⟩
    · exact Or.inl ⟨_, List.mem_singleton.2 rfl, w, rest, hcs, hne, hw, rfl⟩
    · exact Or.inr ⟨_, ⟨w, rest, hcs, hne, hw, rfl⟩, by simp only [reaches, if_pos hend, List.mem_singleton]⟩

theorem first_outerUnderscores (hne : w ≠ []) (hw : ∀ c ∈ w, isUnderscore c = true)
    (hrest : ∀ c ∈ rest.head?, isUnderscore c = false) :
    outerUnderscores.first [] (w ++ rest) = some ⟨w.reverse ++ [], rest, []⟩ := by
  obtain ⟨fewer, hfewer⟩ := reaches_plus [] [] hne hw hrest
  simp [Pattern.first, outerUnderscores, reaches, hfewer]

theorem dropWhile_of_first_outerUnderscores (hne : w ≠ []) (hw : ∀ c ∈ w, isUnderscore c = true)
    (hfirst : outerUnderscores.first [] (w ++ rest) = some ⟨w.reverse ++ [], rest, groups⟩) :
    (w ++ rest).dropWhile isUnderscore = rest := by
  obtain ⟨more, rest', hrest, hmore, hend⟩ := exists_scan isUnderscore rest
  have hwmore : w ++ more ≠ [] := by simp [hne]
  have hlongest := first_outerUnderscores hwmore (List.forall_mem_append.2 ⟨hw, hmore⟩) hend
  rw [List.append_assoc, ← hrest, hfirst] at hlongest
  obtain ⟨-, rfl, -⟩ := Spot.mk.inj (Option.some.inj hlongest)
  exact (takeWhile_append_stop hw hend).2

theorem not_outer_of_first (hnone : outerUnderscores.first back (w ++ rest) = none) (hne : w ≠ [])
    (hw : ∀ c ∈ w, isUnderscore c = true) : ¬ (back = [] ∨ rest = [] ∨ rest = ['\n']) :=
  fun hplace => not_mem_of_first hnone _ (mem_reaches_outerUnderscores.2 ⟨w, rest, rfl, hne, hw, hplace, rfl⟩)

theorem unended_of_all (h : ∀ c ∈ cs, isUnderscore c = true) : unended cs = [] := by
  cases cs with
  | nil => rfl
  | cons c cs => exact if_pos (List.all_eq_true.2 h)

theorem unended_cons {c d : Char} (hd : d ∈ c :: cs) (h : isUnderscore d = false) :
    unended (c :: cs) = c :: unended cs := by
  refine if_neg fun hall => ?_
  rw [List.all_eq_true.1 hall d hd] at h
  cases h

theorem written_outerUnderscores {pieces : List Piece} (h : Scans outerUnderscores back cs pieces)
    (hline : ∀ c ∈ cs, c ≠ '\n') : pieces.flatMap (Piece.written fun _ => []) =
      unended (if back = [] then cs.dropWhile isUnderscore else cs) := by
  induction h with
  | nil => split <;> rfl
  | @hit back w rest groups pieces hne hfirst h ih =>
    obtain ⟨v, rest', hcs, -, hall, hplace, heq⟩ := mem_reaches_outerUnderscores.1 (mem_of_first hfirst)
    obtain ⟨-, rfl, -⟩ := Spot.mk.inj heq
    obtain rfl := List.append_cancel_right hcs
    have ih := ih fun c hc => hline c (List.mem_append_right _ hc)
    rw [if_neg (by simpa using fun h => absurd h hne)] at ih
    rw [List.flatMap_cons, ih, Piece.written, List.nil_append]
    -- at the start all of them are taken, and then those at the end
    by_cases hstart : back = []
    · subst hstart
      rw [if_pos rfl, dropWhile_of_first_outerUnderscores hne hall hfirst]
    · -- behind the start, only underscores at the end are taken
      have hrest : rest = [] := by
        rcases hplace with hplace | hplace | hplace
        · exact absurd hplace hstart
        · exact hplace
        · exact absurd rfl (hline '\n' (by simp [hplace]))
      rw [if_neg hstart, hrest, List.append_nil, unended_of_all hall]
      rfl
  | @plain back cs c pieces hnone h ih =>
    have ih := ih fun d hd => hline d (List.mem_cons_of_mem c hd)
    rw [if_neg (List.cons_ne_nil c back)] at ih
    rw [List.flatMap_cons, ih, Piece.written, List.singleton_append]
    -- what is passed over is no underscore at the start, and not followed by underscores only
    split
    · rename_i hstart
      have hc : isUnderscore c = false := Bool.eq_false_iff.2 fun hc =>
        not_outer_of_first (w := [c]) hnone (by simp) (by simpa using hc) (Or.inl hstart)
      rw [List.dropWhile_cons, hc]
      exact (unended_cons List.mem_cons_self hc).symm
    · have hsome : ¬ ∀ d ∈ c :: cs, isUnderscore d = true := fun hall =>
        not_outer_of_first (by rwa [List.append_nil]) (by simp) hall (Or.inr (Or.inl rfl))
      obtain ⟨d, hd⟩ := not_forall.1 hsome
      obtain ⟨hd, hother⟩ := Classical.not_imp.1 hd
      exact (unended_cons hd (Bool.eq_false_iff.2 hother)).symm

end Passes

/-! ## Words -/

/-- The text is made of letters, digits and underscores. -/
def IsPlain (cs : List Char) : Prop := ∀ c ∈ cs, c.isAlphanum = true ∨ isUnderscore c = true

theorem not_isUnderscore {c : Char} (h : c.isAlphanum = true) : isUnderscore c = false := by
  refine Bool.eq_false_iff.2 fun hunder => ?_
  rw [isUnderscore_iff.1 hunder] at h
  cases h

theorem not_isAlphanum {c : Char} (h : isUnderscore c = true) : c.isAlphanum = false := by
  rw [isUnderscore_iff.1 h]
  rfl

theorem IsPlain.ne_line (h : IsPlain cs) : ∀ c ∈ cs, c ≠ '\n' := by
  rintro c hc rfl
  rcases h _ hc with h | h
  · cases h
  · cases h

theorem mem_of_mem_squeezed {c : Char} (h : c ∈ squeezed cs) : c ∈ cs := by
  induction cs with
  | nil => exact h
  | cons d cs ih =>
    cases cs with
    | nil => exact h
    | cons e after =>
      unfold squeezed at h
      split at h
      · exact List.mem_cons_of_mem d (ih h)
      · rcases List.mem_cons.1 h with rfl | h
        · exact List.mem_cons_self
        · exact List.mem_cons_of_mem d (ih h)

theorem dropWhile_squeezed (cs : List Char) :
    (squeezed cs).dropWhile isUnderscore = squeezed (cs.dropWhile isUnderscore) := by
  induction cs with
  | nil => rfl
  | cons c cs ih =>
    -- underscores at the start are one underscore, and then none
    cases hc : isUnderscore c with
    | false =>
      rw [List.dropWhile_cons, hc, squeezed_cons fun d after _ => by rw [hc, Bool.false_and], List.dropWhile_cons, hc]
      simp only [Bool.false_eq_true, if_false]
      exact (squeezed_cons fun d after _ => by rw [hc, Bool.false_and]).symm
    | true =>
      rw [List.dropWhile_cons_of_pos hc, ← ih]
      cases cs with
      | nil => exact List.dropWhile_cons_of_pos hc
      | cons d after =>
        cases hd : isUnderscore d with
        | false => rw [squeezed, hc, hd, Bool.and_false, if_neg Bool.false_ne_true, List.dropWhile_cons_of_pos hc]
        | true => rw [squeezed, hc, hd, Bool.and_self, if_pos rfl]

theorem isPlain_map_letterOr (cs : List Char) : IsPlain (cs.map (letterOr '_')) := by
  intro c hc
  obtain ⟨d, -, rfl⟩ := List.mem_map.1 hc
  unfold letterOr
  split
  · exact Or.inl ‹_›
  · exact Or.inr rfl

theorem isAlphanum_letterOr {x : Char} (hx : x.isAlphanum = false) (c : Char) :
    (letterOr x c).isAlphanum = c.isAlphanum := by
  unfold letterOr
  split
  · rfl
  · rename_i hc
    rw [hx, Bool.eq_false_iff.2 hc]

theorem letterBlocks_cons_cons {c d : Char} (hc : c.isAlphanum = true) (hd : d.isAlphanum = true) (after : List Char) :
    ∃ w ws, letterBlocks (d :: after) = w :: ws ∧ letterBlocks (c :: d :: after) = (c :: w) :: ws := by
  cases hblocks : letterBlocks (d :: after) with
  | nil => exact absurd (blocks_eq_nil_iff.1 hblocks d List.mem_cons_self) (by simp [hd])
  | cons w ws =>
    refine ⟨w, ws, rfl, ?_⟩
    rw [letterBlocks] at hblocks ⊢
    rw [blocks_cons_cons hc, hblocks]
    simp [hd]

theorem letterBlocks_cons_foreign {c d : Char} (hc : c.isAlphanum = true) (hd : d.isAlphanum = false)
    (after : List Char) : letterBlocks (c :: d :: after) = [c] :: letterBlocks (d :: after) := by
  rw [letterBlocks, blocks_cons_cons hc, letterBlocks]
  cases blocks Char.isAlphanum (fun _ _ _ => false) (d :: after) <;> simp [hd]

/-- In a text of letters, digits and single underscores, what stands in front of the underscores at the end is its
blocks joined, behind an underscore if there is one at the start. -/
theorem unended_squeezed (h : IsPlain cs) : unended (squeezed cs) =
    (if cs.head?.any isUnderscore && !(letterBlocks cs).isEmpty then ['_'] else []) ++
      ['_'].intercalate (letterBlocks cs) := by
  induction cs with
  | nil => rfl
  | cons c cs ih =>
    obtain ⟨hc, hcs⟩ := List.forall_mem_cons.1 h
    have ih := ih hcs
    -- behind a letter the block goes on or an underscore follows; an underscore waits for the next block
    by_cases hletter : c.isAlphanum = true
    · have hunder := not_isUnderscore hletter
      have hsqueezed : squeezed (c :: cs) = c :: squeezed cs := squeezed_cons fun d after _ => by
        rw [hunder, Bool.false_and]
      rw [hsqueezed, unended_cons List.mem_cons_self hunder, ih, List.head?_cons, Option.any_some, hunder]
      cases cs with
      | nil => simp [letterBlocks, blocks, hletter]
      | cons d after =>
        by_cases hd : d.isAlphanum = true
        · obtain ⟨w, ws, hrest, hall⟩ := letterBlocks_cons_cons hletter hd after
          rw [hrest, hall]
          cases ws <;> simp [not_isUnderscore hd, List.intercalate_cons_cons]
        · have hd' := (hcs d List.mem_cons_self).resolve_left hd
          rw [letterBlocks_cons_foreign hletter (Bool.eq_false_iff.2 hd)]
          cases letterBlocks (d :: after) <;> simp [hd', List.intercalate_cons_cons]
    · have hunder := hc.resolve_left hletter
      have hletter := Bool.eq_false_iff.2 hletter
      have hblocks : letterBlocks (c :: cs) = letterBlocks cs := blocks_cons_of_neg hletter cs
      rw [hblocks, List.head?_cons, Option.any_some, hunder]
      cases cs with
      | nil => simp [squeezed, unended, hunder, letterBlocks, blocks]
      | cons d after =>
        by_cases hd : d.isAlphanum = true
        · have hd' := not_isUnderscore hd
          have hmem : d ∈ '_' :: squeezed (d :: after) := by
            rw [squeezed_cons fun e after _ => by rw [hd', Bool.false_and]]
            simp
          have hsome : letterBlocks (d :: after) ≠ [] := fun hnil => by
            simp [blocks_eq_nil_iff.1 hnil d List.mem_cons_self] at hd
          rw [squeezed, hunder, hd', Bool.and_false, if_neg Bool.false_ne_true, isUnderscore_iff.1 hunder,
            unended_cons hmem hd', ih]
          simp [hd', hsome]
        · have hd' := (hcs d List.mem_cons_self).resolve_left hd
          rw [squeezed, hunder, hd', Bool.and_self, if_pos rfl, ih]
          simp [hd']

/-- The last two passes join the blocks of a text. -/
theorem unended_dropWhile_squeezed (h : IsPlain cs) :
    unended ((squeezed cs).dropWhile isUnderscore) = ['_'].intercalate (letterBlocks cs) := by
  obtain ⟨front, back, hcs, hfront, hback⟩ := exists_scan isUnderscore cs
  have hdrop : cs.dropWhile isUnderscore = back := by rw [hcs, (takeWhile_append_stop hfront hback).2]
  have hblocks : letterBlocks cs = letterBlocks back := by
    rw [hcs]
    exact blocks_append_of_neg (fun c hc => not_isAlphanum (hfront c hc)) back
  have hplain : IsPlain back := fun c hc => h c (by simp [hcs, hc])
  have hhead : back.head?.any isUnderscore = false := by
    cases back with
    | nil => rfl
    | cons c back => exact hback c rfl
  rw [dropWhile_squeezed, hdrop, unended_squeezed hplain, hblocks, hhead]
  rfl

/-- Underscores in the place of the cuts leave the blocks that the cuts make. -/
theorem letterBlocks_withCuts (cs : List Char) : letterBlocks (withCuts caseCut cs) = snakeWords cs := by
  induction cs with
  | nil => rfl
  | cons c cs ih =>
    cases cs with
    | nil => rfl
    | cons d after =>
      obtain ⟨more, hmore⟩ := exists_withCuts_cons caseCut d after
      rw [letterBlocks, snakeWords] at ih ⊢
      rw [withCuts]
      -- a cut stands between two blocks, and behind anything else there is none
      by_cases hc : c.isAlphanum = true
      case neg =>
        have hno : caseCut c d after.head? = false := by
          have hc := Bool.eq_false_iff.2 hc
          have hc' : c.isLower = false ∧ c.isDigit = false ∧ c.isUpper = false := by grind
          simp [caseCut, hc']
        have hc := Bool.eq_false_iff.2 hc
        rw [hno, if_neg Bool.false_ne_true, blocks_cons_of_neg hc, blocks_cons_of_neg hc, ih]
      cases hcut : caseCut c d after.head? with
      | true =>
        rw [if_pos rfl, blocks_cons_cons hc, blocks_cons_cons hc, blocks_cons_of_neg rfl, ih, hcut]
        cases blocks Char.isAlphanum caseCut (d :: after) <;> simp
      | false =>
        rw [hmore] at ih ⊢
        rw [if_neg Bool.false_ne_true, blocks_cons_cons hc, blocks_cons_cons hc, ih, hcut]

/-- **The passes give the words of a text, with an underscore between them.** -/
theorem underscored_eq (cs : List Char) : underscored cs = ['_'].intercalate (snakeWords cs) := by
  let cuts := withCuts caseCut cs
  -- the first two passes make the cuts of the snake-case form
  have hfirst : wordEnd.replace parted (acronymEnd.replace parted cs) = cuts := by
    rw [Pattern.replace, written_wordEnd (scans_pieces rfl [] _), Pattern.replace,
      written_acronymEnd (scans_pieces rfl [] cs), withCuts_withCuts]
  have hthird : foreign.replace (fun _ => ['_']) cuts = cuts.map (letterOr '_') :=
    written_foreign '_' (scans_pieces rfl [] cuts)
  have hplain := isPlain_map_letterOr cuts
  have hline : ∀ c ∈ squeezed (cuts.map (letterOr '_')), c ≠ '\n' :=
    fun c hc => hplain.ne_line c (mem_of_mem_squeezed hc)
  have hblocks : letterBlocks (cuts.map (letterOr '_')) = letterBlocks cuts :=
    blocks_map (isAlphanum_letterOr rfl) (fun c hc => if_pos hc) (fun _ _ _ _ _ => rfl) cuts
  unfold underscored
  simp only
  rw [hfirst, hthird, Pattern.replace, Pattern.replace, written_manyUnderscores (scans_pieces rfl [] _),
    written_outerUnderscores (scans_pieces rfl [] _) hline, if_pos rfl, unended_dropWhile_squeezed hplain, hblocks,
    letterBlocks_withCuts]

end CrudScaffold.Naming
