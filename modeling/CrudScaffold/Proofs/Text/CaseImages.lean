import CrudScaffold.Proofs.Text.Characters

/-!
# CrudScaffold.Proofs.Text.CaseImages — where the characters of the other case come from

The tables of letter case are read backwards: `sources` lists the code points from which a table can make a given one
(`mem_mapChar`).  What the lower or the upper case of a text can contain is then a matter of the sources of a few
characters, which are computed from the tables.

* The lower case of a character has a letter or digit in it only if the character is one, with two exceptions
  (`letter_of_mem_lowerChar`).
* Some small characters are `SpeltOut` in upper case, such as the sharp s.  The capital sharp s is the only other
  character whose lower case is spelt out (`SpeltOut.eq_of_mem_lowerChar`).
* No other character becomes a blank (`LowerImage.isBlank_eq_false`, `isBlank_of_mem_upperChar`).
* Three capitals are lost in lower case, and nothing leads back to them (`notMem_lowerChar`, `eq_of_mem_upperChar`).
-/

namespace CrudScaffold.Text

/-! ### Sources -/

/-- The code points that the tables of a direction can send to a code point from `low` to `high`. -/
def sources (special : List (Nat × List Nat)) (runs : List (Nat × Nat × Nat × Int)) (low high : Nat) : List Nat :=
  (special.filter fun row => row.2.any fun n => low ≤ n && n ≤ high).map Prod.fst ++
    runs.flatMap fun (first, last, _, shift) =>
      let start := max first (low - shift).toNat
      List.range' start (min (last + 1) (high + 1 - shift).toNat - start)

/-- The code points beyond ASCII whose lower case can have a code point from `low` to `high` in it. -/
def lowerSources (low high : Nat) : List Nat := sources CaseTable.lowerSpecial CaseTable.lowerRuns low high

/-- The code points beyond ASCII whose upper case can have a code point from `low` to `high` in it. -/
def upperSources (low high : Nat) : List Nat := sources CaseTable.upperSpecial CaseTable.upperRuns low high

/-- A character other than NUL is made from its own code point only. -/
theorem eq_toNat_of_ofNat {n : Nat} {c : Char} (h : Char.ofNat n = c) (hc : c.toNat ≠ 0) : n = c.toNat := by
  subst h
  by_cases hvalid : n.isValidChar
  · have hofNat : Char.ofNat n = Char.ofNatAux n hvalid := dif_pos hvalid
    rw [hofNat]
    rfl
  · have hofNat : Char.ofNat n = Char.ofNat 0 := dif_neg hvalid
    rw [hofNat] at hc
    exact absurd rfl hc

/-- The tables send a character to itself, or list it among the sources of its image. -/
theorem mem_mapChar {special : List (Nat × List Nat)} {runs : List (Nat × Nat × Nat × Int)} {c d : Char} {low high : Nat}
    (h : d ∈ mapChar special runs c) (hd : d.toNat ≠ 0) (hlow : low ≤ d.toNat) (hhigh : d.toNat ≤ high) :
    d = c ∨ c.toNat ∈ sources special runs low high := by
  unfold mapChar at h
  split at h
  · -- a row of the table, a run of characters, or the character itself
    rename_i image himage
    right
    apply List.mem_append_left
    obtain ⟨n, hn, hof⟩ := List.mem_map.1 h
    obtain rfl := eq_toNat_of_ofNat hof hd
    obtain ⟨front, back, hsplit, -⟩ := List.lookup_eq_some_iff.1 himage
    have hrow : (c.toNat, image) ∈ special := by simp [hsplit]
    have hany : (image.any fun n => low ≤ n && n ≤ high) = true :=
      List.any_eq_true.2 ⟨_, hn, by simp [hlow, hhigh]⟩
    exact List.mem_map.2 ⟨_, List.mem_filter.2 ⟨hrow, hany⟩, rfl⟩
  split at h
  · rename_i n hn
    right
    apply List.mem_append_right
    obtain ⟨⟨first, last, step, shift⟩, hrun, rfl⟩ := Option.map_eq_some_iff.1 hn
    have hin := List.find?_some hrun
    have himage := eq_toNat_of_ofNat (List.mem_singleton.1 h).symm hd
    simp only [Bool.and_eq_true, decide_eq_true_eq] at hin
    simp only [Int.ofNat_eq_natCast] at himage
    refine List.mem_flatMap.2 ⟨_, List.mem_of_find?_eq_some hrun, ?_⟩
    rw [List.mem_range'_1]
    omega
  · exact Or.inl (List.mem_singleton.1 h)

theorem toLower_of_not_ascii {c : Char} (h : ¬ c.toNat < 128) : c.toLower = c :=
  toLower_of_not_isUpper (by grind)

theorem toUpper_of_not_ascii {c : Char} (h : ¬ c.toNat < 128) : c.toUpper = c :=
  toUpper_of_not_isLower (by grind)

/-- What the lower case of a character has in it is its ASCII lower case, or has it as a source. -/
theorem mem_lowerChar {c d : Char} {low high : Nat} (h : d ∈ lowerChar c) (hd : d.toNat ≠ 0) (hlow : low ≤ d.toNat)
    (hhigh : d.toNat ≤ high) : d = c.toLower ∨ c.toNat ∈ lowerSources low high := by
  unfold lowerChar at h
  split at h
  · exact Or.inl (List.mem_singleton.1 h)
  · rename_i hascii
    rw [toLower_of_not_ascii hascii]
    exact mem_mapChar h hd hlow hhigh

theorem mem_upperChar {c d : Char} {low high : Nat} (h : d ∈ upperChar c) (hd : d.toNat ≠ 0) (hlow : low ≤ d.toNat)
    (hhigh : d.toNat ≤ high) : d = c.toUpper ∨ c.toNat ∈ upperSources low high := by
  unfold upperChar at h
  split at h
  · exact Or.inl (List.mem_singleton.1 h)
  · rename_i hascii
    rw [toUpper_of_not_ascii hascii]
    exact mem_mapChar h hd hlow hhigh

theorem mapChar_ne_nil {special : List (Nat × List Nat)} (h : ∀ row ∈ special, row.2 ≠ [])
    (runs : List (Nat × Nat × Nat × Int)) (c : Char) : mapChar special runs c ≠ [] := by
  unfold mapChar
  split
  · rename_i image himage
    obtain ⟨front, back, hsplit, -⟩ := List.lookup_eq_some_iff.1 himage
    have himage := h (c.toNat, image) (by simp [hsplit])
    simpa using himage
  split <;> exact List.cons_ne_nil _ _

theorem lowerChar_ne_nil (c : Char) : lowerChar c ≠ [] := by
  unfold lowerChar
  split
  · exact List.cons_ne_nil _ _
  · exact mapChar_ne_nil (by decide) _ c

theorem upperChar_ne_nil (c : Char) : upperChar c ≠ [] := by
  unfold upperChar
  split
  · exact List.cons_ne_nil _ _
  · exact mapChar_ne_nil (by decide) _ c

/-! ### Texts -/

/-- A small sigma, final or not. -/
def isSmallSigma (c : Char) : Bool := c.toNat == 0x3c2 || c.toNat == 0x3c3

/-- What a character may become in the lower case of a text. -/
def LowerImage (c : Char) (image : List Char) : Prop :=
  image = lowerChar c ∨ c.toNat = 0x3a3 ∧ ∃ d, image = [d] ∧ isSmallSigma d = true

theorem LowerImage.ne_nil {c : Char} {image : List Char} (h : LowerImage c image) : image ≠ [] := by
  rcases h with rfl | ⟨-, d, rfl, -⟩
  · exact lowerChar_ne_nil c
  · exact List.cons_ne_nil d []

theorem LowerImage.mem_lowerChar {c d : Char} {image : List Char} (h : LowerImage c image) (hd : d ∈ image)
    (hsigma : isSmallSigma d = false) : d ∈ lowerChar c := by
  rcases h with rfl | ⟨-, e, rfl, he⟩
  · exact hd
  · obtain rfl := List.mem_singleton.1 hd
    rw [he] at hsigma
    cases hsigma

theorem lowerAfter_cons (before : List Char) (c : Char) (rest : List Char) :
    ∃ image, LowerImage c image ∧ lowerAfter before (c :: rest) = image ++ lowerAfter (c :: before) rest := by
  refine ⟨_, ?_, rfl⟩
  split
  · rename_i hc
    have hsigma : ∀ final : Bool, isSmallSigma (Char.ofNat (if final = true then 0x3c2 else 0x3c3)) = true := by decide
    exact Or.inr ⟨hc, _, rfl, hsigma _⟩
  · exact Or.inl rfl

/-- The lower case of a text ends with what its last character becomes, and nothing of the others is lost. -/
theorem lowerAfter_concat (before cs : List Char) (c : Char) : ∃ front image, LowerImage c image ∧
    lowerAfter before (cs ++ [c]) = front ++ image ∧ cs.length ≤ front.length := by
  induction cs generalizing before with
  | nil =>
    obtain ⟨image, himage, hlower⟩ := lowerAfter_cons before c []
    refine ⟨[], image, himage, ?_, Nat.le_refl 0⟩
    rw [List.nil_append, hlower, lowerAfter, List.append_nil, List.nil_append]
  | cons d cs ih =>
    obtain ⟨first, hfirst, hlower⟩ := lowerAfter_cons before d (cs ++ [c])
    obtain ⟨front, image, himage, hrest, hlength⟩ := ih (d :: before)
    refine ⟨first ++ front, image, himage, ?_, ?_⟩
    · rw [List.cons_append, hlower, hrest, List.append_assoc]
    · have hpos := List.length_pos_iff.2 hfirst.ne_nil
      rw [List.length_cons, List.length_append]
      omega

/-! ### Letters -/

theorem lowerChar_of_isAlphanum {c : Char} (h : c.isAlphanum = true) : lowerChar c = [c.toLower] :=
  if_pos (toNat_lt_of_isAlphanum h)

theorem upperChar_of_isAlphanum {c : Char} (h : c.isAlphanum = true) : upperChar c = [c.toUpper] :=
  if_pos (toNat_lt_of_isAlphanum h)

theorem toNat_ne_zero_of_isAlphanum {c : Char} (h : c.isAlphanum = true) : c.toNat ≠ 0 := by
  intro hzero
  have hofNat : Char.ofNat 0 = c := by rw [← hzero, Char.ofNat_toNat]
  rw [← hofNat] at h
  cases h

/-- Two characters beyond ASCII have an ASCII letter in their lower case: the dotted capital I and the Kelvin sign. -/
theorem lowerSources_ascii : lowerSources 0 127 = [0x130, 0x212a] := by decide

/-- A letter or digit in lower case comes from a letter or digit, with two exceptions. -/
theorem letter_of_mem_lowerChar {c d : Char} (h : d ∈ lowerChar c) (hd : d.isAlphanum = true) :
    c.isAlphanum = true ∨ c.toNat = 0x130 ∨ c.toNat = 0x212a := by
  have hascii := Nat.le_of_lt_succ (toNat_lt_of_isAlphanum hd)
  rcases mem_lowerChar h (toNat_ne_zero_of_isAlphanum hd) (Nat.zero_le _) hascii with rfl | hsource
  · left
    grind
  · right
    rw [lowerSources_ascii] at hsource
    simpa using hsource

/-- The capital sharp s. -/
def capitalSharpS : Char := Char.ofNat 0x1e9e

/-- A character other than the ASCII letters, with ASCII letters in its upper case. -/
def SpeltOut (c : Char) : Prop := c.isAlphanum = false ∧ ∃ d ∈ upperChar c, d.isAlphanum = true

/-- The characters that are spelt out are small ones beyond ASCII, and only the capital sharp s has one of them as its
lower case. -/
theorem upperSources_ascii : ∀ n ∈ upperSources 0 127, 128 ≤ n ∧ isLowerChar (Char.ofNat n) = true ∧
    isUpperChar (Char.ofNat n) = false ∧ ∀ m ∈ lowerSources n n, m = 0x1e9e := by decide

namespace SpeltOut

variable {c d : Char}

theorem facts (h : SpeltOut c) : 128 ≤ c.toNat ∧ isLowerChar c = true ∧ isUpperChar c = false ∧
    ∀ m ∈ lowerSources c.toNat c.toNat, m = 0x1e9e := by
  obtain ⟨hc, d, hd, halnum⟩ := h
  have hascii := Nat.le_of_lt_succ (toNat_lt_of_isAlphanum halnum)
  rcases mem_upperChar hd (toNat_ne_zero_of_isAlphanum halnum) (Nat.zero_le _) hascii with rfl | hsource
  · exfalso
    grind
  · have hfacts := upperSources_ascii _ hsource
    rwa [Char.ofNat_toNat] at hfacts

/-- A character that is spelt out is the lower case of itself and of the capital sharp s. -/
theorem eq_of_mem_lowerChar (h : SpeltOut d) (hmem : d ∈ lowerChar c) : d = c ∨ c = capitalSharpS := by
  obtain ⟨hbeyond, -, -, hsources⟩ := h.facts
  rcases mem_lowerChar hmem (by omega) (Nat.le_refl _) (Nat.le_refl _) with rfl | hsource
  · left
    exact toLower_of_not_isUpper (by grind)
  · right
    rw [capitalSharpS, ← hsources _ hsource, Char.ofNat_toNat]

end SpeltOut

/-! ### Sigmas -/

theorem isSmallSigma_eq_false {c : Char} (h : c.toNat < 0x3c2) : isSmallSigma c = false := by
  simp only [isSmallSigma, Bool.or_eq_false_iff, beq_eq_false_iff_ne]
  omega

theorem SpeltOut.isSmallSigma {c : Char} (h : SpeltOut c) : isSmallSigma c = false := by
  have hsigmas : ∀ n, n = 0x3c2 ∨ n = 0x3c3 → (upperChar (Char.ofNat n)).any Char.isAlphanum = false := by
    rintro n (rfl | rfl) <;> decide
  obtain ⟨-, d, hd, halnum⟩ := h
  refine Bool.eq_false_iff.2 fun hsigma => ?_
  simp only [Text.isSmallSigma, Bool.or_eq_true, beq_iff_eq] at hsigma
  have hnone := hsigmas _ hsigma
  rw [Char.ofNat_toNat, List.any_eq_false] at hnone
  exact hnone d hd halnum

/-! ### Blanks -/

/-- The blanks, as intervals of code points. -/
def blankRuns : List (Nat × Nat) := [
  (9, 13), (28, 32), (0x85, 0x85), (0xa0, 0xa0), (0x1680, 0x1680), (0x2000, 0x200a), (0x2028, 0x2029), (0x202f, 0x202f),
  (0x205f, 0x205f), (0x3000, 0x3000)]

theorem exists_blankRun {c : Char} (h : isBlank c = true) : ∃ run ∈ blankRuns, run.1 ≤ c.toNat ∧ c.toNat ≤ run.2 := by
  simp only [isBlank, Bool.or_eq_true, Bool.and_eq_true, decide_eq_true_eq, beq_iff_eq] at h
  simp only [blankRuns, List.mem_cons, List.not_mem_nil, or_false, exists_eq_or_imp, exists_eq_left]
  omega

/-- No other character becomes a blank. -/
theorem sources_blankRuns : ∀ run ∈ blankRuns,
    0 < run.1 ∧ lowerSources run.1 run.2 = [] ∧ upperSources run.1 run.2 = [] := by decide

theorem isSmallSigma_of_isBlank {c : Char} (h : isBlank c = true) : isSmallSigma c = false := by
  simp only [isBlank, Bool.or_eq_true, Bool.and_eq_true, decide_eq_true_eq, beq_iff_eq] at h
  simp only [isSmallSigma, Bool.or_eq_false_iff, beq_eq_false_iff_ne]
  omega

/-- Upper case makes no blank of another character, -/
theorem isBlank_of_mem_upperChar {c d : Char} (hc : isBlank c = false) (h : d ∈ upperChar c) : isBlank d = false := by
  refine Bool.eq_false_iff.2 fun hd => ?_
  obtain ⟨run, hrun, hlow, hhigh⟩ := exists_blankRun hd
  obtain ⟨hpos, -, hnone⟩ := sources_blankRuns run hrun
  rcases mem_upperChar h (by omega) hlow hhigh with rfl | hsource
  · rw [isBlank_toUpper, hc] at hd
    cases hd
  · rw [hnone] at hsource
    cases hsource

/-- and neither does lower case. -/
theorem LowerImage.isBlank_eq_false {c d : Char} {image : List Char} (h : LowerImage c image) (hc : isBlank c = false)
    (hmem : d ∈ image) : isBlank d = false := by
  refine Bool.eq_false_iff.2 fun hd => ?_
  obtain ⟨run, hrun, hlow, hhigh⟩ := exists_blankRun hd
  obtain ⟨hpos, hnone, -⟩ := sources_blankRuns run hrun
  rcases Text.mem_lowerChar (h.mem_lowerChar hmem (isSmallSigma_of_isBlank hd)) (by omega) hlow hhigh with rfl | hsource
  · rw [isBlank_toLower, hc] at hd
    cases hd
  · rw [hnone] at hsource
    cases hsource

/-! ### Lost capitals -/

/-- The Kelvin sign. -/
def kelvinSign : Char := Char.ofNat 0x212a

/-- Capitals that are lost in lower case: the dotted I, the sharp s and the Kelvin sign. -/
def lostCapitals : List Char := [Char.ofNat 0x130, capitalSharpS, kelvinSign]

/-- Nothing leads to a lost capital, and lower case leads away from it. -/
theorem lostCapitals_facts : ∀ c ∈ lostCapitals, 128 ≤ c.toNat ∧ isSmallSigma c = false ∧ c ∉ lowerChar c ∧
    lowerSources c.toNat c.toNat = [] ∧ upperSources c.toNat c.toNat = [] := by
  have htable : lostCapitals.all (fun c => decide (128 ≤ c.toNat ∧ isSmallSigma c = false ∧ c ∉ lowerChar c ∧
      lowerSources c.toNat c.toNat = [] ∧ upperSources c.toNat c.toNat = [])) = true := by decide
  exact fun c hc => of_decide_eq_true (List.all_eq_true.1 htable c hc)

theorem notMem_lowerChar {c d : Char} (hc : c ∈ lostCapitals) : c ∉ lowerChar d := by
  obtain ⟨hbeyond, -, hself, hnone, -⟩ := lostCapitals_facts c hc
  intro h
  rcases mem_lowerChar h (by omega) (Nat.le_refl _) (Nat.le_refl _) with hlow | hsource
  · have hsame : d.toLower = d := toLower_of_not_isUpper (by grind)
    exact hself ((hlow.trans hsame) ▸ h)
  · rw [hnone] at hsource
    cases hsource

/-- Upper case leads to a lost capital from nowhere else. -/
theorem eq_of_mem_upperChar {c d : Char} (hc : c ∈ lostCapitals) (h : c ∈ upperChar d) : d = c := by
  obtain ⟨hbeyond, -, -, -, hnone⟩ := lostCapitals_facts c hc
  rcases mem_upperChar h (by omega) (Nat.le_refl _) (Nat.le_refl _) with hup | hsource
  · have hsame : d.toUpper = d := toUpper_of_not_isLower (by grind)
    exact (hup.trans hsame).symm
  · rw [hnone] at hsource
    cases hsource

theorem mem_lowerAfter {before cs : List Char} {d : Char} (h : d ∈ lowerAfter before cs) :
    ∃ c ∈ cs, ∃ image, LowerImage c image ∧ d ∈ image := by
  induction cs generalizing before with
  | nil => cases h
  | cons c cs ih =>
    obtain ⟨image, himage, hlower⟩ := lowerAfter_cons before c cs
    rw [hlower, List.mem_append] at h
    rcases h with h | h
    · exact ⟨c, List.mem_cons_self, image, himage, h⟩
    · obtain ⟨e, he, rest⟩ := ih h
      exact ⟨e, List.mem_cons_of_mem c he, rest⟩

/-- There are no capitals in lower case. -/
theorem isUpper_of_mem_lowerAfter {before cs : List Char} {d : Char} (h : d ∈ lowerAfter before cs) :
    d.isUpper = false := by
  have hnone : lowerSources 65 90 = [] := by decide
  refine Bool.eq_false_iff.2 fun hd => ?_
  obtain ⟨c, -, image, himage, hmem⟩ := mem_lowerAfter h
  obtain ⟨hlow, hhigh⟩ := isUpper_iff.1 hd
  rcases mem_lowerChar (himage.mem_lowerChar hmem (isSmallSigma_eq_false (by omega))) (by omega) hlow hhigh with
    rfl | hsource
  · rw [isUpper_toLower] at hd
    cases hd
  · rw [hnone] at hsource
    cases hsource

section Image

variable {c : Char} {image : List Char} (himage : LowerImage c image)
include himage

theorem lowerImage_of_isAlphanum (hc : c.isAlphanum = true) : image = [c.toLower] := by
  have hascii := toNat_lt_of_isAlphanum hc
  obtain rfl := himage.resolve_right (by omega)
  exact lowerChar_of_isAlphanum hc

/-- Something other than a letter stays so in lower case, and is not spelt out behind it unless it is so itself. -/
theorem lowerImage_of_other (hc : c.isAlphanum = false) (hlost : c ∉ lostCapitals) {d : Char} (hd : d ∈ image) :
    d.isAlphanum = false ∧ (SpeltOut d → d = c) := by
  -- the two characters with a letter in their lower case are lost capitals
  have hcapital : ∀ n, Char.ofNat n ∈ lostCapitals → c.toNat ≠ n := by
    rintro n hn rfl
    rw [Char.ofNat_toNat] at hn
    exact hlost hn
  refine ⟨Bool.eq_false_iff.2 fun halnum => ?_, fun hspelt => ?_⟩
  · have hascii := toNat_lt_of_isAlphanum halnum
    rcases letter_of_mem_lowerChar (himage.mem_lowerChar hd (isSmallSigma_eq_false (by omega))) halnum with h | h | h
    · rw [hc] at h
      cases h
    · exact hcapital _ (by decide) h
    · exact hcapital _ (by decide) h
  · refine (hspelt.eq_of_mem_lowerChar (himage.mem_lowerChar hd hspelt.isSmallSigma)).resolve_right ?_
    rintro rfl
    exact hlost (by decide)

end Image

end CrudScaffold.Text
