import CrudScaffold.Proofs.Naming.Blocks
import CrudScaffold.Proofs.Naming.Snake
import Mathlib.Data.List.Basic

/-!
# CrudScaffold.Proofs.Naming.Spelling — the snake-case form, place by place

The form is described by looking at places of the text: which of them hold a letter or a digit (`letterPlaces`), and
where two neighbouring ones belong to different words (`isParted`).  Nothing is said about words there.  That the words
which `snakeCase` joins spell the same form is `joined_snakeWords`, by induction on the text; that the form is its own
form is `snakeWords_joined`.
-/

namespace CrudScaffold.Naming

open CrudScaffold.Text

/-! ## Definitions -/

/-- The places of a text that hold a letter or a digit, from left to right. -/
def letterPlaces (cs : List Char) : List Nat := cs.findIdxs Char.isAlphanum

/-- The places `i` and `j`, with no letter or digit between them, belong to different words: some other character
stands between them, or a capital at `j` follows a small letter or a digit, or it follows a capital and stands in front
of a small letter. -/
def isParted (cs : List Char) (i j : Nat) : Bool :=
  decide (i + 1 < j) ||
  (cs[i]?.any isLowerOrDigit && cs[j]?.any Char.isUpper) ||
  (cs[i]?.any Char.isUpper && cs[j]?.any Char.isUpper && cs[j + 1]?.any Char.isLower)

/-- The character at a place, in lower case. -/
def lowerAt (cs : List Char) (i : Nat) : List Char := cs[i]?.toList.map Char.toLower

/-- The characters at some places of a text in lower case, with an underscore between two that are parted. -/
def spelt (cs : List Char) : List Nat → List Char
  | [] => []
  | [i] => lowerAt cs i
  | i :: j :: places => lowerAt cs i ++ (if isParted cs i j then ['_'] else []) ++ spelt cs (j :: places)

/-- Words in lower case, joined by underscores. -/
def joined (words : List (List Char)) : List Char := ['_'].intercalate (words.map fun w => w.map Char.toLower)

/-! ## Places behind the first character -/

theorem letterPlaces_cons (c : Char) (cs : List Char) :
    letterPlaces (c :: cs) =
      if c.isAlphanum then 0 :: (letterPlaces cs).map (· + 1) else (letterPlaces cs).map (· + 1) := by
  rw [letterPlaces, List.findIdxs_cons, Nat.zero_add, List.findIdxs_start, letterPlaces]

theorem letterPlaces_eq_nil_iff {cs : List Char} : letterPlaces cs = [] ↔ ∀ c ∈ cs, c.isAlphanum = false :=
  List.findIdxs_eq_nil_iff

@[simp] theorem isParted_cons (c : Char) (cs : List Char) (i j : Nat) :
    isParted (c :: cs) (i + 1) (j + 1) = isParted cs i j := by
  simp [isParted]

@[simp] theorem lowerAt_cons (c : Char) (cs : List Char) (i : Nat) : lowerAt (c :: cs) (i + 1) = lowerAt cs i := by
  simp [lowerAt]

theorem spelt_cons (c : Char) (cs : List Char) (places : List Nat) :
    spelt (c :: cs) (places.map (· + 1)) = spelt cs places := by
  induction places with
  | nil => rfl
  | cons i places ih =>
    cases places with
    | nil => exact lowerAt_cons c cs i
    | cons j places =>
      simp only [List.map_cons] at ih
      simp only [List.map_cons, spelt, lowerAt_cons, isParted_cons, ih]

theorem isParted_zero_one (c d : Char) (after : List Char) :
    isParted (c :: d :: after) 0 1 = caseCut c d after.head? := by
  have hnext : (c :: d :: after)[1 + 1]? = after.head? := by simp [List.head?_eq_getElem?]
  have hplaces : isParted (c :: d :: after) 0 1 =
      (isLowerOrDigit c && d.isUpper || (c.isUpper && d.isUpper && after.head?.any Char.isLower)) := by
    simp [isParted, hnext]
  rw [hplaces, caseCut, isLowerOrDigit]
  cases c.isLower <;> cases c.isDigit <;> cases c.isUpper <;> cases d.isUpper <;> simp

/-- The next letter is not parted from the first character if it stands right behind it and the cut rule does not
apply. -/
theorem isParted_next (c : Char) {d : Char} {after : List Char} {p : Nat} {ps : List Nat}
    (hp : letterPlaces (d :: after) = p :: ps) :
    isParted (c :: d :: after) 0 (p + 1) = !(d.isAlphanum && !caseCut c d after.head?) := by
  rw [letterPlaces_cons] at hp
  by_cases hd : d.isAlphanum = true
  · rw [if_pos hd] at hp
    obtain ⟨rfl, -⟩ := List.cons_eq_cons.1 hp
    rw [isParted_zero_one, hd, Bool.true_and, Bool.not_not]
  · rw [if_neg hd] at hp
    have hfar : 0 + 1 < p + 1 := by
      have hmem : p ∈ (letterPlaces after).map (· + 1) := by simp [hp]
      obtain ⟨q, -, rfl⟩ := List.mem_map.1 hmem
      omega
    simp [isParted, hfar, hd]

/-! ## The words spell the form -/

theorem joined_cons_cons (c : Char) (w : List Char) (ws : List (List Char)) :
    joined ((c :: w) :: ws) = c.toLower :: joined (w :: ws) := by
  cases ws with
  | nil => simp [joined]
  | cons v ws => simp [joined, List.intercalate_cons_cons]

theorem joined_nil_cons (w : List Char) (ws : List (List Char)) : joined ([] :: w :: ws) = '_' :: joined (w :: ws) := by
  simp [joined, List.intercalate_cons_cons]

/-- The words of a text, joined, are the form that its places spell. -/
theorem joined_snakeWords (cs : List Char) : joined (snakeWords cs) = spelt cs (letterPlaces cs) := by
  induction cs with
  | nil => rfl
  | cons c cs ih =>
    by_cases hc : c.isAlphanum = true
    case neg =>
      rw [snakeWords, blocks_cons_of_neg (Bool.eq_false_iff.2 hc), letterPlaces_cons, if_neg hc, spelt_cons]
      exact ih
    rw [letterPlaces_cons, if_pos hc]
    cases cs with
    | nil =>
      rw [snakeWords, blocks_singleton hc]
      rfl
    | cons d after =>
      rw [snakeWords] at ih ⊢
      rw [blocks_cons_cons hc]
      cases hws : blocks Char.isAlphanum caseCut (d :: after) with
      | nil =>
        rw [letterPlaces_eq_nil_iff.2 (blocks_eq_nil_iff.1 hws)]
        rfl
      | cons w ws =>
        -- the block of the rest begins at a place
        have hplaces : letterPlaces (d :: after) ≠ [] := by
          intro hnone
          have hnil : blocks Char.isAlphanum caseCut (d :: after) = [] :=
            blocks_eq_nil_iff.2 (letterPlaces_eq_nil_iff.1 hnone)
          rw [hnil] at hws
          cases hws
        obtain ⟨p, ps, hp⟩ := List.exists_cons_of_ne_nil hplaces
        -- the character behind `c` is parted from it, or not
        have hspelt : spelt (c :: d :: after) (0 :: (p :: ps).map (· + 1)) = c.toLower ::
            (if isParted (c :: d :: after) 0 (p + 1) then ['_'] else []) ++ joined (w :: ws) := by
          rw [← hws, ih, hp, ← spelt_cons c (d :: after) (p :: ps)]
          rfl
        rw [hp, hspelt, isParted_next c hp]
        cases d.isAlphanum && !caseCut c d after.head? with
        | true => exact joined_cons_cons c w ws
        | false =>
          show joined ([c] :: w :: ws) = _
          rw [joined_cons_cons, joined_nil_cons]
          rfl

/-! ## The form is its own form -/

/-- A word of the snake-case form. -/
structure IsSnakeWord (w : List Char) : Prop where
  ne_nil : w ≠ []
  low : ∀ c ∈ w, isLowerOrDigit c = true

theorem isLowerOrDigit_toLower {c : Char} (h : c.isAlphanum = true) : isLowerOrDigit c.toLower = true := by
  rw [isLowerOrDigit, Bool.or_eq_true]
  grind

theorem isAlphanum_of_isLowerOrDigit {c : Char} (h : isLowerOrDigit c = true) : c.isAlphanum = true := by
  rw [isLowerOrDigit, Bool.or_eq_true] at h
  rcases h with h | h
  · exact isAlphanum_of_isLower h
  · simp [Char.isAlphanum, h]

theorem isLowerOrDigit_fixed {c : Char} (h : isLowerOrDigit c = true) : c.isUpper = false ∧ c.toLower = c := by
  rw [isLowerOrDigit, Bool.or_eq_true] at h
  have hnot : c.isUpper = false := by grind
  exact ⟨hnot, toLower_of_not_isUpper hnot⟩

theorem isSnakeWord_of_mem {cs w : List Char} (h : w ∈ (snakeWords cs).map fun w => w.map Char.toLower) :
    IsSnakeWord w := by
  obtain ⟨v, hv, rfl⟩ := List.mem_map.1 h
  constructor
  · simpa using ne_nil_of_mem_blocks hv
  · intro c hc
    obtain ⟨d, hd, rfl⟩ := List.mem_map.1 hc
    exact isLowerOrDigit_toLower (isAlphanum_of_mem_snakeWords hv hd)

theorem IsSnakeWord.uncut {w : List Char} (h : IsSnakeWord w) : Uncut Char.isAlphanum caseCut w where
  ne_nil := h.ne_nil
  kept c hc := isAlphanum_of_isLowerOrDigit (h.low c hc)
  whole x y hy next := by
    rw [caseCut, (isLowerOrDigit_fixed (h.low y hy)).1, Bool.false_and]

theorem IsSnakeWord.map_toLower {w : List Char} (h : IsSnakeWord w) : w.map Char.toLower = w := by
  have hfixed : ∀ c ∈ w, c.toLower = id c := fun c hc => (isLowerOrDigit_fixed (h.low c hc)).2
  rw [List.map_congr_left hfixed, List.map_id]

/-- Words of the form are the words of what they are joined to. -/
theorem snakeWords_joined {words : List (List Char)} (h : ∀ w ∈ words, IsSnakeWord w) :
    snakeWords (['_'].intercalate words) = words ∧ joined words = ['_'].intercalate words := by
  constructor
  · exact blocks_intercalate (fun w hw => (h w hw).uncut) (by decide)
  · have hfixed : ∀ w ∈ words, w.map Char.toLower = id w := fun w hw => (h w hw).map_toLower
    rw [joined, List.map_congr_left hfixed, List.map_id]

/-! ## The derivation -/

theorem snakeWords_trim (cs : List Char) : snakeWords (trim cs) = snakeWords cs := by
  refine blocks_trim (fun c => isBlank_of_isAlphanum) (fun x y z hz => ?_) cs
  have hlow : z.isLower = false := Bool.eq_false_iff.2 fun h => by simp [isAlphanum_of_isLower h] at hz
  simp [caseCut, hlow]

/-- The form is the words of the name, joined; a name without words has none. -/
theorem snakeCase_eq (name : String) :
    snakeCase name = match snakeWords name.toList with
      | [] => .error (if (trim name.toList).isEmpty then .blank name else .noIdentifier name)
      | w :: ws => .ok (String.ofList (joined (w :: ws))) := by
  have hwords := snakeWords_trim name.toList
  have hempty := underscored_eq_nil_iff (trim name.toList)
  have hlower := lowerChars_underscored (trim name.toList)
  rw [hwords] at hempty hlower
  rw [snakeCase, nameChars]
  by_cases hblank : (trim name.toList).isEmpty = true
  · rw [← hwords, List.isEmpty_iff.1 hblank]
    rfl
  rw [if_neg hblank, if_neg hblank]
  simp only [bind, Except.bind, hlower]
  -- only a text without words has no snake-case form
  cases hsome : snakeWords name.toList with
  | nil =>
    rw [hempty.2 hsome]
    rfl
  | cons w ws =>
    have hne : (underscored (trim name.toList)).isEmpty = false :=
      List.isEmpty_eq_false_iff.2 fun h => List.cons_ne_nil w ws (hsome.symm.trans (hempty.1 h))
    rw [hne]
    rfl

/-- Snake case exists for the texts with a letter or a digit. -/
theorem snakeCase_isOk_iff {name : String} :
    (∃ s, snakeCase name = .ok s) ↔ ∃ c ∈ name.toList, c.isAlphanum = true := by
  have hnone : snakeWords name.toList = [] ↔ ∀ c ∈ name.toList, c.isAlphanum = false := blocks_eq_nil_iff
  rw [snakeCase_eq]
  cases hwords : snakeWords name.toList with
  | nil => simpa using hnone.1 hwords
  | cons w ws =>
    rw [hwords] at hnone
    simpa using hnone

/-- **The snake-case form is exact.**  A name has none exactly if it has no letter and no digit.  Otherwise the form
is its letters and digits in lower case, with an underscore between the parted ones; so it is made of words of small
letters and digits, and it is its own form. -/
theorem snakeCase_exact (name : String) :
    ((∃ fault, snakeCase name = .error fault) ↔ ∀ c ∈ name.toList, c.isAlphanum = false) ∧
    ((∃ c ∈ name.toList, c.isAlphanum = true) → ∃ s, snakeCase name = .ok s ∧
      s.toList = spelt name.toList (letterPlaces name.toList) ∧
      (∃ words, words ≠ [] ∧ (∀ w ∈ words, IsSnakeWord w) ∧ s.toList = ['_'].intercalate words) ∧
      snakeCase s = .ok s) := by
  have hnone : snakeWords name.toList = [] ↔ ∀ c ∈ name.toList, c.isAlphanum = false := blocks_eq_nil_iff
  have hform := snakeCase_eq name
  have hspelt := joined_snakeWords name.toList
  have hsnake : ∀ w ∈ (snakeWords name.toList).map fun w => w.map Char.toLower, IsSnakeWord w :=
    fun w => isSnakeWord_of_mem
  cases hwords : snakeWords name.toList with
  | nil =>
    have hall := hnone.1 hwords
    rw [hwords] at hform
    refine ⟨iff_of_true ⟨_, hform⟩ hall, fun ⟨c, hc, halnum⟩ => ?_⟩
    simp [hall c hc] at halnum
  | cons w ws =>
    rw [hwords] at hform hspelt hsnake
    constructor
    · have hsome : ¬ ∀ c ∈ name.toList, c.isAlphanum = false := by
        rw [← hnone, hwords]
        exact List.cons_ne_nil w ws
      refine iff_of_false ?_ hsome
      rintro ⟨fault, h⟩
      rw [hform] at h
      cases h
    · -- the form is read as the words that it was made of
      intro _
      obtain ⟨hagain, hfixed⟩ := snakeWords_joined hsnake
      have hself : snakeCase (String.ofList (joined (w :: ws))) = .ok (String.ofList (joined (w :: ws))) := by
        have h := snakeCase_eq (String.ofList (joined (w :: ws)))
        rw [String.toList_ofList] at h
        rw [h, joined, hagain, List.map_cons]
        exact congrArg (fun cs => Except.ok (String.ofList cs)) hfixed
      refine ⟨_, hform, ?_, ⟨_, ?_, hsnake, ?_⟩, hself⟩
      · rw [String.toList_ofList, hspelt]
      · simp
      · rw [String.toList_ofList, joined]

theorem snakeCase_exact_acronym :
    (∃ c ∈ "getHTTPResponse2Go".toList, c.isAlphanum = true) ∧
    ∃ s, snakeCase "getHTTPResponse2Go" = .ok s ∧ s.toList = "get_http_response2_go".toList := by
  have hletter : ∃ c ∈ "getHTTPResponse2Go".toList, c.isAlphanum = true := ⟨'g', by decide, by decide⟩
  obtain ⟨s, hs, hspelt, -⟩ := (snakeCase_exact "getHTTPResponse2Go").2 hletter
  exact ⟨hletter, s, hs, hspelt.trans (by decide)⟩

end CrudScaffold.Naming
