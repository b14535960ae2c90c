import CrudScaffold.Proofs.Naming.Camel
import CrudScaffold.Proofs.Naming.Spelling
import Mathlib.Data.List.SplitBy

/-!
# CrudScaffold.Proofs.Naming.Capitals — the camel-case form, place by place

The form is described by looking at places of the text, as the snake-case form is: a place with a letter or a digit may
open a word behind the place of the letter or digit before it (`opensWord`), and the words are the places cut there
(`wordPlaces`).  The words that `camelCase` joins are the texts at these places (`camelWords_eq`), by induction on the
text.  The two forms have the same letters and digits, so they differ by underscores and capitals only
(`camelCase_exact`).
-/

namespace CrudScaffold.Naming

open CrudScaffold.Text

/-! ## Definitions -/

/-- One of the places holds a letter and the other one a digit. -/
def changesKind (cs : List Char) (i j : Nat) : Bool :=
  (cs[i]?.any Char.isAlpha && cs[j]?.any Char.isDigit) || (cs[i]?.any Char.isDigit && cs[j]?.any Char.isAlpha)

/-- The place `j` opens a word behind the place `i`, with no letter or digit between them: the snake-case form parts
them, or one of them holds a letter and the other one a digit. -/
def opensWord (cs : List Char) (i j : Nat) : Bool := isParted cs i j || changesKind cs i j

/-- The words of a text, as the places of their characters: a word begins at the first place and at each place that
opens one behind the place before it. -/
def wordPlaces (cs : List Char) : List (List Nat) := (letterPlaces cs).splitBy fun i j => !opensWord cs i j

/-- The characters at some places of a text. -/
def textAt (cs : List Char) (places : List Nat) : List Char := places.flatMap fun i => cs[i]?.toList

/-- Words in lower case, joined, with a capital in front of each but the first. -/
def capitalized : List (List Char) → List Char
  | [] => []
  | first :: others => first.map Char.toLower ++ others.flatMap fun w => capitalize (w.map Char.toLower)

/-! ## Lists that are split -/

section Splitting

variable {α β : Type}

/-- The first element of a list goes to the part behind it, if the two are related. -/
theorem splitBy_cons_cons (r : α → α → Bool) (a b : α) (l : List α) :
    (a :: b :: l).splitBy r = match (b :: l).splitBy r with
      | [] => [[a]]
      | w :: ws => if r a b then (a :: w) :: ws else [a] :: w :: ws := by
  cases hsplit : (b :: l).splitBy r with
  | nil => exact absurd hsplit (List.splitBy_ne_nil.2 (List.cons_ne_nil b l))
  | cons w ws =>
    by_cases hab : r a b = true
    case neg =>
      have hfalse : ∀ x ∈ [a].getLast?, r x b = false := by simpa using hab
      have happend := List.splitBy_append_cons l hfalse
      rw [List.singleton_append, hsplit] at happend
      rw [happend]
      simp only [hab]
      rfl
    -- the group of `b` begins with it, so `a` joins it
    obtain ⟨hflat, hne, hchain, hgaps⟩ := List.splitBy_eq_iff.1 hsplit
    obtain ⟨c, w, rfl⟩ := List.exists_cons_of_ne_nil fun h : w = [] => hne (h ▸ List.mem_cons_self)
    obtain ⟨rfl, -⟩ := List.cons_eq_cons.1 hflat
    simp only [hab, if_true]
    refine List.splitBy_eq_iff.2 ⟨by rw [hflat]; rfl, ?_, ?_, ?_⟩
    · simpa using hne
    · obtain ⟨hw, hws⟩ := List.forall_mem_cons.1 hchain
      exact List.forall_mem_cons.2 ⟨List.isChain_cons_cons.2 ⟨hab, hw⟩, hws⟩
    · cases ws with
      | nil => exact List.isChain_singleton _
      | cons v ws =>
        obtain ⟨⟨_, hv, hgap⟩, hrest⟩ := List.isChain_cons_cons.1 hgaps
        exact List.isChain_cons_cons.2 ⟨⟨by simp, hv, by simpa using hgap⟩, hrest⟩

theorem splitBy_map (r : β → β → Bool) (f : α → β) (l : List α) :
    (l.map f).splitBy r = (l.splitBy fun a b => r (f a) (f b)).map (List.map f) := by
  induction l with
  | nil => rfl
  | cons a l ih =>
    cases l with
    | nil => rfl
    | cons b l =>
      rw [List.map_cons] at ih
      rw [List.map_cons, List.map_cons, splitBy_cons_cons, splitBy_cons_cons, ih]
      cases (b :: l).splitBy fun a b => r (f a) (f b) with
      | nil => rfl
      | cons w ws => cases r (f a) (f b) <;> rfl

end Splitting

/-! ## Places behind the first character -/

@[simp] theorem opensWord_cons (c : Char) (cs : List Char) (i j : Nat) :
    opensWord (c :: cs) (i + 1) (j + 1) = opensWord cs i j := by
  simp [opensWord, changesKind]

@[simp] theorem textAt_nil (cs : List Char) : textAt cs [] = [] := rfl

@[simp] theorem textAt_zero_cons (c : Char) (cs : List Char) (places : List Nat) :
    textAt (c :: cs) (0 :: places) = c :: textAt (c :: cs) places := by
  simp [textAt]

@[simp] theorem textAt_map_succ (c : Char) (cs : List Char) (places : List Nat) :
    textAt (c :: cs) (places.map (· + 1)) = textAt cs places := by
  simp [textAt, List.flatMap_map]

theorem splitBy_succ (c : Char) (cs : List Char) :
    ((letterPlaces cs).map (· + 1)).splitBy (fun i j => !opensWord (c :: cs) i j) =
      (wordPlaces cs).map (List.map (· + 1)) := by
  simp only [splitBy_map, opensWord_cons, wordPlaces]

theorem opensWord_next (c : Char) {d : Char} {after : List Char} {p : Nat} {ps : List Nat}
    (hp : letterPlaces (d :: after) = p :: ps) :
    opensWord (c :: d :: after) 0 (p + 1) = !(d.isAlphanum && !kindCut c d after.head?) := by
  rw [opensWord, isParted_next c hp]
  by_cases hd : d.isAlphanum = true
  · rw [letterPlaces_cons, if_pos hd] at hp
    obtain ⟨rfl, -⟩ := List.cons_eq_cons.1 hp
    simp [hd, changesKind, kindCut, Bool.or_assoc]
  · simp [hd]

/-- The words of a text are the texts at the places of its words. -/
theorem camelWords_eq (cs : List Char) : camelWords cs = (wordPlaces cs).map (textAt cs) := by
  rw [camelWords_eq_blocks]
  induction cs with
  | nil => rfl
  | cons c cs ih =>
    -- the places behind the first character are one greater than in the rest
    have hshift : ((wordPlaces cs).map (List.map (· + 1))).map (textAt (c :: cs)) =
        blocks Char.isAlphanum kindCut cs := by
      rw [ih, List.map_map]
      exact List.map_congr_left fun places _ => textAt_map_succ c cs places
    by_cases hc : c.isAlphanum = true
    case neg =>
      rw [wordPlaces, letterPlaces_cons, if_neg hc, splitBy_succ, hshift]
      exact blocks_cons_of_neg (Bool.eq_false_iff.2 hc) cs
    rw [wordPlaces, letterPlaces_cons, if_pos hc]
    cases cs with
    | nil => exact blocks_singleton hc
    | cons d after =>
      rw [blocks_cons_cons hc]
      cases hp : letterPlaces (d :: after) with
      | nil =>
        have hnone : blocks Char.isAlphanum kindCut (d :: after) = [] :=
          blocks_eq_nil_iff.2 (letterPlaces_eq_nil_iff.1 hp)
        rw [hnone]
        rfl
      | cons p ps =>
        have hne : wordPlaces (d :: after) ≠ [] := by
          rw [wordPlaces, hp]
          exact List.splitBy_ne_nil.2 (List.cons_ne_nil p ps)
        -- the words of the rest begin at the next place
        obtain ⟨places, others, hplaces⟩ := List.exists_cons_of_ne_nil hne
        have hsplit := splitBy_succ c (d :: after)
        rw [hp, hplaces, List.map_cons] at hsplit
        rw [List.map_cons, splitBy_cons_cons, hsplit, ih, hplaces, opensWord_next c hp, Bool.not_not]
        cases d.isAlphanum && !kindCut c d after.head? with
        | true => simp
        | false => simp

/-! ## The letters of the form -/

theorem camelWords_trim (cs : List Char) : camelWords (trim cs) = camelWords cs := by
  rw [camelWords_eq_blocks, camelWords_eq_blocks]
  refine blocks_trim (fun c => isBlank_of_isAlphanum) (fun x y z hz => ?_) cs
  have hlow : z.isLower = false := Bool.eq_false_iff.2 fun h => by simp [isAlphanum_of_isLower h] at hz
  simp [kindCut, caseCut, hlow]

/-- The form is the words of the name, joined; a name without words has none. -/
theorem camelCase_eq (name : String) :
    camelCase name = match camelWords name.toList with
      | [] => .error (if (trim name.toList).isEmpty then .blank name else .noIdentifier name)
      | w :: ws => .ok (String.ofList (capitalized (w :: ws))) := by
  have hwords := camelWords_trim name.toList
  have hlower := map_lowerChars_camelWords (trim name.toList)
  rw [hwords] at hlower
  rw [camelCase, nameChars]
  -- the words of the name are those of the trimmed name, in lower case
  by_cases hblank : (trim name.toList).isEmpty = true
  · rw [← hwords, List.isEmpty_iff.1 hblank]
    rfl
  rw [if_neg hblank, if_neg hblank]
  simp only [bind, Except.bind, hwords, hlower]
  cases camelWords name.toList with
  | nil => rfl
  | cons w ws =>
    simp only [List.map_cons, capitalized, List.flatMap_map]
    rfl

theorem camelWords_eq_nil_iff (cs : List Char) : camelWords cs = [] ↔ ∀ c ∈ cs, c.isAlphanum = false := by
  rw [camelWords_eq_blocks]
  exact blocks_eq_nil_iff

theorem camelCase_isOk_iff {name : String} :
    (∃ camel, camelCase name = .ok camel) ↔ ∃ c ∈ name.toList, c.isAlphanum = true := by
  have hnone := camelWords_eq_nil_iff name.toList
  rw [camelCase_eq]
  cases hwords : camelWords name.toList with
  | nil => simpa using hnone.1 hwords
  | cons w ws =>
    rw [hwords] at hnone
    simpa using hnone

theorem toLower_toUpper (c : Char) : c.toUpper.toLower = c.toLower :=
  Char.toNat_inj.1 (by grind)

theorem map_toLower_map_toLower {w : List Char} (h : ∀ c ∈ w, c.isAlphanum = true) :
    (w.map Char.toLower).map Char.toLower = w.map Char.toLower := by
  rw [List.map_map]
  exact List.map_congr_left fun c hc => (isLowerOrDigit_fixed (isLowerOrDigit_toLower (h c hc))).2

/-- Capitals are the only difference between a capitalized word and its lower case. -/
theorem map_toLower_capitalize {w : List Char} (h : ∀ c ∈ w, c.isAlphanum = true) :
    (capitalize (w.map Char.toLower)).map Char.toLower = w.map Char.toLower := by
  cases w with
  | nil => rfl
  | cons c w =>
    obtain ⟨hc, hw⟩ := List.forall_mem_cons.1 h
    rw [List.map_cons, capitalize, List.map_cons, toLower_toUpper, map_toLower_map_toLower hw,
      (isLowerOrDigit_fixed (isLowerOrDigit_toLower hc)).2]

section Words

variable {words : List (List Char)} (h : ∀ w ∈ words, ∀ c ∈ w, c.isAlphanum = true)
include h

theorem map_toLower_capitalized : (capitalized words).map Char.toLower = words.flatten.map Char.toLower := by
  cases words with
  | nil => rfl
  | cons first others =>
    obtain ⟨hfirst, hothers⟩ := List.forall_mem_cons.1 h
    have hmap : others.map (fun w => (capitalize (w.map Char.toLower)).map Char.toLower) =
        others.map fun w => w.map Char.toLower :=
      List.map_congr_left fun w hw => map_toLower_capitalize (hothers w hw)
    rw [capitalized, List.map_append, map_toLower_map_toLower hfirst, List.map_flatMap, List.flatMap_def, hmap,
      List.flatten_cons, List.map_append, List.map_flatten]

/-- Without its underscores, the snake-case form is the letters and digits of its words. -/
theorem filter_joined : (joined words).filter (· ≠ '_') = words.flatten.map Char.toLower := by
  induction words with
  | nil => rfl
  | cons w ws ih =>
    obtain ⟨hw, hws⟩ := List.forall_mem_cons.1 h
    -- a word has no underscores
    have hword : (w.map Char.toLower).filter (· ≠ '_') = w.map Char.toLower := by
      refine List.filter_eq_self.2 fun c hc => decide_eq_true fun hunder => ?_
      obtain ⟨d, hd, rfl⟩ := List.mem_map.1 hc
      have halnum := isAlphanum_toLower (hw d hd)
      rw [hunder] at halnum
      cases halnum
    cases ws with
    | nil => simpa [joined] using hword
    | cons v ws =>
      have hjoined : joined (w :: v :: ws) = w.map Char.toLower ++ '_' :: joined (v :: ws) := by
        simp [joined, List.intercalate_cons_cons]
      rw [hjoined, List.filter_append, hword, List.flatten_cons, List.map_append, ← ih hws]
      simp

end Words

/-! ## The two forms -/

/-- **The camel-case form is exact.**  A name has none exactly if it has no snake-case form, and for the same fault.
Otherwise it is made of letters and digits, does not begin with a capital, and is the snake-case form without the
underscores, once it is put in lower case.  Its words are those at the places of `wordPlaces`, and all its letters are
small but for the first ones of the words behind the first word. -/
theorem camelCase_exact (name : String) :
    (∀ fault, camelCase name = .error fault ↔ snakeCase name = .error fault) ∧
    ∀ snake, snakeCase name = .ok snake → ∃ camel, camelCase name = .ok camel ∧
      (camel ≠ "" ∧ ∀ c ∈ camel.toList, c.isAlphanum = true) ∧
      (∀ c ∈ camel.toList.head?, c.isUpper = false) ∧
      (lower camel).toList = snake.toList.filter (· ≠ '_') ∧
      camelWords name.toList = (wordPlaces name.toList).map (textAt name.toList) ∧
      camel.toList = capitalized ((wordPlaces name.toList).map (textAt name.toList)) := by
  have hsnake := snakeCase_eq name
  have hcamel := camelCase_eq name
  -- both forms are made from the letters and digits of the name
  have hnone : camelWords name.toList = [] ↔ snakeWords name.toList = [] :=
    (camelWords_eq_nil_iff _).trans blocks_eq_nil_iff.symm
  have hflatten : (camelWords name.toList).flatten = (snakeWords name.toList).flatten :=
    (flatten_camelWords _).trans (flatten_blocks _ _ _).symm
  have halnum : ∀ w ∈ camelWords name.toList, ∀ c ∈ w, c.isAlphanum = true := fun w hw c =>
    isAlphanum_of_mem_camelWords hw
  have halnum' : ∀ w ∈ snakeWords name.toList, ∀ c ∈ w, c.isAlphanum = true := fun w hw c =>
    isAlphanum_of_mem_snakeWords hw
  have hfilter := filter_joined halnum'
  have hlower := map_toLower_capitalized halnum
  rw [← camelWords_eq]
  cases hwords : camelWords name.toList with
  | nil =>
    rw [hwords] at hcamel
    rw [hnone.1 hwords] at hsnake
    refine ⟨fun fault => by rw [hcamel, hsnake], fun snake h => ?_⟩
    rw [hsnake] at h
    cases h
  | cons first others =>
    obtain ⟨w, ws, hsplit⟩ := List.exists_cons_of_ne_nil fun h => List.cons_ne_nil _ _ (hwords ▸ hnone.2 h)
    rw [hwords] at hcamel hlower hflatten halnum
    rw [hsplit] at hsnake hfilter hflatten
    constructor
    · intro fault
      rw [hcamel, hsnake]
      exact ⟨nofun, nofun⟩
    intro snake h
    obtain rfl := Except.ok.inj (hsnake.symm.trans h)
    obtain ⟨hne, hall⟩ := isAlphanum_of_camelCase hcamel
    refine ⟨_, hcamel, ⟨?_, hall⟩, isUpper_head_of_camelCase hcamel, ?_, rfl, String.toList_ofList⟩
    · exact fun h => hne (by rw [h]; rfl)
    · rw [lower, String.toList_ofList, lowerChars_of_ascii fun c hc => toNat_lt_of_isAlphanum (hall c hc),
        String.toList_ofList, String.toList_ofList, hlower, hfilter, hflatten]

/-- Digits stand in words of their own in the camel-case form, but not in the snake-case form. -/
theorem camelCase_exact_digits :
    snakeCase "getHTTPResponse2go" = .ok "get_http_response2go" ∧
    camelCase "getHTTPResponse2go" = .ok "getHttpResponse2Go" := by
  have hsnake : snakeCase "getHTTPResponse2go" = .ok "get_http_response2go" := by decide
  obtain ⟨camel, hcamel, -, -, -, -, hspelt⟩ := (camelCase_exact "getHTTPResponse2go").2 _ hsnake
  have hletters : camel.toList = "getHttpResponse2Go".toList := hspelt.trans (by decide)
  rw [String.toList_inj] at hletters
  exact ⟨hsnake, hletters ▸ hcamel⟩

end CrudScaffold.Naming
