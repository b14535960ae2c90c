import CrudScaffold.Proofs.Naming.Camel
import CrudScaffold.Proofs.Naming.Spelling
import CrudScaffold.Proofs.Text.Cutting

/-!
# CrudScaffold.Proofs.Naming.LastWord — the word of a name that is inflected

A last word is a suffix of the form that `IsTailWord` describes, and the longest one (`LastWord`).  A name that ends in
a letter or a digit has one, and `splitLastWord` finds it (`lastWord_splitLastWord`).  Inflecting the name inflects
this word as it would be inflected on its own, and leaves alone what stands before it (`LastWord.inflectLast_eq`).
-/

namespace CrudScaffold.Naming

open CrudScaffold.Text

/-! ### Last words -/

/-- Small letters and digits with at most one capital before them, or capitals. -/
inductive IsTailWord : List Char → Prop
  | low {w : List Char} (hne : w ≠ []) (h : ∀ c ∈ w, isLowerOrDigit c = true) : IsTailWord w
  | capital {c : Char} {w : List Char} (hc : c.isUpper = true) (hne : w ≠ []) (h : ∀ c ∈ w, isLowerOrDigit c = true) :
      IsTailWord (c :: w)
  | capitals {w : List Char} (hne : w ≠ []) (h : ∀ c ∈ w, c.isUpper = true) : IsTailWord w

/-- The text ends in the word, and in no longer one. -/
structure LastWord (cs before last : List Char) : Prop where
  append : cs = before ++ last
  word : IsTailWord last
  longest : ∀ w, w <:+ cs → IsTailWord w → w.length ≤ last.length

/-- The size of the last word of a text that is read from its end. -/
def tailSize (back : List Char) : Nat :=
  let low := back.takeWhile isLowerOrDigit
  if low.isEmpty then (back.takeWhile Char.isUpper).length
  else low.length + if (back.drop low.length).head?.any Char.isUpper then 1 else 0

theorem splitLastWord_eq (cs : List Char) : splitLastWord cs =
    if tailSize cs.reverse = 0 then ([], cs)
    else (cs.take (cs.length - tailSize cs.reverse), cs.drop (cs.length - tailSize cs.reverse)) := rfl

theorem isLowerOrDigit_of_isLower {c : Char} (h : c.isLower = true) : isLowerOrDigit c = true := by
  simp [isLowerOrDigit, h]

theorem isLowerOrDigit_of_isUpper {c : Char} (h : c.isUpper = true) : isLowerOrDigit c = false :=
  Bool.eq_false_iff.2 fun hlow => by simp [(isLowerOrDigit_fixed hlow).1] at h

/-- A letter or digit is a capital or belongs to a lowercase tail word. -/
theorem isAlphanum_eq_or (c : Char) : c.isAlphanum = (isLowerOrDigit c || c.isUpper) := by
  show ((c.isUpper || c.isLower) || c.isDigit) = ((c.isLower || c.isDigit) || c.isUpper)
  cases c.isUpper <;> cases c.isLower <;> cases c.isDigit <;> rfl

theorem IsTailWord.ne_nil {w : List Char} (h : IsTailWord w) : w ≠ [] := by
  cases h with
  | low hne => exact hne
  | capital => exact List.cons_ne_nil _ _
  | capitals hne => exact hne

theorem IsTailWord.isAlphanum {w : List Char} (h : IsTailWord w) : ∀ c ∈ w, c.isAlphanum = true := by
  cases h with
  | low _ h => exact fun c hc => isAlphanum_of_isLowerOrDigit (h c hc)
  | capital hc _ h =>
    exact List.forall_mem_cons.2 ⟨isAlphanum_of_isUpper hc, fun d hd => isAlphanum_of_isLowerOrDigit (h d hd)⟩
  | capitals _ h => exact fun c hc => isAlphanum_of_isUpper (h c hc)

/-- An ending of a tail word is one. -/
theorem IsTailWord.of_suffix {v w : List Char} (h : IsTailWord v) (hw : w <:+ v) (hne : w ≠ []) : IsTailWord w := by
  cases h with
  | low _ h => exact .low hne fun c hc => h c (hw.mem hc)
  | @capital c v hc hne' h =>
    rcases List.suffix_cons_iff.1 hw with rfl | hw
    · exact .capital hc hne' h
    · exact .low hne fun d hd => h d (hw.mem hd)
  | capitals _ h => exact .capitals hne fun c hc => h c (hw.mem hc)

/-- A tail word is the last word of a text exactly if the character in front of it does not belong to it. -/
theorem lastWord_iff {before w : List Char} :
    LastWord (before ++ w) before w ↔ IsTailWord w ∧ ∀ d ∈ before.getLast?, ¬ IsTailWord (d :: w) := by
  constructor
  · intro h
    refine ⟨h.word, fun d hd hlonger => ?_⟩
    obtain ⟨front, rfl⟩ := List.getLast?_eq_some_iff.1 hd
    have hle := h.longest (d :: w) ⟨front, by simp⟩ hlonger
    rw [List.length_cons] at hle
    omega
  · rintro ⟨hw, hfront⟩
    -- a longer word would have the word with one more character in it
    refine ⟨rfl, hw, fun v hv hv' => ?_⟩
    obtain ⟨rest, hrest⟩ := hv
    rcases List.append_eq_append_iff.1 hrest with ⟨between, rfl, rfl⟩ | ⟨between, rfl, rfl⟩
    · rcases List.eq_nil_or_concat between with rfl | ⟨between, d, rfl⟩
      · exact Nat.le_refl _
      · exact absurd (hv'.of_suffix ⟨between, by simp⟩ (List.cons_ne_nil d w)) (hfront d (by simp))
    · simp

/-- A text has one last word only. -/
theorem LastWord.unique {cs before last before' last' : List Char} (h : LastWord cs before last)
    (h' : LastWord cs before' last') : before = before' ∧ last = last' := by
  have hle := h'.longest last ⟨before, h.append.symm⟩ h.word
  have hge := h.longest last' ⟨before', h'.append.symm⟩ h'.word
  exact List.append_inj' (h.append.symm.trans h'.append) (Nat.le_antisymm hle hge)

/-! ### The scan from the end -/

theorem tailSize_low {low rest : List Char} (hne : low ≠ []) (hlow : ∀ c ∈ low, isLowerOrDigit c = true)
    (hrest : ∀ c ∈ rest.head?, isLowerOrDigit c = false) :
    tailSize (low ++ rest) = low.length + if rest.head?.any Char.isUpper then 1 else 0 := by
  simp [tailSize, (takeWhile_append_stop hlow hrest).1, hne]

theorem tailSize_capitals {capitals rest : List Char} (hne : capitals ≠ []) (h : ∀ c ∈ capitals, c.isUpper = true)
    (hrest : ∀ c ∈ rest.head?, c.isUpper = false) : tailSize (capitals ++ rest) = capitals.length := by
  have hlow : (capitals ++ rest).takeWhile isLowerOrDigit = [] := by
    obtain ⟨c, capitals, rfl⟩ := List.exists_cons_of_ne_nil hne
    have hc := isLowerOrDigit_of_isUpper (h c List.mem_cons_self)
    simp [hc]
  simp [tailSize, hlow, (takeWhile_append_stop h hrest).1]

/-- A word at the end of a text is not longer than what the scan from the end finds. -/
theorem IsTailWord.length_le_tailSize {w back : List Char} (h : IsTailWord w) (hback : w.reverse <+: back) :
    w.length ≤ tailSize back := by
  obtain ⟨rest, rfl⟩ := hback
  -- what is scanned from the end is at least the word
  cases h with
  | low hne h =>
    obtain ⟨more, rest, rfl, hmore, hrest⟩ := exists_scan isLowerOrDigit rest
    have hall : ∀ c ∈ w.reverse ++ more, isLowerOrDigit c = true :=
      List.forall_mem_append.2 ⟨by simpa using h, hmore⟩
    rw [← List.append_assoc, tailSize_low (by simp [hne]) hall hrest]
    simp
    omega
  | @capital c w hc hne h =>
    have hrest : ∀ d ∈ (c :: rest).head?, isLowerOrDigit d = false := by simpa using isLowerOrDigit_of_isUpper hc
    rw [List.reverse_cons, List.append_assoc, List.singleton_append, tailSize_low (by simp [hne]) (by simpa using h) hrest]
    simp [hc]
  | capitals hne h =>
    obtain ⟨more, rest, rfl, hmore, hrest⟩ := exists_scan Char.isUpper rest
    have hall : ∀ c ∈ w.reverse ++ more, c.isUpper = true :=
      List.forall_mem_append.2 ⟨by simpa using h, hmore⟩
    rw [← List.append_assoc, tailSize_capitals (by simp [hne]) hall hrest]
    simp

/-- The scan from the end finds a word, if it starts at a letter or a digit. -/
theorem isTailWord_take_tailSize {back : List Char} (h : ∃ c ∈ back.head?, c.isAlphanum = true) :
    IsTailWord (back.take (tailSize back)).reverse := by
  -- small letters and digits, then one capital; or capitals only
  obtain ⟨low, rest, rfl, hlow, hrest⟩ := exists_scan isLowerOrDigit back
  by_cases hne : low = []
  · subst hne
    obtain ⟨capitals, rest, rfl, hcapitals, hrest'⟩ := exists_scan Char.isUpper rest
    have hsome : capitals ≠ [] := by
      rintro rfl
      obtain ⟨c, hc, halnum⟩ := h
      rw [isAlphanum_eq_or, hrest c hc, hrest' c hc] at halnum
      cases halnum
    rw [List.nil_append, tailSize_capitals hsome hcapitals hrest', List.take_left]
    exact .capitals (by simpa using hsome) (by simpa using hcapitals)
  · rw [tailSize_low hne hlow hrest]
    cases rest with
    | nil =>
      simp
      exact .low (by simpa using hne) (by simpa using hlow)
    | cons c rest =>
      cases hc : c.isUpper with
      | false =>
        simp [hc]
        exact .low (by simpa using hne) (by simpa using hlow)
      | true =>
        have htake : (low ++ c :: rest).take (low.length + 1) = low ++ [c] := List.take_length_add_append 1
        simp only [List.head?_cons, Option.any_some, hc, if_true, htake, List.reverse_append, List.reverse_singleton]
        exact .capital hc (by simpa using hne) (by simpa using hlow)

/-- **The last word of a name.**  Splitting finds it, if the name ends in a letter or a digit. -/
theorem lastWord_splitLastWord {cs : List Char} (h : ∃ c ∈ cs.getLast?, c.isAlphanum = true) :
    LastWord cs (splitLastWord cs).1 (splitLastWord cs).2 := by
  rw [← List.head?_reverse] at h
  have hword := isTailWord_take_tailSize h
  rw [List.take_reverse, List.reverse_reverse] at hword
  have hsize : tailSize cs.reverse ≠ 0 := by
    intro hzero
    rw [hzero, Nat.sub_zero, List.drop_length] at hword
    exact hword.ne_nil rfl
  rw [splitLastWord_eq, if_neg hsize]
  refine ⟨(List.take_append_drop _ _).symm, hword, fun w hw hw' => ?_⟩
  have hle := hw'.length_le_tailSize (List.reverse_prefix.2 hw)
  have hlength := hw.length_le
  rw [List.length_drop]
  omega

/-! ### Inflecting -/

/-- A word behind something other than a letter or a digit is the last one. -/
theorem lastWord_append {front w : List Char} (hfront : ∀ c ∈ front.getLast?, c.isAlphanum = false)
    (hw : IsTailWord w) : LastWord (front ++ w) front w := by
  refine lastWord_iff.2 ⟨hw, fun d hd hlonger => ?_⟩
  have hd := hfront d hd
  rw [hlonger.isAlphanum d List.mem_cons_self] at hd
  cases hd

theorem IsTailWord.lastWord {w : List Char} (h : IsTailWord w) : LastWord w [] w := by
  have hnone : ∀ c ∈ ([] : List Char).getLast?, c.isAlphanum = false := nofun
  exact lastWord_append hnone h

namespace LastWord

variable {cs before last : List Char}

/-- A text with a last word ends in a letter or a digit. -/
theorem exists_getLast (h : LastWord cs before last) : ∃ c ∈ cs.getLast?, c.isAlphanum = true := by
  have hne := h.word.ne_nil
  have hlast : cs.getLast? = some (last.getLast hne) := by
    rw [h.append, List.getLast?_append_of_ne_nil _ hne, List.getLast?_eq_some_getLast hne]
  exact ⟨last.getLast hne, hlast, h.word.isAlphanum _ (List.getLast_mem hne)⟩

theorem splitLastWord_eq (h : LastWord cs before last) : splitLastWord cs = (before, last) := by
  obtain ⟨hbefore, hlast⟩ := (lastWord_splitLastWord h.exists_getLast).unique h
  exact Prod.ext hbefore hlast

/-- Inflecting a name inflects its last word. -/
theorem inflectLast_eq (h : LastWord cs before last) (inflect : List Char → List Char) :
    inflectLast inflect cs = before ++ inflectLast inflect last := by
  rw [inflectLast, inflectLast, h.splitLastWord_eq, h.word.lastWord.splitLastWord_eq]
  rfl

end LastWord

/-- A word on its own is inflected in lower case, and gets its letter case back. -/
theorem IsTailWord.inflectLast_eq {w : List Char} (h : IsTailWord w) (inflect : List Char → List Char) :
    inflectLast inflect w = matchCase w (inflect (w.map Char.toLower)) := by
  have hlower := lowerChars_of_ascii fun c hc => toNat_lt_of_isAlphanum (h.isAlphanum c hc)
  rw [inflectLast, h.lastWord.splitLastWord_eq, ← hlower]
  rfl

/-- Without blanks in it, every text that is not empty has a plural. -/
theorem plural_eq {name : String} (hne : name.toList ≠ []) (h : ∀ c ∈ name.toList, isBlank c = false) :
    plural name = .ok (String.ofList (inflectLast pluralWord name.toList)) := by
  have htrim : trim name.toList = name.toList :=
    trim_eq_self_iff.2 ⟨fun c hc => h c (List.mem_of_mem_head? hc), fun c hc => h c (List.mem_of_mem_getLast? hc)⟩
  rw [plural, nameChars_of_ne_nil (by rwa [htrim]), htrim]
  rfl

/-- The plural of a name has the plural of its last word in place of this word. -/
theorem LastWord.plural_eq {name : String} {before last : List Char} (h : LastWord name.toList before last)
    (hvisible : ∀ c ∈ name.toList, isBlank c = false) : ∃ many, plural (String.ofList last) = .ok many ∧
      plural name = .ok (String.ofList (before ++ many.toList)) ∧ many.toList = inflectLast pluralWord last := by
  have happend := h.append
  have hne : name.toList ≠ [] := by simp [happend, h.word.ne_nil]
  have hlast : ∀ c ∈ (String.ofList last).toList, isBlank c = false := by
    rw [String.toList_ofList]
    exact fun c hc => isBlank_of_isAlphanum (h.word.isAlphanum c hc)
  have hword := Naming.plural_eq (by simpa using h.word.ne_nil) hlast
  refine ⟨_, hword, ?_, by simp only [String.toList_ofList]⟩
  rw [Naming.plural_eq hne hvisible, h.inflectLast_eq]
  simp only [String.toList_ofList]

/-! ### Snake-case texts -/

/-- Words of small letters and digits, joined by single underscores. -/
def IsSnakeText (s : String) : Prop :=
  ∃ words, words ≠ [] ∧ (∀ w ∈ words, IsSnakeWord w) ∧ s.toList = ['_'].intercalate words

theorem isSnakeText_of_snakeCase {name s : String} (h : snakeCase name = .ok s) : IsSnakeText s := by
  refine ⟨_, ?_, fun w => isSnakeWord_of_mem, snakeCase_ok h⟩
  have h := nameChars_bind_ok h
  intro hnil
  simp only [(underscored_eq_nil_iff _).2 (List.map_eq_nil_iff.1 hnil)] at h
  cases h

theorem intercalate_append {sep : List Char} {xs ys : List (List Char)} (hxs : xs ≠ []) (hys : ys ≠ []) :
    sep.intercalate (xs ++ ys) = sep.intercalate xs ++ sep ++ sep.intercalate ys := by
  induction xs with
  | nil => exact absurd rfl hxs
  | cons x xs ih =>
    by_cases hnil : xs = []
    · subst hnil
      rw [List.singleton_append, List.intercalate_cons_of_ne_nil hys, List.intercalate_singleton]
    · have hne : xs ++ ys ≠ [] := by simp [hnil]
      rw [List.cons_append, List.intercalate_cons_of_ne_nil hne, List.intercalate_cons_of_ne_nil hnil, ih hnil]
      simp only [List.append_assoc]

theorem isSnakeChar_of_isLowerOrDigit {c : Char} (h : isLowerOrDigit c = true) : isSnakeChar c = true := by
  simp [isSnakeChar, isAlphanum_of_isLowerOrDigit h, (isLowerOrDigit_fixed h).1]

theorem isBlank_of_isSnakeChar {c : Char} (h : isSnakeChar c = true) : isBlank c = false := by
  rcases isSnakeChar_iff.1 h with h | h | rfl
  · exact isBlank_of_isAlphanum (isAlphanum_of_isLower h)
  · exact isBlank_of_isAlphanum (by grind)
  · rfl

theorem pluralWord_ne_nil {w : List Char} (h : w ≠ []) : pluralWord w ≠ [] := by
  -- no rule takes a whole word away
  have hregular : regularPlural w ≠ [] := by
    unfold regularPlural
    repeat' split
    · exact h
    all_goals simp
  have htable : ∀ p ∈ irregular, p.2.toList ≠ [] := by decide
  unfold pluralWord
  split
  · exact h
  cases himage : irregularPlural? w with
  | none => exact hregular
  | some image =>
    obtain ⟨p, hp, -, rfl⟩ := irregularPlural_ok himage
    exact htable p hp

namespace IsSnakeWord

variable {w : List Char}

/-- Words of small letters and digits have plurals of this kind. -/
theorem pluralWord (h : IsSnakeWord w) : IsSnakeWord (pluralWord w) := by
  refine ⟨pluralWord_ne_nil h.ne_nil, fun c hc => ?_⟩
  rcases mem_pluralWord hc with hc | hc
  · exact h.low c hc
  · exact isLowerOrDigit_of_isLower hc

/-- A word in small letters leaves the letter case of others as it is. -/
theorem matchCase_eq (h : IsSnakeWord w) (v : List Char) : matchCase w v = v :=
  matchCase_of_isSnakeChar (fun c hc => isSnakeChar_of_isLowerOrDigit (h.low c hc)) v

theorem inflectLast_eq (h : IsSnakeWord w) (inflect : List Char → List Char) : inflectLast inflect w = inflect w := by
  rw [(IsTailWord.low h.ne_nil h.low).inflectLast_eq, h.map_toLower, h.matchCase_eq]

end IsSnakeWord

/-- A word that begins with no capital has none. -/
theorem IsTailWord.isSnakeWord {w : List Char} (h : IsTailWord w) (hsmall : ∀ c ∈ w.head?, c.isUpper = false) :
    IsSnakeWord w := by
  cases h with
  | low hne h => exact ⟨hne, h⟩
  | @capital c w hc =>
    have hsmall := hsmall c rfl
    rw [hc] at hsmall
    cases hsmall
  | capitals hne h =>
    obtain ⟨c, w, rfl⟩ := List.exists_cons_of_ne_nil hne
    have hsmall := hsmall c rfl
    rw [h c List.mem_cons_self] at hsmall
    cases hsmall

theorem IsSnakeText.isSnakeChar {s : String} (h : IsSnakeText s) : ∀ c ∈ s.toList, isSnakeChar c = true := by
  obtain ⟨words, -, hwords, hs⟩ := h
  intro c hc
  rw [hs] at hc
  rcases mem_intercalate hc with hc | ⟨w, hw, hc⟩
  · obtain rfl := List.mem_singleton.1 hc
    rfl
  · exact isSnakeChar_of_isLowerOrDigit ((hwords w hw).low c hc)

/-- A snake-case text is its own snake-case form. -/
theorem IsSnakeText.snakeCase_eq {s : String} (h : IsSnakeText s) : snakeCase s = .ok s := by
  obtain ⟨words, hne, hwords, hs⟩ := h
  obtain ⟨hagain, hfixed⟩ := snakeWords_joined hwords
  have hform := Naming.snakeCase_eq s
  rw [hs, hagain] at hform
  obtain ⟨w, ws, rfl⟩ := List.exists_cons_of_ne_nil hne
  rw [hform]
  show Except.ok (String.ofList (joined (w :: ws))) = _
  rw [hfixed, ← hs, String.ofList_toList]

/-- The last word of a snake-case text stands behind its last underscore, if it has one. -/
theorem IsSnakeText.exists_lastWord {s : String} (h : IsSnakeText s) : ∃ front word,
    LastWord s.toList front word ∧ IsSnakeWord word ∧ (front = [] ∨ ∃ words, words ≠ [] ∧ (∀ w ∈ words, IsSnakeWord w) ∧
      front = ['_'].intercalate words ++ ['_']) := by
  obtain ⟨words, hne, hwords, hs⟩ := h
  -- the last of the snake-case words is the last word
  rcases List.eq_nil_or_concat words with rfl | ⟨words, word, rfl⟩
  · exact absurd rfl hne
  rw [List.concat_eq_append] at hwords hs
  obtain ⟨hinit, hlast⟩ := List.forall_mem_append.1 hwords
  have hword := hlast word (by simp)
  have htail : IsTailWord word := .low hword.ne_nil hword.low
  by_cases hnil : words = []
  · subst hnil
    rw [List.nil_append, List.intercalate_singleton] at hs
    exact ⟨[], word, hs ▸ htail.lastWord, hword, Or.inl rfl⟩
  · rw [intercalate_append hnil (by simp), List.intercalate_singleton] at hs
    have hunder : ∀ c ∈ (['_'].intercalate words ++ ['_']).getLast?, c.isAlphanum = false := by simp
    exact ⟨_, word, hs ▸ lastWord_append hunder htail, hword, Or.inr ⟨words, hnil, hinit, rfl⟩⟩

/-- The plural of a snake-case text is a snake-case text, with its last word in the plural. -/
theorem IsSnakeText.exists_plural {s : String} (h : IsSnakeText s) : ∃ front word many,
    LastWord s.toList front word ∧ IsSnakeWord word ∧ (front = [] ∨ ∃ before, front = before ++ ['_']) ∧
      plural s = .ok many ∧ many.toList = front ++ pluralWord word ∧ IsSnakeText many := by
  obtain ⟨front, word, hlast, hword, hfront⟩ := h.exists_lastWord
  obtain ⟨many, hmany, hwhole, hletters⟩ := hlast.plural_eq fun c hc => isBlank_of_isSnakeChar (h.isSnakeChar c hc)
  rw [hword.inflectLast_eq] at hletters
  rw [hletters] at hwhole
  refine ⟨front, word, _, hlast, hword, hfront.imp_right fun ⟨words, _, _, h⟩ => ⟨_, h⟩, hwhole, String.toList_ofList, ?_⟩
  rcases hfront with rfl | ⟨words, hne, hwords, rfl⟩
  · exact ⟨[pluralWord word], by simp, by simpa using hword.pluralWord, by simp⟩
  · refine ⟨words ++ [pluralWord word], by simp, ?_, ?_⟩
    · exact List.forall_mem_append.2 ⟨hwords, by simpa using hword.pluralWord⟩
    · rw [intercalate_append hne (by simp), List.intercalate_singleton, String.toList_ofList]

end CrudScaffold.Naming
