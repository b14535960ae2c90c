import CrudScaffold.Proofs.Naming.Passes
import CrudScaffold.Proofs.Runs
import CrudScaffold.Spec.Pivot

/-!
# CrudScaffold.Proofs.Naming.Snake — what table names are made of

The snake-case form of a name has its letters and digits, in lower case, and underscores besides.  The plural of such
a form is of the same kind, and loses one letter at most (`letters_pluralSnake`): `criterion` gives `criteria`.
-/

namespace CrudScaffold.Naming

open CrudScaffold.Text

/-- A lowercase letter, a digit or an underscore. -/
def isSnakeChar (c : Char) : Bool := c.isAlphanum && !c.isUpper || c == '_'

theorem isSnakeChar_iff {c : Char} : isSnakeChar c = true ↔ c.isLower = true ∨ c.isDigit = true ∨ c = '_' := by
  rw [isSnakeChar, Bool.or_eq_true, Bool.and_eq_true, Bool.not_eq_true', beq_iff_eq]
  grind

/-- The number of letters and digits of a text. -/
def letters (cs : List Char) : Nat := cs.countP Char.isAlphanum

@[simp] theorem letters_append (xs ys : List Char) : letters (xs ++ ys) = letters xs + letters ys :=
  List.countP_append

theorem letters_trim (cs : List Char) : letters (trim cs) = letters cs :=
  countP_trim (fun _ => isBlank_of_isAlphanum) cs

theorem nameChars_ok {name : String} {cs : List Char} (h : nameChars name = .ok cs) :
    cs = trim name.toList ∧ cs ≠ [] := by
  unfold nameChars at h
  simp only at h
  split at h
  · cases h
  · rename_i hne
    cases h
    exact ⟨rfl, by simpa using hne⟩

theorem nameChars_of_ne_nil {name : String} (h : trim name.toList ≠ []) : nameChars name = .ok (trim name.toList) :=
  if_neg fun hempty => h (List.isEmpty_iff.1 hempty)

/-- A derivation goes on with the characters of the name. -/
theorem nameChars_bind_ok {α : Type} {name : String} {f : List Char → Except NameFault α} {a : α}
    (h : nameChars name >>= f = .ok a) : f (trim name.toList) = .ok a := by
  obtain ⟨cs, hcs, h⟩ := bind_eq_ok.1 h
  rwa [← (nameChars_ok hcs).1]

/-! ### The snake-case form -/

theorem letters_intercalate {sep : List Char} (hsep : letters sep = 0) (ws : List (List Char)) :
    letters (sep.intercalate ws) = letters ws.flatten := by
  induction ws with
  | nil => rfl
  | cons w ws ih =>
    by_cases hnil : ws = []
    · subst hnil
      simp
    · rw [List.intercalate_cons_of_ne_nil hnil, letters_append, letters_append, hsep, ih, List.flatten_cons,
        letters_append, Nat.add_zero]

/-- The words of a name hold its letters and digits and nothing else. -/
theorem isAlphanum_of_mem_snakeWords {cs w : List Char} {c : Char} (hw : w ∈ snakeWords cs) (hc : c ∈ w) :
    c.isAlphanum = true := (mem_of_mem_blocks hw hc).2

theorem map_intercalate_underscore (ws : List (List Char)) :
    (['_'].intercalate ws).map Char.toLower = ['_'].intercalate (ws.map fun w => w.map Char.toLower) := by
  induction ws with
  | nil => rfl
  | cons w ws ih =>
    cases ws with
    | nil => simp
    | cons v ws =>
      rw [List.map_cons] at ih
      rw [List.map_cons, List.map_cons, List.intercalate_cons_cons, List.intercalate_cons_cons, List.map_append,
        List.map_append, ih]
      rfl

/-- What the passes give is the words of the text in lower case, joined. -/
theorem lowerChars_underscored (cs : List Char) :
    lowerChars (underscored cs) = ['_'].intercalate ((snakeWords cs).map fun w => w.map Char.toLower) := by
  rw [underscored_eq, lowerChars_of_ascii, map_intercalate_underscore]
  intro c hc
  rcases mem_intercalate hc with hc | ⟨w, hw, hc⟩
  · obtain rfl : c = '_' := by simpa using hc
    decide
  · exact toNat_lt_of_isAlphanum (isAlphanum_of_mem_snakeWords hw hc)

/-- The passes leave nothing of a text without words. -/
theorem underscored_eq_nil_iff (cs : List Char) : underscored cs = [] ↔ snakeWords cs = [] := by
  rw [underscored_eq]
  constructor
  · intro h
    cases hwords : snakeWords cs with
    | nil => rfl
    | cons w ws =>
      have hne : w ≠ [] := ne_nil_of_mem_blocks (hwords ▸ List.mem_cons_self : w ∈ snakeWords cs)
      rw [hwords] at h
      cases ws with
      | nil => exact absurd (by simpa using h) hne
      | cons v ws => simp [List.intercalate_cons_cons] at h
  · intro h
    rw [h]
    rfl

theorem snakeCase_ok {name s : String} (h : snakeCase name = .ok s) :
    s.toList = ['_'].intercalate ((snakeWords (trim name.toList)).map fun w => w.map Char.toLower) := by
  have h := nameChars_bind_ok h
  simp only at h
  split at h
  · cases h
  · rw [← Except.ok.inj h, String.toList_ofList, lowerChars_underscored]

theorem isSnakeChar_of_snakeCase {name s : String} (h : snakeCase name = .ok s) :
    ∀ c ∈ s.toList, isSnakeChar c = true := by
  intro c hc
  rw [snakeCase_ok h] at hc
  rcases mem_intercalate hc with hc | ⟨w, hw, hc⟩
  · obtain rfl : c = '_' := by simpa using hc
    rfl
  · obtain ⟨v, hv, rfl⟩ := List.mem_map.1 hw
    obtain ⟨d, hd, rfl⟩ := List.mem_map.1 hc
    have hd := isAlphanum_of_mem_snakeWords hv hd
    rw [isSnakeChar, isAlphanum_toLower hd, isUpper_toLower]
    rfl

theorem letters_snakeCase {name s : String} (h : snakeCase name = .ok s) : letters s.toList = letters name.toList := by
  rw [snakeCase_ok h, letters_intercalate (by decide), ← List.map_flatten, snakeWords, flatten_blocks,
    ← letters_trim name.toList]
  unfold letters
  rw [List.countP_map, List.countP_filter]
  refine List.countP_congr fun c _ => ?_
  simp only [Function.comp_apply, Bool.and_eq_true, and_iff_right_iff_imp]
  exact isAlphanum_toLower

/-! ### The lists of words -/

/-- A word of small letters, two at least. -/
structure IsSmallWord (w : List Char) : Prop where
  length : 1 < w.length
  small : ∀ c ∈ w, c.isLower = true

instance : DecidablePred IsSmallWord := fun w =>
  decidable_of_iff (1 < w.length ∧ w.all Char.isLower = true)
    ⟨fun h => ⟨h.1, List.all_eq_true.1 h.2⟩, fun h => ⟨h.length, List.all_eq_true.2 h.small⟩⟩

theorem uncountable_small : ∀ u ∈ uncountable, IsSmallWord u.toList := by decide

/-- The irregular plurals have one letter less than their words at most. -/
theorem irregular_small : ∀ p ∈ irregular, IsSmallWord p.1.toList ∧ IsSmallWord p.2.toList ∧
    p.1.toList.length ≤ p.2.toList.length + 1 := by decide

theorem IsSmallWord.letters_eq {w : List Char} (h : IsSmallWord w) : letters w = w.length :=
  List.countP_eq_length.2 fun c hc => isAlphanum_of_isLower (h.small c hc)

theorem any_getLast {p : Char → Bool} {w : List Char} (hne : w ≠ []) (h : ∀ c ∈ w, p c = true) :
    w.getLast?.any p = true := by
  rw [List.getLast?_eq_some_getLast hne, Option.any_some]
  exact h _ (List.getLast_mem hne)

theorem IsSmallWord.getLast {w : List Char} (h : IsSmallWord w) : w.getLast?.any Char.isLower = true :=
  any_getLast (List.ne_nil_of_length_pos (Nat.zero_lt_of_lt h.length)) h.small

/-- A small letter stands before the last one. -/
theorem IsSmallWord.dropLast {w : List Char} (h : IsSmallWord w) : w.dropLast.getLast?.any Char.isLower = true := by
  have hlength := h.length
  refine any_getLast (List.ne_nil_of_length_pos ?_) fun c hc => h.small c (List.dropLast_subset w hc)
  rw [List.length_dropLast]
  omega

/-! ### Plurals -/

theorem letters_dropEnd (n : Nat) (word : List Char) : letters word ≤ letters (dropEnd n word) + n := by
  have hlen : (word.drop (word.length - n)).length ≤ n := by
    rw [List.length_drop]
    omega
  have hcount : letters (word.drop (word.length - n)) ≤ (word.drop (word.length - n)).length := List.countP_le_length
  have hsplit : letters word = letters (dropEnd n word) + letters (word.drop (word.length - n)) := by
    rw [dropEnd, ← letters_append, List.take_append_drop]
  omega

theorem letters_regularPlural (word : List Char) : letters word ≤ letters (regularPlural word) := by
  have h1 := letters_dropEnd 1 word
  have h2 := letters_dropEnd 2 word
  have hes : letters ['e', 's'] = 2 := rfl
  have hies : letters ['i', 'e', 's'] = 3 := rfl
  unfold regularPlural
  repeat' split
  · exact Nat.le_refl _
  all_goals
    rw [letters_append]
    omega

/-- A regular plural adds small letters only. -/
theorem mem_regularPlural {word : List Char} {c : Char} (h : c ∈ regularPlural word) : c ∈ word ∨ c.isLower = true := by
  have hdrop : ∀ n, c ∈ dropEnd n word → c ∈ word := fun n => List.mem_of_mem_take
  have happ : ∀ {front back : List Char}, (c ∈ front → c ∈ word) → back.all Char.isLower = true → c ∈ front ++ back →
      c ∈ word ∨ c.isLower = true := fun hf hb hc =>
    (List.mem_append.1 hc).imp hf (List.all_eq_true.1 hb c)
  unfold regularPlural at h
  repeat' split at h
  · exact Or.inl h
  · exact happ (hdrop 2) (by decide) h
  · exact happ id (by decide) h
  · exact happ (hdrop 1) (by decide) h
  · exact happ id (by decide) h

/-- An irregular plural is one of the table. -/
theorem irregularPlural_ok {word image : List Char} (h : irregularPlural? word = some image) :
    ∃ p ∈ irregular, p.1.toList = word ∧ p.2.toList = image := by
  unfold irregularPlural? at h
  obtain ⟨p, hp, rfl⟩ := Option.map_eq_some_iff.1 h
  exact ⟨p, List.mem_of_find?_eq_some hp, by simpa using List.find?_some hp, rfl⟩

theorem letters_pluralWord (word : List Char) : letters word ≤ letters (pluralWord word) + 1 := by
  unfold pluralWord
  split
  · omega
  cases h : irregularPlural? word with
  | none =>
    have := letters_regularPlural word
    simp only [Option.getD_none]
    omega
  | some image =>
    obtain ⟨p, hp, rfl, rfl⟩ := irregularPlural_ok h
    obtain ⟨hone, hmany, hlength⟩ := irregular_small p hp
    rwa [Option.getD_some, hone.letters_eq, hmany.letters_eq]

/-- A plural adds small letters only. -/
theorem mem_pluralWord {word : List Char} {c : Char} (h : c ∈ pluralWord word) : c ∈ word ∨ c.isLower = true := by
  unfold pluralWord at h
  split at h
  · exact Or.inl h
  cases himage : irregularPlural? word with
  | none =>
    rw [himage] at h
    exact mem_regularPlural h
  | some image =>
    rw [himage] at h
    obtain ⟨p, hp, -, rfl⟩ := irregularPlural_ok himage
    exact Or.inr ((irregular_small p hp).2.1.small c h)

theorem isSnakeChar_pluralWord {word : List Char} (hword : ∀ c ∈ word, isSnakeChar c = true) :
    ∀ c ∈ pluralWord word, isSnakeChar c = true := by
  intro c hc
  rcases mem_pluralWord hc with hc | hc
  · exact hword c hc
  · exact isSnakeChar_iff.2 (Or.inl hc)

theorem splitLastWord_append (cs : List Char) : (splitLastWord cs).1 ++ (splitLastWord cs).2 = cs := by
  have hsplit : ∀ (size : Nat) (r : List Char × List Char),
      r = (if size = 0 then ([], cs) else (cs.take (cs.length - size), cs.drop (cs.length - size))) →
        r.1 ++ r.2 = cs := by
    rintro size r rfl
    split
    · rfl
    · exact List.take_append_drop _ _
  exact hsplit _ _ rfl

/-! ### Lower case, and the letter case of a pattern -/

theorem toNat_lt_of_isSnakeChar {c : Char} (h : isSnakeChar c = true) : c.toNat < 128 := by
  rcases isSnakeChar_iff.1 h with h | h | rfl
  · grind
  · grind
  · decide

theorem isUpper_of_isSnakeChar {c : Char} (h : isSnakeChar c = true) : c.isUpper = false := by
  rcases isSnakeChar_iff.1 h with h | h | rfl
  · grind
  · grind
  · rfl

theorem isUpperChar_of_isSnakeChar {c : Char} (h : isSnakeChar c = true) : isUpperChar c = false :=
  (if_pos (toNat_lt_of_isSnakeChar h)).trans (isUpper_of_isSnakeChar h)

theorem lowerChars_of_isSnakeChar {cs : List Char} (h : ∀ c ∈ cs, isSnakeChar c = true) : lowerChars cs = cs := by
  have hlower : ∀ c ∈ cs, c.toLower = c := fun c hc => toLower_of_not_isUpper (isUpper_of_isSnakeChar (h c hc))
  rw [lowerChars_of_ascii fun c hc => toNat_lt_of_isSnakeChar (h c hc), List.map_congr_left hlower, List.map_id']

theorem matchCase_of_isSnakeChar {pattern : List Char} (h : ∀ c ∈ pattern, isSnakeChar c = true)
    (inflected : List Char) : matchCase pattern inflected = inflected := by
  have hany : pattern.any isUpperChar = false :=
    List.any_eq_false.2 fun c hc => by simp [isUpperChar_of_isSnakeChar (h c hc)]
  have hhead : pattern.head?.any isUpperChar = false := by
    cases pattern with
    | nil => rfl
    | cons c cs => simpa using isUpperChar_of_isSnakeChar (h c List.mem_cons_self)
  simp [matchCase, isUpperText, hany, hhead]

/-! ### Table names -/

theorem toList_plural {name s : String} (h : plural name = .ok s) :
    s.toList = (splitLastWord (trim name.toList)).1 ++
      matchCase (splitLastWord (trim name.toList)).2
        (pluralWord (lowerChars (splitLastWord (trim name.toList)).2)) := by
  have h := nameChars_bind_ok h
  rw [← Except.ok.inj h, String.toList_ofList, inflectLast]

theorem plural_ok {name s : String} (hname : ∀ c ∈ name.toList, isSnakeChar c = true) (h : plural name = .ok s) :
    s.toList = (splitLastWord (trim name.toList)).1 ++ pluralWord (splitLastWord (trim name.toList)).2 := by
  have hlast : ∀ c ∈ (splitLastWord (trim name.toList)).2, isSnakeChar c = true := by
    intro c hc
    have hmem := List.mem_append_right (splitLastWord (trim name.toList)).1 hc
    rw [splitLastWord_append] at hmem
    exact hname c (mem_trim hmem)
  rw [toList_plural h, lowerChars_of_isSnakeChar hlast, matchCase_of_isSnakeChar hlast]

theorem pluralSnake_ok {name s : String} (h : pluralSnake name = .ok s) :
    ∃ snake, snakeCase name = .ok snake ∧ plural snake = .ok s := bind_eq_ok.1 h

theorem isSnakeChar_of_pluralSnake {name s : String} (h : pluralSnake name = .ok s) :
    ∀ c ∈ s.toList, isSnakeChar c = true := by
  obtain ⟨snake, hs, hp⟩ := pluralSnake_ok h
  have hsnake := isSnakeChar_of_snakeCase hs
  have hall : ∀ c ∈ (splitLastWord (trim snake.toList)).1 ++ (splitLastWord (trim snake.toList)).2,
      isSnakeChar c = true := by
    rw [splitLastWord_append]
    exact fun c hc => hsnake c (mem_trim hc)
  intro c hc
  rw [plural_ok hsnake hp, List.mem_append] at hc
  rcases hc with hc | hc
  · exact hall c (List.mem_append_left _ hc)
  · exact isSnakeChar_pluralWord (fun d hd => hall d (List.mem_append_right _ hd)) c hc

/-- A table name has at most one letter less than the name of its entity. -/
theorem letters_pluralSnake {name s : String} (h : pluralSnake name = .ok s) :
    letters name.toList ≤ letters s.toList + 1 := by
  obtain ⟨snake, hs, hp⟩ := pluralSnake_ok h
  have hword := letters_pluralWord (splitLastWord (trim snake.toList)).2
  have hsplit : letters snake.toList =
      letters (splitLastWord (trim snake.toList)).1 + letters (splitLastWord (trim snake.toList)).2 := by
    rw [← letters_append, splitLastWord_append, letters_trim]
  rw [plural_ok (isSnakeChar_of_snakeCase hs) hp, letters_append, ← letters_snakeCase hs]
  omega

/-! ### Names of join tables -/

theorem isSnakeChar_of_pivotPart {name s : String} (h : Spec.pivotPart name = .ok s) :
    ∀ c ∈ s.toList, isSnakeChar c = true := by
  obtain ⟨base, -, h⟩ := bind_eq_ok.1 h
  obtain ⟨one, -, h⟩ := bind_eq_ok.1 h
  exact isSnakeChar_of_snakeCase h

theorem isSnakeChar_of_pivotName {entity related s : String} (h : Spec.pivotName entity related = .ok s) :
    ∀ c ∈ s.toList, isSnakeChar c = true := by
  obtain ⟨a, ha, h⟩ := bind_eq_ok.1 h
  obtain ⟨b, hb, h⟩ := bind_eq_ok.1 h
  -- the parts are joined by an underscore, in either order
  have hjoined : ∀ x y : String, (∀ c ∈ x.toList, isSnakeChar c = true) → (∀ c ∈ y.toList, isSnakeChar c = true) →
      ∀ c ∈ (x ++ "_" ++ y).toList, isSnakeChar c = true := by
    intro x y hx hy c hc
    simp only [String.toList_append, List.mem_append] at hc
    rcases hc with (hc | hc) | hc
    · exact hx c hc
    · obtain rfl : c = '_' := by simpa using hc
      rfl
    · exact hy c hc
  obtain rfl := Except.ok.inj h
  split
  · exact hjoined b a (isSnakeChar_of_pivotPart hb) (isSnakeChar_of_pivotPart ha)
  · exact hjoined a b (isSnakeChar_of_pivotPart ha) (isSnakeChar_of_pivotPart hb)

end CrudScaffold.Naming
