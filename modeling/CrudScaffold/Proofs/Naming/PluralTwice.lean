import CrudScaffold.Proofs.Naming.Inflected
import CrudScaffold.Proofs.Naming.OpenEnds

/-!
# CrudScaffold.Proofs.Naming.PluralTwice — pluralising a plural

A plural is its own plural, except for the names that grow again: the last word gets an `s` and then looks like a
singular (`Regrows`), or the name is in capitals and ends in the sharp s, which is spelt out (`GrowsAgain`,
`plural_plural`).  The last word of a plural decides (`LastWord.inflectLast_eq_self_iff`), and it is the plural of the
last word of the name.
-/

namespace CrudScaffold.Naming

open CrudScaffold.Text

/-- The plural of the name has another plural. -/
def GrowsAgain (cs : List Char) : Prop :=
  (∃ before w, LastWord cs before w ∧ Regrows (w.map Char.toLower)) ∨
    isUpperText cs = true ∧ cs.getLast? = some capitalSharpS

/-! ### Names with a last word -/

namespace LastWord

variable {cs before w : List Char}

/-- Inflecting a name leaves it alone exactly if it leaves the last word alone. -/
theorem inflectLast_eq_self_iff (h : LastWord cs before w) {inflect : List Char → List Char}
    (hlow : ∀ c ∈ inflect (w.map Char.toLower), isLowerOrDigit c = true) :
    inflectLast inflect cs = cs ↔ inflect (w.map Char.toLower) = w.map Char.toLower := by
  have hform : inflectLast inflect cs = before ++ matchCase w (inflect (w.map Char.toLower)) := by
    rw [h.inflectLast_eq, h.word.inflectLast_eq]
  rw [hform]
  constructor
  · intro heq
    have hword := List.append_cancel_left (heq.trans h.append)
    have hlower := map_toLower_matchCase h.word.isAlphanum hlow
    rw [hword] at hlower
    exact hlower.symm
  · intro heq
    rw [heq, matchCase_map_toLower h.word, ← h.append]

theorem plural_eq_self_iff (h : LastWord cs before w) :
    inflectLast Naming.pluralWord cs = cs ↔ LooksPlural (w.map Char.toLower) := by
  rw [h.inflectLast_eq_self_iff h.word.isSnakeWord_map_toLower.pluralWord.low, pluralWord_eq_self_iff]

/-- The plural of a name is its own plural, unless the last word regrows. -/
theorem plural_plural_iff (h : LastWord cs before w) :
    inflectLast Naming.pluralWord (inflectLast Naming.pluralWord cs) = inflectLast Naming.pluralWord cs ↔
      ¬ Regrows (w.map Char.toLower) := by
  have hmany := h.word.isSnakeWord_map_toLower.pluralWord
  have hback := map_toLower_matchCase h.word.isAlphanum hmany.low
  rw [h.inflectLast_eq, h.word.inflectLast_eq]
  rcases h.plural_last with ⟨hlast, -⟩ | ⟨hdigit, hword, hlast⟩
  · rw [hlast.plural_eq_self_iff, hback, looksPlural_pluralWord_iff]
  · rw [hlast.plural_eq_self_iff]
    refine iff_of_true (Or.inr (by decide)) ?_
    exact not_regrows_of_getLast hdigit

end LastWord

/-! ### Names that end in another character -/

/-- The last word of a text that ends in a letter. -/
theorem exists_lastWord_concat (front : List Char) {c : Char} (hc : c.isAlphanum = true) :
    ∃ before w, LastWord (front ++ [c]) before (w ++ [c]) ∧ before ++ w = front := by
  have hend : ∃ d ∈ (front ++ [c]).getLast?, d.isAlphanum = true := ⟨c, by simp, hc⟩
  have hlast := lastWord_splitLastWord hend
  generalize splitLastWord (front ++ [c]) = parts at hlast
  obtain ⟨before, last⟩ := parts
  rcases List.eq_nil_or_concat last with rfl | ⟨w, d, rfl⟩
  · exact absurd rfl hlast.word.ne_nil
  rw [List.concat_eq_append] at hlast
  have happend := hlast.append
  rw [← List.append_assoc] at happend
  obtain ⟨hfront, hd⟩ := List.append_inj' happend rfl
  obtain rfl := (List.cons_eq_cons.1 hd).1
  exact ⟨before, w, hlast, hfront.symm⟩

section Concat

variable (front : List Char) {c : Char} (hc : c = 's' ∨ c = 'S')
include hc

/-- An `s` behind a `k`, or behind no letter at all, is that of a plural. -/
theorem plural_concat_eq_self {m : Char} (hm : m.isAlphanum = true → m = 'k' ∨ m = 'K') :
    inflectLast pluralWord (front ++ [m] ++ [c]) = front ++ [m] ++ [c] := by
  have halnum : c.isAlphanum = true := by rcases hc with rfl | rfl <;> rfl
  have hsmall : c.toLower = 's' := by rcases hc with rfl | rfl <;> rfl
  obtain ⟨before, w, hlast, hbefore⟩ := exists_lastWord_concat (front ++ [m]) halnum
  rw [hlast.plural_eq_self_iff, List.map_append, List.map_singleton, hsmall]
  rcases List.eq_nil_or_concat w with rfl | ⟨w, d, rfl⟩
  · exact Or.inr (by decide)
  rw [List.concat_eq_append, ← List.append_assoc] at hbefore
  obtain ⟨-, hd⟩ := List.append_inj' hbefore rfl
  obtain rfl := (List.cons_eq_cons.1 hd).1
  have hk : d.toLower = 'k' := by
    rcases hm (hlast.word.isAlphanum d (by simp)) with rfl | rfl <;> rfl
  rw [List.concat_eq_append, List.map_append, List.map_singleton, hk, List.append_assoc]
  exact looksPlural_of_endsIn (by simp [endsIn_eq])

/-- An `s` behind a capital `S` is not. -/
theorem plural_concat_ne_self : inflectLast pluralWord (front ++ ['S'] ++ [c]) ≠ front ++ ['S'] ++ [c] := by
  have halnum : c.isAlphanum = true := by rcases hc with rfl | rfl <;> rfl
  have hsmall : c.toLower = 's' := by rcases hc with rfl | rfl <;> rfl
  have hpair : IsTailWord ['S', c] := by
    rcases hc with rfl | rfl
    · exact .capital rfl (List.cons_ne_nil _ _) (List.forall_mem_singleton.2 rfl)
    · exact .capitals (List.cons_ne_nil _ _) (List.forall_mem_cons.2 ⟨rfl, List.forall_mem_singleton.2 rfl⟩)
  obtain ⟨before, w, hlast, hbefore⟩ := exists_lastWord_concat (front ++ ['S']) halnum
  rw [Ne, hlast.plural_eq_self_iff, List.map_append, List.map_singleton, hsmall]
  -- the pair would be a longer last word
  rcases List.eq_nil_or_concat w with rfl | ⟨w, d, rfl⟩
  · -- the `s` alone is not the last word
    have hle := hlast.longest ['S', c] ⟨front, by simp⟩ hpair
    exact absurd hle (by simp)
  rw [List.concat_eq_append, ← List.append_assoc] at hbefore
  obtain ⟨-, hd⟩ := List.append_inj' hbefore rfl
  obtain rfl := (List.cons_eq_cons.1 hd).1
  rw [List.concat_eq_append, List.map_append, List.append_assoc]
  exact not_looksPlural_append_ss _

end Concat

/-- The plural of such a name is its own plural, unless the sharp s is spelt out. -/
theorem plural_plural_open_iff {front : List Char} {x : Char} (hx : x.isAlphanum = false) :
    inflectLast pluralWord (inflectLast pluralWord (front ++ [x])) = inflectLast pluralWord (front ++ [x]) ↔
      ¬ (isUpperText (front ++ [x]) = true ∧ x = capitalSharpS) := by
  obtain ⟨low, d, hlower, -, hletter, -⟩ := lowerChars_open front hx
  rw [inflectLast_open front hx]
  -- the name gets an `s`, or it is the one listed word that ends in a `k`
  rcases pluralWord_open front hx with hplural | hfeedback
  · have hne : lowerChars (front ++ [x]) ≠ [] := by simp [hlower]
    obtain ⟨c, hc, happend⟩ := matchCase_append_s (front ++ [x]) hne
    rw [hplural, happend]
    -- the `s` stands behind a spelt-out capital, or behind no letter
    by_cases hsharp : isUpperText (front ++ [x]) = true ∧ x = capitalSharpS
    · obtain ⟨hupper, rfl⟩ := hsharp
      obtain ⟨rest, hform⟩ := matchCase_sharp hupper
      rw [hform]
      refine iff_of_false ?_ (not_not_intro ⟨hupper, rfl⟩)
      have hne := plural_concat_ne_self (rest ++ ['S']) hc
      simpa using hne
    · obtain ⟨rest, m, hform, hm⟩ := matchCase_open front hx hsharp
      rw [hform]
      exact iff_of_true (plural_concat_eq_self rest hc hm) hsharp
  · have hself : ∀ pattern, inflectLast pluralWord (matchCase pattern "feedback".toList) =
        matchCase pattern "feedback".toList := by
      intro pattern
      unfold matchCase
      split
      · decide
      split <;> decide
    have hword : pluralWord "feedback".toList = "feedback".toList := by decide
    rw [hfeedback, hword]
    refine iff_of_true (hself _) ?_
    -- the listed word ends in no capital sharp s
    rintro ⟨-, rfl⟩
    have hk : d = 'k' := by
      have hlast := congrArg List.getLast? (hlower.symm.trans hfeedback)
      rw [List.getLast?_concat] at hlast
      exact Option.some.inj hlast
    have hkelvin := (hletter (hk ▸ rfl)).1
    exact absurd hkelvin (by decide)

/-! ### All names -/

/-- Every plural ends in a letter. -/
theorem exists_inflectLast_concat (cs : List Char) :
    ∃ front c, inflectLast pluralWord cs = front ++ [c] ∧ c.isAlphanum = true := by
  rw [inflectLast]
  generalize splitLastWord cs = parts
  obtain ⟨before, last⟩ := parts
  obtain ⟨front, c, hword, hc⟩ := getLast_matchCase (getLast_pluralWord (lowerChars last))
  refine ⟨before ++ front, c, ?_, hc⟩
  show before ++ matchCase last (pluralWord (lowerChars last)) = _
  rw [hword, List.append_assoc]

/-- The plural of a trimmed name has no blanks at its ends. -/
theorem trim_inflectLast_pluralWord {cs : List Char} (h : trim cs = cs) :
    trim (inflectLast pluralWord cs) = inflectLast pluralWord cs := by
  obtain ⟨front, c, hword, hc⟩ := exists_inflectLast_concat cs
  refine trim_eq_self_iff.2 ⟨?_, fun d hd => ?_⟩
  · -- the first character is that of the name, or of its only word
    have hsplit := splitLastWord_append cs
    obtain ⟨hhead, -⟩ := trim_eq_self_iff.1 h
    rw [inflectLast]
    generalize splitLastWord cs = parts at hsplit
    obtain ⟨before, last⟩ := parts
    subst hsplit
    cases before with
    | cons e before => exact hhead
    | nil =>
      refine head_matchCase fun e he => ?_
      rcases head_pluralWord he with he | he
      · exact head_lowerChars hhead e he
      · exact isBlank_of_isAlphanum (isAlphanum_of_isLower he)
  · rw [hword, List.getLast?_concat] at hd
    exact Option.some.inj hd ▸ isBlank_of_isAlphanum hc

/-- The plural of a name that is trimmed, and not blank. -/
theorem plural_ofList {cs : List Char} (hne : cs ≠ []) (h : trim cs = cs) :
    plural (String.ofList cs) = .ok (String.ofList (inflectLast pluralWord cs)) := by
  have htrim : trim (String.ofList cs).toList = cs := by rw [String.toList_ofList, h]
  rw [plural, nameChars_of_ne_nil (by rwa [htrim]), htrim]
  rfl

theorem growsAgain_iff_of_lastWord {cs before w : List Char} (h : LastWord cs before w) :
    GrowsAgain cs ↔ Regrows (w.map Char.toLower) := by
  constructor
  · rintro (⟨before', w', h', hregrows⟩ | ⟨-, hsharp⟩)
    · obtain ⟨-, rfl⟩ := h.unique h'
      exact hregrows
    · obtain ⟨c, hc, halnum⟩ := h.exists_getLast
      obtain rfl := Option.some.inj (hsharp.symm.trans hc)
      cases halnum
  · exact fun hregrows => Or.inl ⟨before, w, h, hregrows⟩

theorem growsAgain_iff_of_open (front : List Char) {x : Char} (hx : x.isAlphanum = false) :
    GrowsAgain (front ++ [x]) ↔ isUpperText (front ++ [x]) = true ∧ x = capitalSharpS := by
  rw [GrowsAgain, List.getLast?_concat, Option.some.injEq]
  refine or_iff_right ?_
  rintro ⟨before, w, h, -⟩
  obtain ⟨c, hc, halnum⟩ := h.exists_getLast
  rw [List.getLast?_concat] at hc
  obtain rfl := Option.some.inj hc
  rw [hx] at halnum
  cases halnum

/-- The plural of a name is its own plural, unless the name grows again. -/
theorem plural_plural_iff {cs : List Char} (hne : cs ≠ []) :
    inflectLast pluralWord (inflectLast pluralWord cs) = inflectLast pluralWord cs ↔ ¬ GrowsAgain cs := by
  obtain ⟨front, x, rfl⟩ := (List.eq_nil_or_concat cs).resolve_left hne
  rw [List.concat_eq_append]
  by_cases hx : x.isAlphanum = true
  · have hend : ∃ c ∈ (front ++ [x]).getLast?, c.isAlphanum = true := ⟨x, by simp, hx⟩
    have hlast := lastWord_splitLastWord hend
    rw [hlast.plural_plural_iff, growsAgain_iff_of_lastWord hlast]
  · have hx := Bool.eq_false_iff.2 hx
    rw [plural_plural_open_iff hx, growsAgain_iff_of_open front hx]

/-- **Pluralising twice changes nothing, unless the name grows again.**  The plural of every name that has one has a
plural itself, and this is the same name exactly if the name does not grow again.  For table names the last word
behind an underscore decides. -/
theorem plural_plural (name : String) :
    (∀ many, plural name = .ok many → ∃ again, plural many = .ok again ∧
      (again = many ↔ ¬ GrowsAgain (trim name.toList))) ∧
    ∀ table, pluralSnake name = .ok table → ∃ snake before word again, snakeCase name = .ok snake ∧
      LastWord snake.toList before word ∧ pluralSnake table = .ok again ∧ (again = table ↔ ¬ Regrows word) := by
  have htwice : ∀ name many : String, plural name = .ok many → ∃ again, plural many = .ok again ∧
      (again = many ↔ ¬ GrowsAgain (trim name.toList)) := by
    intro name many h
    obtain ⟨cs, hcs, -⟩ := bind_eq_ok.1 h
    obtain ⟨rfl, hne⟩ := nameChars_ok hcs
    have hmany : String.ofList (inflectLast pluralWord (trim name.toList)) = many :=
      Except.ok.inj (nameChars_bind_ok h)
    subst hmany
    have hsome : inflectLast pluralWord (trim name.toList) ≠ [] := by
      obtain ⟨front, c, hform, -⟩ := exists_inflectLast_concat (trim name.toList)
      simp [hform]
    refine ⟨_, plural_ofList hsome (trim_inflectLast_pluralWord (trim_trim name.toList)), ?_⟩
    rw [String.ofList_inj]
    exact plural_plural_iff hne
  -- the table is a plural already, and its last word decides
  refine ⟨htwice name, fun table h => ?_⟩
  obtain ⟨snake, hsnake, hplural⟩ := pluralSnake_ok h
  obtain ⟨front, word, many, hlast, hword, -, hmany, -, htable⟩ := (isSnakeText_of_snakeCase hsnake).exists_plural
  obtain rfl := Except.ok.inj (hmany.symm.trans hplural)
  obtain ⟨again, hagain, hsame⟩ := htwice snake many hplural
  refine ⟨snake, front, word, again, hsnake, hlast, ?_, ?_⟩
  · rw [pluralSnake, htable.snakeCase_eq]
    exact hagain
  · have hbare : trim snake.toList = snake.toList := by
      have hvisible : ∀ c ∈ snake.toList, isBlank c = false := fun c hc =>
        isBlank_of_isSnakeChar (isSnakeChar_of_snakeCase hsnake c hc)
      exact trim_eq_self_iff.2 ⟨fun c hc => hvisible c (List.mem_of_mem_head? hc),
        fun c hc => hvisible c (List.mem_of_mem_getLast? hc)⟩
    rw [hsame, hbare, growsAgain_iff_of_lastWord hlast, hword.map_toLower]

/-- A tag has the plural of its plural, and so has the table of blog tags. -/
theorem plural_plural_tags :
    (plural "tag" = .ok "tags" ∧ plural "tags" = .ok "tags" ∧ ¬ GrowsAgain (trim "tag".toList)) ∧
    (pluralSnake "blogTag" = .ok "blog_tags" ∧ pluralSnake "blog_tags" = .ok "blog_tags") := by
  have hruns : (plural "tag" = .ok "tags" ∧ plural "tags" = .ok "tags") ∧
      pluralSnake "blogTag" = .ok "blog_tags" ∧ pluralSnake "blog_tags" = .ok "blog_tags" := by decide
  obtain ⟨⟨hmany, htwice⟩, htable, hagain⟩ := hruns
  obtain ⟨again, hplural, hsame⟩ := (plural_plural "tag").1 _ hmany
  obtain rfl := Except.ok.inj (htwice.symm.trans hplural)
  exact ⟨⟨hmany, htwice, hsame.1 rfl⟩, htable, hagain⟩

/-- A menu has not: the plural ends like a singular, and gets another ending. -/
theorem not_plural_plural :
    (plural "menu" = .ok "menus" ∧ plural "menus" = .ok "menuses") ∧
    (pluralSnake "Menu" = .ok "menus" ∧ pluralSnake "menus" = .ok "menuses") ∧
    ¬ ∀ name many : String, plural name = .ok many → plural many = .ok many := by
  have hruns : (plural "menu" = .ok "menus" ∧ plural "menus" = .ok "menuses") ∧
      pluralSnake "Menu" = .ok "menus" ∧ pluralSnake "menus" = .ok "menuses" := by decide
  obtain ⟨⟨hmany, htwice⟩, htables⟩ := hruns
  refine ⟨⟨hmany, htwice⟩, htables, fun h => ?_⟩
  have hsame := Except.ok.inj (htwice.symm.trans (h _ _ hmany))
  exact absurd hsame (by decide)

end CrudScaffold.Naming
