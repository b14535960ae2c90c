import CrudScaffold.Proofs.Naming.Capitals
import CrudScaffold.Proofs.Naming.LastWord
import CrudScaffold.Proofs.Naming.Singulars

/-!
# CrudScaffold.Proofs.Naming.Initials — what accessors begin with

The camel-case form of a name begins with the first letter or digit of the name (`head_camelCase`).  A plural begins
with a digit exactly if the singular does: regular plurals keep the first character or begin with an `e` that stands
for an `i`, and the irregular ones are made of letters.  So an accessor begins with a digit exactly if the first letter
or digit of the related base name is one (`startsWithDigit_accessor`).
-/

namespace CrudScaffold.Naming

open CrudScaffold.Spec CrudScaffold.Text

/-- The text begins with a digit. -/
def startsWithDigit (cs : List Char) : Bool := cs.head?.any Char.isDigit

theorem startsWithDigit_append {front : List Char} (hne : front ≠ []) (back : List Char) :
    startsWithDigit (front ++ back) = startsWithDigit front := by
  obtain ⟨c, front, rfl⟩ := List.exists_cons_of_ne_nil hne
  rfl

/-- A regular plural begins with a digit exactly if the word does. -/
theorem startsWithDigit_regularPlural {word : List Char} (hne : word ≠ []) :
    startsWithDigit (regularPlural word) = startsWithDigit word := by
  unfold regularPlural
  split
  · rfl
  split
  · -- only this ending may take the whole word away, and then both texts begin with a letter
    rename_i his
    obtain ⟨front, rfl⟩ := endsIn_singleton_iff.1 his
    have hdrop : dropEnd 2 (front ++ "is".toList) = front := by
      rw [dropEnd_append front (by decide)]
      exact List.append_nil front
    rw [hdrop]
    cases front with
    | nil => rfl
    | cons c front => rfl
  split
  · exact startsWithDigit_append hne _
  split
  · rename_i hy
    obtain ⟨-, hbefore⟩ := Bool.and_eq_true_iff.1 hy
    obtain ⟨c, word, rfl⟩ := List.exists_cons_of_ne_nil hne
    cases word with
    | nil => cases hbefore
    | cons d word => simp [dropEnd, startsWithDigit]
  · exact startsWithDigit_append hne _

theorem IsSmallWord.startsWithDigit {w : List Char} (h : IsSmallWord w) : startsWithDigit w = false := by
  cases w with
  | nil => rfl
  | cons c w =>
    have hc := h.small c List.mem_cons_self
    show c.isDigit = false
    grind

theorem startsWithDigit_pluralWord {word : List Char} (hne : word ≠ []) :
    startsWithDigit (pluralWord word) = startsWithDigit word := by
  unfold pluralWord
  split
  · rfl
  cases himage : irregularPlural? word with
  | none => exact startsWithDigit_regularPlural hne
  | some image =>
    obtain ⟨p, hp, rfl, rfl⟩ := irregularPlural_ok himage
    obtain ⟨hone, hmany, -⟩ := irregular_small p hp
    exact hmany.startsWithDigit.trans hone.startsWithDigit.symm

/-- The camel-case form begins with the first letter or digit of the name, in lower case. -/
theorem head_camelCase {name camel : String} (h : camelCase name = .ok camel) :
    camel.toList.head? = (name.toList.find? Char.isAlphanum).map Char.toLower := by
  obtain ⟨first, others, hwords, hcamel⟩ := camelCase_ok h
  rw [camelWords_trim] at hwords
  have hletters : (first :: others).flatten = name.toList.filter Char.isAlphanum :=
    hwords ▸ flatten_camelWords name.toList
  have hfirst : first ∈ camelWords name.toList := hwords ▸ List.mem_cons_self
  obtain ⟨c, w, rfl⟩ := List.exists_cons_of_ne_nil (ne_nil_of_mem_camelWords hfirst)
  rw [hcamel, ← List.head?_filter, ← hletters]
  rfl

/-- The plural of a camel-case form begins with a digit exactly if the form does. -/
theorem startsWithDigit_plural {name camel many : String} (hcamel : camelCase name = .ok camel)
    (h : plural camel = .ok many) : startsWithDigit many.toList = startsWithDigit camel.toList := by
  obtain ⟨hne, halnum⟩ := isAlphanum_of_camelCase hcamel
  have hend : ∃ c ∈ camel.toList.getLast?, c.isAlphanum = true :=
    ⟨_, List.getLast?_eq_some_getLast hne, halnum _ (List.getLast_mem hne)⟩
  have hlast := lastWord_splitLastWord hend
  have happend := hlast.append
  obtain ⟨word, -, hwhole, hletters⟩ := hlast.plural_eq fun c hc => isBlank_of_isAlphanum (halnum c hc)
  obtain rfl := Except.ok.inj (hwhole.symm.trans h)
  rw [String.toList_ofList, hletters]
  cases hbefore : (splitLastWord camel.toList).1 with
  | cons c before =>
    rw [hbefore] at happend
    rw [happend]
    rfl
  | nil =>
    -- the form is one word of small letters and digits, and its plural is that of the word
    rw [hbefore, List.nil_append] at happend
    have hword := hlast.word.isSnakeWord (happend ▸ isUpper_head_of_camelCase hcamel)
    rw [List.nil_append, hword.inflectLast_eq, ← happend]
    exact startsWithDigit_pluralWord hne

theorem isDigit_toLower (c : Char) : c.toLower.isDigit = c.isDigit := by
  rw [Bool.eq_iff_iff]
  grind

/-- The accessor of a relation begins with a digit exactly if the first letter or digit of the related base name is
one. -/
theorem startsWithDigit_accessor {r : Relation} {base accessor : String} (hbase : baseName r.related = .ok base)
    (h : r.accessor = .ok accessor) : ∃ c, base.toList.find? Char.isAlphanum = some c ∧ c.isAlphanum = true ∧
      startsWithDigit accessor.toList = c.isDigit := by
  have hcamel : ∀ camel, camelCase base = .ok camel → ∃ c, base.toList.find? Char.isAlphanum = some c ∧
      c.isAlphanum = true ∧ startsWithDigit camel.toList = c.isDigit := by
    intro camel hcamel
    have hhead := head_camelCase hcamel
    obtain ⟨d, rest, hd⟩ := List.exists_cons_of_ne_nil (isAlphanum_of_camelCase hcamel).1
    rw [hd] at hhead ⊢
    obtain ⟨c, hc, rfl⟩ := Option.map_eq_some_iff.1 hhead.symm
    have halnum := List.find?_some hc
    exact ⟨c, hc, halnum, isDigit_toLower c⟩
  rw [Relation.accessor, hbase] at h
  have hform : (if r.kind.isPlural then pluralCamel base else camelCase base) = .ok accessor := h
  -- the accessor of several things is the plural of the form
  split at hform
  · obtain ⟨camel, hsingle, hplural⟩ := bind_eq_ok.1 (show camelCase base >>= plural = .ok accessor from hform)
    rw [startsWithDigit_plural hsingle hplural]
    exact hcamel camel hsingle
  · exact hcamel accessor hform

end CrudScaffold.Naming
