import CrudScaffold.Proofs.Naming.Capitals
import CrudScaffold.Proofs.Naming.PluralTwice
import CrudScaffold.Proofs.Naming.SameWords
import CrudScaffold.Proofs.Naming.SingularWords
import CrudScaffold.Proofs.Spec.PivotNames

/-!
# CrudScaffold.Proofs.Spec.PivotSpelling — join tables of entities in the plural

The part that an entity has in the name of a join table is the same for its plural, if the last word of the entity
leads back from its plural (`LeadsBackName`).  If it does not, then the plural has no part, or one with other letters
(`pivotPart_plural`).  So the name of a join table depends on how the entities are spelt exactly if one of them does not
lead back (`pivotName_plural`).

Only the last segment of a name matters, without the blanks around it; `LeadsIn` describes what stands in front of it.
-/

namespace CrudScaffold.Spec

open CrudScaffold.Naming CrudScaffold.Text

/-- The plural of the name leads back to it: the name does not end in a separator, and its last word leads back if it
ends in one. -/
def LeadsBackName (cs : List Char) : Prop :=
  (∀ c ∈ cs.getLast?, isSeparator c = false) ∧ ∀ before w, LastWord cs before w → LeadsBack (w.map Char.toLower)

/-- What can stand in front of the last segment: a path that ends in a separator, and blanks. -/
def LeadsIn (front : List Char) : Prop := ∃ path blanks, front = path ++ blanks ∧
  (∀ c ∈ path.getLast?, isSeparator c = true) ∧ ∀ c ∈ blanks, isBlank c = true

/-- A segment without blanks around it. -/
structure IsBareSegment (u : List Char) : Prop where
  segment : IsSegment u
  bare : trim u = u

/-! ### Last segments -/

theorem isSeparator_of_isBlank {c : Char} (h : isBlank c = true) : isSeparator c = false := by
  refine Bool.eq_false_iff.2 fun hsep => ?_
  rw [isSeparator, Bool.or_eq_true, beq_iff_eq, beq_iff_eq] at hsep
  rcases hsep with rfl | rfl <;> cases h

theorem isSeparator_of_isAlphanum {c : Char} (h : c.isAlphanum = true) : isSeparator c = false := by
  refine Bool.eq_false_iff.2 fun hsep => ?_
  rw [isSeparator, Bool.or_eq_true, beq_iff_eq, beq_iff_eq] at hsep
  rcases hsep with rfl | rfl <;> cases h

/-- A name that does not end in a separator ends in a segment. -/
theorem exists_leadsIn {cs : List Char} (hne : cs ≠ []) (hbare : trim cs = cs)
    (hend : ∀ c ∈ cs.getLast?, isSeparator c = false) :
    ∃ front u, cs = front ++ u ∧ LeadsIn front ∧ IsBareSegment u := by
  obtain ⟨back, path, hcs, hback, hpath⟩ := exists_scan (fun c => !isSeparator c) cs.reverse
  obtain ⟨blanks, u, hsegment, hblanks, hhead⟩ := exists_scan isBlank back.reverse
  have hsplit : cs = path.reverse ++ blanks ++ u := by
    rw [List.append_assoc, ← hsegment, ← List.reverse_append, ← hcs, List.reverse_reverse]
  have hlast := (trim_eq_self_iff.1 hbare).2
  -- the name ends neither in a blank nor in a separator
  have hu : u ≠ [] := by
    rintro rfl
    rw [List.append_nil] at hsplit
    rcases List.eq_nil_or_concat blanks with rfl | ⟨blanks, d, rfl⟩
    · rw [List.append_nil] at hsplit
      cases path with
      | nil => exact hne hsplit
      | cons e path =>
        have hsep := hpath e rfl
        rw [hend e (by simp [hsplit])] at hsep
        cases hsep
    · have hd := hlast d (by simp [hsplit])
      rw [hblanks d (by simp)] at hd
      cases hd
  refine ⟨path.reverse ++ blanks, u, hsplit, ⟨_, _, rfl, ?_, hblanks⟩, ⟨hu, fun c hc => ?_⟩, ?_⟩
  · rw [List.getLast?_reverse]
    exact fun c hc => by simpa using hpath c hc
  · have hmem : c ∈ back.reverse := hsegment ▸ List.mem_append_right blanks hc
    simpa using hback c (List.mem_reverse.1 hmem)
  · rw [hsplit, List.getLast?_append_of_ne_nil _ hu] at hlast
    exact trim_eq_self_iff.2 ⟨hhead, hlast⟩

/-- The part of a name is that of its last segment. -/
theorem pivotPart_leadsIn {front u : List Char} (hfront : LeadsIn front) (hu : IsBareSegment u)
    (hbare : trim (front ++ u) = front ++ u) :
    pivotPart (String.ofList (front ++ u)) = snakeCase (String.ofList (inflectLast singularWord u)) := by
  obtain ⟨path, blanks, rfl, hpath, hblanks⟩ := hfront
  -- the blanks behind the separator are no part of the segment
  have htrim : trim (blanks ++ u) = u := by
    have hends := trimBy_append hblanks (trimBy_eq_self_iff.1 hu.bare) (List.forall_mem_nil _) hu.segment.1
    rwa [List.append_nil] at hends
  have hsegment : IsSegment (blanks ++ u) :=
    ⟨by simp [hu.segment.1], List.forall_mem_append.2 ⟨fun c hc => isSeparator_of_isBlank (hblanks c hc), hu.segment.2⟩⟩
  have hends : EndsInSegment (path ++ blanks ++ u) (blanks ++ u) :=
    ⟨hsegment, path, [], by simp, hpath, List.forall_mem_nil _⟩
  have hbase : baseName (String.ofList (path ++ blanks ++ u)) = .ok (String.ofList (blanks ++ u)) := by
    rw [baseName_eq_ok_iff, String.toList_ofList, String.toList_ofList, hbare]
    exact getLast_segments_iff.2 hends
  have hone : singular (String.ofList (blanks ++ u)) = .ok (String.ofList (inflectLast singularWord u)) := by
    rw [singular_eq (by rw [String.toList_ofList, htrim]; exact hu.segment.1), String.toList_ofList, htrim]
  simp only [pivotPart, hbase, hone, bind, Except.bind]

/-! ### Snake-case forms -/

theorem snakeCase_ok_iff_of_words {cs ds : List Char} {part : String} (h : snakeWords cs = snakeWords ds) :
    snakeCase (String.ofList cs) = .ok part ↔ snakeCase (String.ofList ds) = .ok part := by
  rw [snakeCase_eq, snakeCase_eq, String.toList_ofList, String.toList_ofList, h]
  cases snakeWords ds with
  | nil => exact ⟨nofun, nofun⟩
  | cons w ws => exact Iff.rfl

theorem filter_snakeCase {name part : String} (h : snakeCase name = .ok part) :
    part.toList.filter (· ≠ '_') = (name.toList.filter Char.isAlphanum).map Char.toLower := by
  have halnum : ∀ w ∈ snakeWords name.toList, ∀ c ∈ w, c.isAlphanum = true := fun w hw c =>
    isAlphanum_of_mem_snakeWords hw
  rw [snakeCase_ok h, snakeWords_trim]
  exact (filter_joined halnum).trans (congrArg (List.map Char.toLower) (flatten_blocks _ _ _))

/-! ### Names that are singulars -/

theorem inflectLast_singular_open (front : List Char) {x : Char} (hx : x.isAlphanum = false) :
    inflectLast singularWord (front ++ [x]) = matchCase (front ++ [x]) (lowerChars (front ++ [x])) := by
  obtain ⟨low, d, hlower, -, hletter, -⟩ := lowerChars_open front hx
  have hlast : (lowerChars (front ++ [x])).getLast? = some d := by rw [hlower, List.getLast?_concat]
  rw [inflectLast_open front hx, singularWord_of_getLast hlast fun hd => (hletter (isAlphanum_of_isLower hd)).2]

/-- A text that is the singular of a text without blanks around it has none either, unless it is shorter. -/
theorem trim_inflectLast_singularWord {cs : List Char} (hbare : trim cs = cs)
    (hlength : cs.length ≤ (inflectLast singularWord cs).length) :
    trim (inflectLast singularWord cs) = inflectLast singularWord cs := by
  obtain ⟨hhead, hlast⟩ := trim_eq_self_iff.1 hbare
  rcases List.eq_nil_or_concat cs with rfl | ⟨front, x, rfl⟩
  · rfl
  rw [List.concat_eq_append] at *
  by_cases hx : x.isAlphanum = true
  case neg =>
    rw [inflectLast_singular_open front (Bool.eq_false_iff.2 hx)]
    exact trim_eq_self_iff.2 ⟨head_matchCase (head_lowerChars hhead), blank_getLast_matchCase (getLast_lowerChars hlast)⟩
  -- the last word of the name is inflected; what stands in front of it is kept
  have hend : ∃ c ∈ (front ++ [x]).getLast?, c.isAlphanum = true := ⟨x, by simp, hx⟩
  obtain ⟨before, w, hword⟩ : ∃ before w, LastWord (front ++ [x]) before w := ⟨_, _, lastWord_splitLastWord hend⟩
  have hone := isLowerOrDigit_singularWord hword.word.isSnakeWord_map_toLower.low
  have halnum := isAlphanum_matchCase hword.word.isAlphanum hone
  have hpos := List.length_pos_of_ne_nil hword.word.ne_nil
  rw [hword.inflectLast_eq, hword.word.inflectLast_eq] at hlength ⊢
  rw [hword.append] at hlength hhead
  generalize matchCase w (singularWord (w.map Char.toLower)) = one at hlength halnum ⊢
  have hne : one ≠ [] := by
    rintro rfl
    simp only [List.length_append, List.length_nil] at hlength
    omega
  refine trim_eq_self_iff.2 ⟨?_, fun c hc => ?_⟩
  · cases before with
    | nil => exact fun c hc => isBlank_of_isAlphanum (halnum c (List.mem_of_mem_head? hc))
    | cons e before => exact hhead
  · rw [List.getLast?_append_of_ne_nil _ hne] at hc
    exact isBlank_of_isAlphanum (halnum c (List.mem_of_getLast? hc))

/-- A name that is its own singular has no blanks around it. -/
theorem singular_eq_self {name : String} (h : singular name = .ok name) : name.toList ≠ [] ∧
    trim name.toList = name.toList ∧ inflectLast singularWord name.toList = name.toList := by
  obtain ⟨cs, hcs, -⟩ := bind_eq_ok.1 h
  obtain ⟨rfl, hne⟩ := nameChars_ok hcs
  have hform : inflectLast singularWord (trim name.toList) = name.toList := by
    rw [singular_eq hne] at h
    have hletters := congrArg String.toList (Except.ok.inj h)
    rwa [String.toList_ofList] at hletters
  -- the name is trimmed, so its singular is no longer than the name unless nothing was trimmed
  have hlength : (trim name.toList).length ≤ (inflectLast singularWord (trim name.toList)).length := by
    obtain ⟨front, back, hsplit, -⟩ := exists_trimBy_append isBlank name.toList
    have hsum := congrArg List.length hsplit
    rw [List.length_append, List.length_append, ← trim_eq_trimBy] at hsum
    rw [hform]
    omega
  have hbare := trim_inflectLast_singularWord (trim_trim name.toList) hlength
  rw [hform] at hbare
  rw [hbare] at hne hform
  exact ⟨hne, hbare, hform⟩

/-! ### Names with a last word -/

section LastWord

variable {front u before w : List Char} (hlast : LastWord u before w)
include hlast

/-- The last word of the segment is that of the name. -/
theorem lastWord_leadsIn (hfront : LeadsIn front) : LastWord (front ++ u) (front ++ before) w := by
  obtain ⟨path, blanks, rfl, hpath, hblanks⟩ := hfront
  have hword : LastWord (before ++ w) before w := hlast.append ▸ hlast
  obtain ⟨hw, hbefore⟩ := lastWord_iff.1 hword
  rw [hlast.append, ← List.append_assoc, lastWord_iff]
  refine ⟨hw, fun d hd hlonger => ?_⟩
  have halnum := hlonger.isAlphanum d List.mem_cons_self
  -- in front of the segment stands a separator or a blank, which goes on no word
  rcases List.eq_nil_or_concat before with rfl | ⟨before, e, rfl⟩
  · rw [List.append_nil] at hd
    rcases List.eq_nil_or_concat blanks with rfl | ⟨blanks, e, rfl⟩
    · rw [List.append_nil] at hd
      have hsep := hpath d hd
      rw [isSeparator_of_isAlphanum halnum] at hsep
      cases hsep
    · obtain rfl : e = d := by simpa using hd
      have hblank := hblanks e (by simp)
      rw [isBlank_of_isAlphanum halnum] at hblank
      cases hblank
  · obtain rfl : e = d := by simpa using hd
    exact hbefore e (by simp) hlonger

theorem isBareSegment_plural (hu : IsBareSegment u) : IsBareSegment (inflectLast pluralWord u) := by
  have hmany := hlast.word.isSnakeWord_map_toLower.pluralWord
  refine ⟨⟨?_, ?_⟩, trim_inflectLast_pluralWord hu.bare⟩
  · obtain ⟨rest, c, hform, -⟩ := exists_inflectLast_concat u
    simp [hform]
  · rw [hlast.inflectLast_eq, hlast.word.inflectLast_eq]
    refine List.forall_mem_append.2 ⟨fun c hc => ?_, fun c hc => ?_⟩
    · exact hu.segment.2 c (hlast.append ▸ List.mem_append_left w hc)
    · exact isSeparator_of_isAlphanum (isAlphanum_matchCase hlast.word.isAlphanum hmany.low c hc)

variable (hself : singularWord (w.map Char.toLower) = w.map Char.toLower)
include hself

theorem inflectLast_singular_plural : inflectLast singularWord (inflectLast pluralWord u) =
    before ++ matchCase w (singularWord (pluralWord (w.map Char.toLower))) := by
  have hmany := hlast.word.isSnakeWord_map_toLower.pluralWord
  have hback := map_toLower_matchCase hlast.word.isAlphanum hmany.low
  rw [hlast.inflectLast_eq, hlast.word.inflectLast_eq]
  rcases hlast.plural_last with ⟨hword, hcase⟩ | ⟨hdigit, hform, hword⟩
  · rw [hword.inflectLast_eq, hword.word.inflectLast_eq, hback, hcase _ (isLowerOrDigit_singularWord hmany.low)]
  · rw [singularWord_pluralWord hself (leadsBack_of_getLast hdigit), matchCase_map_toLower hlast.word,
      hword.inflectLast_eq, inflectLast_singularWord_s (Or.inr rfl), List.append_nil]

theorem leadsBack_of_filter (hletters : ((inflectLast singularWord (inflectLast pluralWord u)).filter
    Char.isAlphanum |>.map Char.toLower).Perm ((u.filter Char.isAlphanum).map Char.toLower)) :
    LeadsBack (w.map Char.toLower) := by
  have hmany := hlast.word.isSnakeWord_map_toLower.pluralWord
  have hlow := isLowerOrDigit_singularWord hmany.low
  have hword : w.filter Char.isAlphanum = w := List.filter_eq_self.2 hlast.word.isAlphanum
  have hback := List.filter_eq_self.2 (isAlphanum_matchCase hlast.word.isAlphanum hlow)
  rw [inflectLast_singular_plural hlast hself] at hletters
  rw [hlast.append, List.filter_append, List.filter_append, hword, hback, List.map_append, List.map_append,
    map_toLower_matchCase hlast.word.isAlphanum hlow, List.perm_append_left_iff] at hletters
  exact leadsBack_of_perm hself hletters

end LastWord

/-! ### Names that end in another character -/

/-- Such a name gets an `s`, if it is its own singular. -/
theorem plural_open {cs : List Char} {x : Char} (hx : x.isAlphanum = false)
    (hself : matchCase (cs ++ [x]) (lowerChars (cs ++ [x])) = cs ++ [x]) :
    ∃ c, (c = 's' ∨ c = 'S') ∧ inflectLast pluralWord (cs ++ [x]) = cs ++ [x] ++ [c] := by
  obtain ⟨low, d, hlower, -⟩ := lowerChars_open cs hx
  have hne : lowerChars (cs ++ [x]) ≠ [] := by simp [hlower]
  obtain ⟨c, hc, happend⟩ := matchCase_append_s (cs ++ [x]) hne
  rw [hself] at happend
  refine ⟨c, hc, ?_⟩
  rw [inflectLast_open cs hx]
  rcases pluralWord_open cs hx with hplural | hfeedback
  · rw [hplural, happend]
  · -- the name would end in a letter
    have hsmall : (lowerChars (cs ++ [x])).getLast?.any Char.isLower = true := by
      rw [hfeedback]
      rfl
    obtain ⟨rest, e, hform, he⟩ := getLast_matchCase hsmall
    rw [hself] at hform
    obtain ⟨-, hlast⟩ := List.append_inj' hform rfl
    obtain ⟨rfl, -⟩ := List.cons_eq_cons.1 hlast
    rw [hx] at he
    cases he

/-! ### Parts of plurals -/

/-- The name has this part if it leads back, and otherwise none or one with other letters. -/
structure PartIff (name part : String) (leads : Prop) : Prop where
  part_eq : leads → pivotPart name = .ok part
  leads_of_perm : ∀ part', pivotPart name = .ok part' →
    (part'.toList.filter (· ≠ '_')).Perm (part.toList.filter (· ≠ '_')) → leads

section Part

variable {front u : List Char} {part : String} (hfront : LeadsIn front)
include hfront

theorem partIff_lastWord {before w : List Char} (hlast : LastWord u before w) (hu : IsBareSegment u)
    (hbare : trim (front ++ u) = front ++ u) (hself : inflectLast singularWord (front ++ u) = front ++ u)
    (hpart : pivotPart (String.ofList (front ++ u)) = .ok part) :
    PartIff (String.ofList (inflectLast pluralWord (front ++ u))) part (LeadsBack (w.map Char.toLower)) := by
  have hwhole := lastWord_leadsIn hlast hfront
  have hlow := isLowerOrDigit_singularWord hlast.word.isSnakeWord_map_toLower.low
  have hword := (hwhole.inflectLast_eq_self_iff hlow).1 hself
  have hone := (hlast.inflectLast_eq_self_iff hlow).2 hword
  -- what leads to the segment is kept by both forms
  have hmany : inflectLast pluralWord (front ++ u) = front ++ inflectLast pluralWord u := by
    rw [hwhole.inflectLast_eq, hlast.inflectLast_eq, List.append_assoc]
  have hbare' := trim_inflectLast_pluralWord hbare
  rw [hmany] at hbare' ⊢
  have hform := pivotPart_leadsIn hfront (isBareSegment_plural hlast hu) hbare'
  rw [pivotPart_leadsIn hfront hu hbare, hone] at hpart
  refine ⟨fun hleads => ?_, fun part' hpart' hperm => ?_⟩
  · rw [hform, inflectLast_singular_plural hlast hword, singularWord_pluralWord hword hleads,
      matchCase_map_toLower hlast.word, ← hlast.append]
    exact hpart
  · rw [hform] at hpart'
    rw [filter_snakeCase hpart', filter_snakeCase hpart, String.toList_ofList, String.toList_ofList] at hperm
    exact leadsBack_of_filter hlast hword hperm

theorem pivotPart_open {x : Char} (hx : x.isAlphanum = false) (hu : IsBareSegment (u ++ [x]))
    (hbare : trim (front ++ (u ++ [x])) = front ++ (u ++ [x]))
    (hself : inflectLast singularWord (front ++ (u ++ [x])) = front ++ (u ++ [x]))
    (hpart : pivotPart (String.ofList (front ++ (u ++ [x]))) = .ok part) :
    pivotPart (String.ofList (inflectLast pluralWord (front ++ (u ++ [x])))) = .ok part := by
  rw [← List.append_assoc, inflectLast_singular_open _ hx] at hself
  obtain ⟨c, hc, hmany⟩ := plural_open hx hself
  have hletter : c.isAlphanum = true := by rcases hc with rfl | rfl <;> rfl
  have hbare' := trim_inflectLast_pluralWord hbare
  rw [List.append_assoc] at hself hmany
  rw [hmany, List.append_assoc] at hbare' ⊢
  -- the plural of the segment is one, too
  have hmanySegment : IsBareSegment (u ++ [x] ++ [c]) := by
    refine ⟨⟨by simp, List.forall_mem_append.2 ⟨hu.segment.2, ?_⟩⟩, ?_⟩
    · exact List.forall_mem_singleton.2 (isSeparator_of_isAlphanum hletter)
    · refine trim_eq_self_iff.2 ⟨?_, fun d hd => ?_⟩
      · rw [List.head?_append_of_ne_nil _ hu.segment.1]
        exact (trim_eq_self_iff.1 hu.bare).1
      · rw [List.getLast?_concat] at hd
        exact Option.some.inj hd ▸ isBlank_of_isAlphanum hletter
  rw [pivotPart_leadsIn hfront hmanySegment hbare', inflectLast_singularWord_lone (by simpa using hx) hc]
  rw [pivotPart_leadsIn hfront hu hbare, inflectLast_singular_open u hx] at hpart
  exact (snakeCase_ok_iff_of_words (snakeWords_matchCase_lowerChars hx hself)).1 hpart

end Part

/-- A name that ends in a separator has a plural without a part: the `s` is the last segment. -/
theorem pivotPart_separator {front : List Char} {x : Char} (hx : isSeparator x = true)
    (hbare : trim (front ++ [x]) = front ++ [x]) (hself : inflectLast singularWord (front ++ [x]) = front ++ [x])
    (part : String) : pivotPart (String.ofList (inflectLast pluralWord (front ++ [x]))) ≠ .ok part := by
  have hother : x.isAlphanum = false := by
    refine Bool.eq_false_iff.2 fun halnum => ?_
    rw [isSeparator_of_isAlphanum halnum] at hx
    cases hx
  -- the `s` behind the separator is the whole last segment
  rw [inflectLast_singular_open front hother] at hself
  obtain ⟨c, hc, hmany⟩ := plural_open hother hself
  have hbare' := trim_inflectLast_pluralWord hbare
  have hpath : LeadsIn (front ++ [x]) := ⟨front ++ [x], [], by simp, by simpa using hx, List.forall_mem_nil _⟩
  have hsegment : IsBareSegment [c] := by
    rcases hc with rfl | rfl
    · exact ⟨⟨List.cons_ne_nil _ _, List.forall_mem_singleton.2 rfl⟩, by decide⟩
    · exact ⟨⟨List.cons_ne_nil _ _, List.forall_mem_singleton.2 rfl⟩, by decide⟩
  rw [hmany] at hbare' ⊢
  rw [pivotPart_leadsIn hpath hsegment hbare', inflectLast_singularWord_s hc]
  exact nofun

theorem leadsBackName_iff {cs before w : List Char} (h : LastWord cs before w) :
    LeadsBackName cs ↔ LeadsBack (w.map Char.toLower) := by
  constructor
  · exact fun hleads => hleads.2 before w h
  · refine fun hleads => ⟨fun c hc => ?_, fun before' w' h' => ?_⟩
    · obtain ⟨d, hd, halnum⟩ := h.exists_getLast
      obtain rfl := Option.some.inj (hd.symm.trans hc)
      exact isSeparator_of_isAlphanum halnum
    · obtain ⟨-, rfl⟩ := h.unique h'
      exact hleads

/-- **The part of a plural.**  An entity that is its own singular has a plural with the same part if it leads back from
its plural.  If it does not, then the plural has no part, or one with other letters. -/
theorem pivotPart_plural {name part : String} (hname : singular name = .ok name) (hpart : pivotPart name = .ok part) :
    ∃ many, plural name = .ok many ∧ PartIff many part (LeadsBackName name.toList) := by
  obtain ⟨hne, hbare, hself⟩ := singular_eq_self hname
  obtain ⟨cs, rfl⟩ : ∃ cs, name = String.ofList cs := ⟨name.toList, String.ofList_toList.symm⟩
  rw [String.toList_ofList] at *
  refine ⟨_, plural_ofList hne hbare, ?_⟩
  obtain ⟨front, x, hend⟩ := (List.eq_nil_or_concat cs).resolve_left hne
  rw [List.concat_eq_append] at hend
  have hlast : cs.getLast? = some x := by rw [hend, List.getLast?_concat]
  -- a name that ends in a separator has no plural with a part
  by_cases hsep : isSeparator x = true
  · subst hend
    refine ⟨fun hleads => ?_, fun part' hpart' _ => absurd hpart' (pivotPart_separator hsep hbare hself part')⟩
    rw [hleads.1 x hlast] at hsep
    cases hsep
  have hsegment : ∀ c ∈ cs.getLast?, isSeparator c = false := fun c hc =>
    Option.some.inj (hlast.symm.trans hc) ▸ Bool.eq_false_iff.2 hsep
  obtain ⟨path, u, rfl, hpath, hu⟩ := exists_leadsIn hne hbare hsegment
  rw [List.getLast?_append_of_ne_nil _ hu.segment.1] at hlast
  -- the last segment ends in a letter, or in something else
  by_cases hx : x.isAlphanum = true
  · have hword := lastWord_splitLastWord ⟨x, hlast, hx⟩
    rw [leadsBackName_iff (lastWord_leadsIn hword hpath)]
    exact partIff_lastWord hpath hword hu hbare hself hpart
  · have hx := Bool.eq_false_iff.2 hx
    obtain ⟨u, rfl⟩ := List.getLast?_eq_some_iff.1 hlast
    have hleads : LeadsBackName (path ++ (u ++ [x])) := by
      refine ⟨hsegment, fun before w h => ?_⟩
      obtain ⟨d, hd, halnum⟩ := h.exists_getLast
      obtain rfl : x = d := by simpa using hd
      rw [hx] at halnum
      cases halnum
    exact ⟨fun _ => pivotPart_open hpath hx hu hbare hself hpart, fun _ _ _ => hleads⟩

/-! ### Names of join tables -/

/-- The name of a join table has the letters and digits of both parts. -/
theorem filter_pivotName {entity related name part part' : String} (h : pivotName entity related = .ok name)
    (hpart : pivotPart entity = .ok part) (hpart' : pivotPart related = .ok part') :
    (name.toList.filter (· ≠ '_')).Perm (part.toList.filter (· ≠ '_') ++ part'.toList.filter (· ≠ '_')) := by
  obtain ⟨p, p', hp, hp', rfl⟩ := pivotName_eq_ok_iff.1 h
  obtain rfl := Except.ok.inj (hp.symm.trans hpart)
  obtain rfl := Except.ok.inj (hp'.symm.trans hpart')
  have hjoined : ∀ s t : String, (s ++ "_" ++ t).toList.filter (· ≠ '_') =
      s.toList.filter (· ≠ '_') ++ t.toList.filter (· ≠ '_') := by
    intro s t
    simp [List.filter_append]
  rw [hjoined]
  rcases le_total p p' with hle | hle
  · rw [min_eq_left hle, max_eq_right hle]
  · rw [min_eq_right hle, max_eq_left hle]
    exact List.perm_append_comm

/-- **Join tables of plurals.**  Take two entities that are their own singulars and have a join table.  It is named the
same if one of them, or both, are written in the plural, exactly if both lead back from their plurals. -/
theorem pivotName_plural {a b name : String} (ha : singular a = .ok a) (hb : singular b = .ok b)
    (hname : pivotName a b = .ok name) : ∃ many many', plural a = .ok many ∧ plural b = .ok many' ∧
      (pivotName many many' = .ok name ∧ pivotName many b = .ok name ↔
        LeadsBackName a.toList ∧ LeadsBackName b.toList) := by
  obtain ⟨part, part', hpart, hpart', hjoined⟩ := pivotName_eq_ok_iff.1 hname
  obtain ⟨many, hmany, hiff⟩ := pivotPart_plural ha hpart
  obtain ⟨many', hmany', hiff'⟩ := pivotPart_plural hb hpart'
  refine ⟨many, many', hmany, hmany', ?_, ?_⟩
  · rintro ⟨hboth, hone⟩
    obtain ⟨p, p', hp, hp', -⟩ := pivotName_eq_ok_iff.1 hboth
    have hletters := filter_pivotName hname hpart hpart'
    -- the letters of `b` are in both names, so those of `a` and of its plural are the same
    have hfirst := (List.perm_append_right_iff _).1 ((filter_pivotName hone hp hpart').symm.trans hletters)
    have hsecond := (filter_pivotName hboth hp hp').symm.trans (hletters.trans (hfirst.symm.append_right _))
    exact ⟨hiff.leads_of_perm p hp hfirst, hiff'.leads_of_perm p' hp' ((List.perm_append_left_iff _).1 hsecond)⟩
  · rintro ⟨hleads, hleads'⟩
    have hparts : ∀ {a' b' : String}, pivotPart a' = .ok part → pivotPart b' = .ok part' → pivotName a' b' = .ok name :=
      fun h h' => pivotName_eq_ok_iff.2 ⟨part, part', h, h', hjoined⟩
    exact ⟨hparts (hiff.part_eq hleads) (hiff'.part_eq hleads'), hparts (hiff.part_eq hleads) hpart'⟩

/-- Posts and tags have the join table of a post and a tag. -/
theorem pivotName_plural_posts :
    (singular "Post" = .ok "Post" ∧ singular "Tag" = .ok "Tag" ∧ pivotName "Post" "Tag" = .ok "post_tag") ∧
    (pivotName "Posts" "Tags" = .ok "post_tag" ∧ pivotName "Posts" "Tag" = .ok "post_tag") ∧
    LeadsBackName "Post".toList ∧ LeadsBackName "Tag".toList := by
  have hruns : (singular "Post" = .ok "Post" ∧ singular "Tag" = .ok "Tag" ∧ pivotName "Post" "Tag" = .ok "post_tag") ∧
      (plural "Post" = .ok "Posts" ∧ plural "Tag" = .ok "Tags") ∧
      pivotName "Posts" "Tags" = .ok "post_tag" ∧ pivotName "Posts" "Tag" = .ok "post_tag" := by decide
  obtain ⟨⟨hpost, htag, hname⟩, ⟨hposts, htags⟩, hboth, hone⟩ := hruns
  obtain ⟨many, many', hmany, hmany', hiff⟩ := pivotName_plural hpost htag hname
  obtain rfl := Except.ok.inj (hposts.symm.trans hmany)
  obtain rfl := Except.ok.inj (htags.symm.trans hmany')
  exact ⟨⟨hpost, htag, hname⟩, ⟨hboth, hone⟩, hiff.1 ⟨hboth, hone⟩⟩

/-- Viruses have not that of a virus: the singular of the plural keeps a letter too many. -/
theorem not_pivotName_plural :
    (singular "virus" = .ok "virus" ∧ plural "virus" = .ok "viruses" ∧ singular "viruses" = .ok "viruse") ∧
    (pivotName "virus" "Post" = .ok "post_virus" ∧ pivotName "viruses" "Post" = .ok "post_viruse") ∧
    ¬ ∀ a b name many : String, singular a = .ok a → singular b = .ok b → pivotName a b = .ok name →
      plural a = .ok many → pivotName many b = .ok name := by
  have hruns : (singular "virus" = .ok "virus" ∧ plural "virus" = .ok "viruses" ∧
      singular "viruses" = .ok "viruse" ∧ singular "Post" = .ok "Post") ∧
      pivotName "virus" "Post" = .ok "post_virus" ∧ pivotName "viruses" "Post" = .ok "post_viruse" := by decide
  obtain ⟨⟨hvirus, hmany, hone, hpost⟩, hname, hother⟩ := hruns
  refine ⟨⟨hvirus, hmany, hone⟩, ⟨hname, hother⟩, fun h => ?_⟩
  have hsame := Except.ok.inj (hother.symm.trans (h _ _ _ _ hvirus hpost hname hmany))
  exact absurd hsame (by decide)

end CrudScaffold.Spec
