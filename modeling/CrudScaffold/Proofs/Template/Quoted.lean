import CrudScaffold.Proofs.Code.Arguments
import CrudScaffold.Proofs.Template.Packaged

/-!
# CrudScaffold.Proofs.Template.Quoted — templates whose slots stand between quotes

`quotedSlots` cuts a template at its slots, if every quote of the template stands at one.  The filled template is then
made of its code and of the values, each between quotes as it is (`flatMap_fill_of_quotedSlots`).  The packaged
template for the migration of a join table is cut so, and its second to fifth slots are those of the keys
(`quotedSlots_pivotMigration`).
-/

namespace CrudScaffold.Template

open CrudScaffold.Code

/-- The slots of a template, each with the code in front of it, and the code behind the last one.  None unless every
slot stands between quotes and every quote beside a slot. -/
def quotedSlots : List Segment → Option (List (List Char × String) × List Char)
  | [] => some ([], [])
  | .literal '\'' :: .marker m :: .literal '\'' :: pieces =>
    (quotedSlots pieces).map fun (slots, rest) => (([], String.ofList m.name) :: slots, rest)
  | .literal c :: pieces =>
    if c = '\'' then none
    else (quotedSlots pieces).map fun
      | ([], rest) => ([], c :: rest)
      | ((code, name) :: slots, rest) => ((c :: code, name) :: slots, rest)
  | .marker _ :: _ => none

/-- The code around the slots has no quotes. -/
theorem notMem_of_quotedSlots {pieces : List Segment} {slots : List (List Char × String)} {rest : List Char}
    (h : quotedSlots pieces = some (slots, rest)) : (∀ slot ∈ slots, '\'' ∉ slot.1) ∧ '\'' ∉ rest := by
  fun_induction quotedSlots pieces generalizing slots rest with
  | case1 =>
    cases h
    exact ⟨nofun, List.not_mem_nil⟩
  | case2 m pieces ih =>
    obtain ⟨⟨slots', rest'⟩, hslots, h⟩ := Option.map_eq_some_iff.1 h
    cases h
    obtain ⟨hslots, hrest⟩ := ih hslots
    exact ⟨List.forall_mem_cons.2 ⟨List.not_mem_nil, hslots⟩, hrest⟩
  | case3 => cases h
  | case4 c pieces _ hc ih =>
    obtain ⟨⟨slots', rest'⟩, hslots, h⟩ := Option.map_eq_some_iff.1 h
    obtain ⟨hcodes, hrest⟩ := ih hslots
    have hcons : ∀ cs : List Char, '\'' ∉ cs → '\'' ∉ c :: cs := by
      intro cs hcs
      rw [List.mem_cons, not_or]
      exact ⟨Ne.symm hc, hcs⟩
    -- the character goes to the code in front of the next slot, or behind the last one
    cases slots' with
    | nil =>
      cases h
      exact ⟨nofun, hcons _ hrest⟩
    | cons slot slots' =>
      cases h
      obtain ⟨hfirst, hcodes⟩ := List.forall_mem_cons.1 hcodes
      exact ⟨List.forall_mem_cons.2 ⟨hcons _ hfirst, hcodes⟩, hrest⟩
  | case5 => cases h

/-- A filled template is its code with the values between quotes. -/
theorem flatMap_fill_of_quotedSlots {context : Context} {value : String → String} {pieces : List Segment}
    {slots : List (List Char × String)} {rest : List Char} (h : quotedSlots pieces = some (slots, rest))
    (hvalues : ∀ name ∈ slots.map Prod.snd, context.lookup name = some (value name)) :
    pieces.flatMap (Segment.fill context) = writtenPieces (slots.map fun slot => (slot.1, value slot.2)) rest := by
  fun_induction quotedSlots pieces generalizing slots rest with
  | case1 =>
    cases h
    rfl
  | case2 m pieces ih =>
    obtain ⟨⟨slots', rest'⟩, hslots, h⟩ := Option.map_eq_some_iff.1 h
    cases h
    obtain ⟨hvalue, hvalues⟩ := List.forall_mem_cons.1 hvalues
    have hfill : (Segment.marker m).fill context = (value (String.ofList m.name)).toList := by
      simp only [Segment.fill, hvalue]
    rw [List.flatMap_cons, List.flatMap_cons, List.flatMap_cons, hfill, ih hslots hvalues]
    rfl
  | case3 => cases h
  | case4 c pieces _ hc ih =>
    obtain ⟨⟨slots', rest'⟩, hslots, h⟩ := Option.map_eq_some_iff.1 h
    cases slots' with
    | nil =>
      cases h
      rw [List.flatMap_cons, ih hslots (List.forall_mem_nil _)]
      rfl
    | cons slot slots' =>
      cases h
      rw [List.flatMap_cons, ih hslots hvalues]
      rfl
  | case5 => cases h

/-! ### The migration of a join table -/

/-- Six pieces of code and what follows them: the second and the third piece end in calls of `foreignId`, the fourth and
the fifth one in a call of `primary`. -/
structure JoinCode (codes : List (List Char)) (rest : List Char) : Prop where
  noQuote : ∀ code ∈ codes, '\'' ∉ code
  noQuoteBehind : '\'' ∉ rest
  /-- Behind the first piece there is no backslash either. -/
  noBackslash : ∀ code ∈ codes.tail, '\\' ∉ code
  foreignId : openedAt "->foreignId(".toList false codes = [false, true, true, false, false, false]
  primary : openedAt "->primary(".toList false codes = [false, false, false, true, true, false]

/-- The slots of the template, in such code. -/
theorem quotedSlots_pivotMigration : ∃ slots rest,
    quotedSlots (segments TemplateName.pivotMigration.packaged.toList) = some (slots, rest) ∧
    slots.map Prod.snd = ["pivotTableName", "foreignKey", "relatedKey", "foreignKey", "relatedKey", "pivotTableName"] ∧
    JoinCode (slots.map Prod.fst) rest := by
  have hslots : (quotedSlots (segments TemplateName.pivotMigration.packaged.toList)).map (fun (slots, _) =>
      (slots.map Prod.snd, openedAt "->foreignId(".toList false (slots.map Prod.fst),
        openedAt "->primary(".toList false (slots.map Prod.fst),
        (slots.map Prod.fst).tail.all fun code => !code.contains '\\')) =
      some (["pivotTableName", "foreignKey", "relatedKey", "foreignKey", "relatedKey", "pivotTableName"],
        [false, true, true, false, false, false], [false, false, false, true, true, false], true) := by
    -- the template line by line, as lists of characters
    simp only [TemplateName.packaged, pivotMigrationText, toList_textOfLines, toList_slot, String.toList_append,
      List.flatMap_cons, List.flatMap_nil]
    repeat rw [String.toList_ofList]
    decide +kernel
  obtain ⟨⟨slots, rest⟩, hcut, hslots⟩ := Option.map_eq_some_iff.1 hslots
  simp only [Prod.mk.injEq, List.all_eq_true, Bool.not_eq_true', List.contains_eq_mem, decide_eq_false_iff_not]
    at hslots
  obtain ⟨hnames, hforeign, hprimary, hbackslash⟩ := hslots
  obtain ⟨hcodes, hrest⟩ := notMem_of_quotedSlots hcut
  exact ⟨slots, rest, hcut, hnames, List.forall_mem_map.2 hcodes, hrest, hbackslash, hforeign, hprimary⟩

end CrudScaffold.Template
