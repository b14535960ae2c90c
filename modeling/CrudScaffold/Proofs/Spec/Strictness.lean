import CrudScaffold.Proofs.Spec.RelationTokens

/-!
# CrudScaffold.Proofs.Spec.Strictness — strict and lenient reading of relations

The two modes part at the first token of an unknown kind (`FirstUnknown`): strict reading ends there, and lenient
reading skips the token and goes on.  Up to there they do the same, so a strict fault is the lenient one, or that of
the first unknown token (`strict_error_cases`); this token is the first that lenient reading skips
(`FirstUnknown.skipped`), and a lenient fault comes later (`FirstUnknown.before_offence`).
-/

namespace CrudScaffold.Spec

open CrudScaffold.Naming CrudScaffold.Text

/-- The token at the position is the first one of an unknown kind, and those before it give relations. -/
structure FirstUnknown (ts : List String) (position : Nat) (token kindToken : String) : Prop where
  place : ∃ before after, ts = before ++ token :: after ∧ position = before.length + 1 ∧
    ∀ t ∈ before, ∃ r, Gives t r
  unknown : Unknown token kindToken

/-! ### The three kinds of tokens exclude each other -/

theorem Gives.not_unknown {token kindToken : String} {r : Relation} (h : Gives token r) :
    ¬ Unknown token kindToken := by
  rintro ⟨⟨related, foreignKey, localKey, hfour⟩, hnone⟩
  obtain ⟨⟨kindToken', hfour', hkind⟩, -⟩ := h
  obtain ⟨rfl, -⟩ := List.cons.inj (hfour'.parts.symm.trans hfour.parts)
  exact hnone r.kind hkind

theorem Acceptable.not_offends {position : Nat} {token : String} {e : RelationFault} (h : Acceptable token) :
    ¬ Offends false position token e := by
  intro hoffends
  have hfault := start_readRelation_of_offends hoffends
  rcases acceptable_iff.1 h with ⟨r, hr⟩ | ⟨kindToken, hunknown⟩
  · rw [start_readRelation_of_gives false position hr] at hfault
    cases hfault
  · rw [start_readRelation_of_unknown position hunknown] at hfault
    cases hfault

/-! ### From one mode to the other -/

/-- Strict reading sorts what lenient reading sorts without skipping anything. -/
theorem sorts_strict_iff {position : Nat} {ts : List String} {relations : List Relation} {skipped : List String}
    {journal : Journal} : Sorts true position ts relations skipped journal ↔
      Sorts false position ts relations skipped journal ∧ skipped = [] := by
  constructor
  · intro h
    induction h with
    | nil => exact ⟨.nil, rfl⟩
    | relation h _ ih => exact ⟨.relation h ih.1, ih.2⟩
    | skipped hlenient => cases hlenient
  · rintro ⟨h, hnone⟩
    induction h with
    | nil => exact .nil
    | relation h _ ih => exact .relation h (ih hnone)
    | skipped => cases hnone

theorem Offends.cases_strict {position : Nat} {token : String} {e : RelationFault} (h : Offends true position token e) :
    Offends false position token e ∨
      ∃ kindToken, Unknown token kindToken ∧ e = .unknownKind position token kindToken := by
  cases h with
  | wrongCount h => exact Or.inl (.wrongCount h)
  | emptyParts h hempty => exact Or.inl (.emptyParts h hempty)
  | unknownKind _ h => exact Or.inr ⟨_, h, rfl⟩
  | unusableName h hkind hrelated => exact Or.inl (.unusableName h hkind hrelated)

theorem Sorts.gives_of_strict {position : Nat} {ts : List String} {relations : List Relation} {skipped : List String}
    {journal : Journal} (h : Sorts true position ts relations skipped journal) : ∀ t ∈ ts, ∃ r, Gives t r := by
  induction h with
  | nil => exact nofun
  | relation h _ ih => exact List.forall_mem_cons.2 ⟨⟨_, h⟩, ih⟩
  | skipped hlenient => cases hlenient

/-- If strict reading fails, lenient reading fails with the same fault, or there is a first token of an unknown kind and
the fault is about it. -/
theorem strict_error_cases {spec : Option String} {e : RelationFault}
    (h : (parseRelations true spec).start.1 = .error e) :
    (parseRelations false spec).start.1 = .error e ∨ ∃ position token kindToken,
      FirstUnknown (tokens (spec.getD "")) position token kindToken ∧ e = .unknownKind position token kindToken := by
  cases hblank : isAllBlank (spec.getD "") with
  | true =>
    rw [parseRelations_of_blank true hblank] at h
    cases h
  | false =>
    obtain ⟨before, token, after, relations, skipped, htokens, hsorts, hoffends⟩ :=
      (parseRelations_error_iff hblank).1 (Prod.ext h rfl)
    rcases hoffends.cases_strict with hlenient | ⟨kindToken, hunknown, rfl⟩
    · refine Or.inl ?_
      rw [(parseRelations_error_iff hblank).2 ⟨before, token, after, relations, skipped, htokens,
        (sorts_strict_iff.1 hsorts).1, hlenient⟩]
    · exact Or.inr ⟨_, token, kindToken, ⟨⟨before, after, htokens, Nat.add_comm _ _, hsorts.gives_of_strict⟩, hunknown⟩,
        rfl⟩

/-! ### The first token of an unknown kind -/

/-- Lenient reading skips it, and no token before it. -/
theorem FirstUnknown.skipped {ts : List String} {position start : Nat} {token kindToken : String}
    (h : FirstUnknown ts position token kindToken) {relations : List Relation} {skipped : List String}
    {journal : Journal} (hsorts : Sorts false start ts relations skipped journal) : skipped.head? = some token := by
  obtain ⟨⟨before, after, rfl, -, hbefore⟩, hunknown⟩ := h
  induction before generalizing start relations skipped journal with
  | nil =>
    cases hsorts with
    | relation hgives => exact absurd hunknown hgives.not_unknown
    | skipped => rfl
  | cons t before ih =>
    obtain ⟨⟨r, hr⟩, hbefore⟩ := List.forall_mem_cons.1 hbefore
    cases hsorts with
    | relation _ hrest => exact ih hrest hbefore
    | skipped _ hskip => exact absurd hskip hr.not_unknown

/-- A token that offends in lenient reading stands behind it. -/
theorem FirstUnknown.before_offence {before after : List String} {position : Nat} {token kindToken bad : String}
    (h : FirstUnknown (before ++ bad :: after) position token kindToken) {start : Nat} {e : RelationFault}
    (hoffends : Offends false start bad e) : position < before.length + 1 := by
  obtain ⟨⟨front, back, hsplit, rfl, hfront⟩, hunknown⟩ := h
  have hfine : ∀ t ∈ front ++ [token], Acceptable t := by
    refine List.forall_mem_append.2 ⟨fun t ht => acceptable_iff.2 (Or.inl (hfront t ht)), ?_⟩
    exact List.forall_mem_singleton.2 (acceptable_iff.2 (Or.inr ⟨kindToken, hunknown⟩))
  -- otherwise the offending token would be one of the acceptable ones
  by_contra hle
  have hbad : bad ∈ front ++ [token] := by
    have hshort : before.length < (front ++ [token]).length := by
      rw [List.length_append, List.length_singleton]
      omega
    have hplace : (before ++ bad :: after)[before.length]? = some bad := by simp
    rw [hsplit, List.append_cons, List.getElem?_append_left hshort] at hplace
    exact List.mem_of_getElem? hplace
  exact (hfine bad hbad).not_offends hoffends

/-! ### The two modes -/

/-- **Strict and lenient reading agree.**  Strict reading succeeds with a list exactly if lenient reading succeeds with
it and skips nothing.  If only strict reading fails, its fault has the position and the text of the first token that
lenient reading skips.  If both fail, the strict fault comes first, or it is the same. -/
theorem strict_agrees (spec : Option String) :
    (∀ list, (parseRelations true spec).start.1 = .ok list ↔
      (parseRelations false spec).start.1 = .ok list ∧ list.skipped = []) ∧
    (∀ e list, (parseRelations true spec).start.1 = .error e → (parseRelations false spec).start.1 = .ok list →
      ∃ position token kindToken, FirstUnknown (tokens (spec.getD "")) position token kindToken ∧
        list.skipped.head? = some token ∧ e = .unknownKind position token kindToken ∧ e.position = position ∧
          e.token = token) ∧
    ∀ e e', (parseRelations true spec).start.1 = .error e → (parseRelations false spec).start.1 = .error e' →
      e.position ≤ e'.position ∧ (e.position = e'.position → e = e') := by
  cases hblank : isAllBlank (spec.getD "") with
  | true =>
    rw [parseRelations_of_blank true hblank, parseRelations_of_blank false hblank]
    refine ⟨fun list => ⟨fun h => ?_, And.left⟩, nofun, nofun⟩
    cases h
    exact ⟨rfl, rfl⟩
  | false =>
    -- a strict error is the lenient one, or the first unknown kind
    refine ⟨fun list => ⟨fun h => ?_, ?_⟩, fun e list h hlist => ?_, fun e e' h h' => ?_⟩
    · obtain ⟨hsorts, hnone⟩ := sorts_strict_iff.1 ((parseRelations_ok_iff hblank).1 (Prod.ext h rfl))
      exact ⟨by rw [(parseRelations_ok_iff hblank).2 hsorts], hnone⟩
    · rintro ⟨h, hnone⟩
      have hsorts := sorts_strict_iff.2 ⟨(parseRelations_ok_iff hblank).1 (Prod.ext h rfl), hnone⟩
      rw [(parseRelations_ok_iff hblank).2 hsorts]
    · rcases strict_error_cases h with hlenient | ⟨position, token, kindToken, hfirst, rfl⟩
      · cases hlist.symm.trans hlenient
      · have hsorts := (parseRelations_ok_iff hblank).1 (Prod.ext hlist rfl)
        exact ⟨position, token, kindToken, hfirst, hfirst.skipped hsorts, rfl, rfl, rfl⟩
    · rcases strict_error_cases h with hlenient | ⟨position, token, kindToken, hfirst, rfl⟩
      · obtain rfl := Except.error.inj (hlenient.symm.trans h')
        exact ⟨Nat.le_refl _, fun _ => rfl⟩
      · obtain ⟨before, bad, after, _, _, htokens, -, hoffends⟩ := (parseRelations_error_iff hblank).1 (Prod.ext h' rfl)
        rw [htokens] at hfirst
        have hlater := hfirst.before_offence hoffends
        have hplace := hoffends.place.2
        simp only [RelationFault.position] at hplace ⊢
        omega

/-- An unknown kind alone, and one in front of an entity without a letter or a digit. -/
theorem strict_agrees_mixed :
    (parseRelations true (some "hasMany:Post:user_id:id")).start.1 = .ok ⟨[⟨.hasMany, "Post", "user_id", "id"⟩], []⟩ ∧
    (∃ e list, (parseRelations true (some "hasMany:Post:a:b,foo:c:d:e,bar:f:g:h")).start.1 = .error e ∧
      (parseRelations false (some "hasMany:Post:a:b,foo:c:d:e,bar:f:g:h")).start.1 = .ok list ∧
      list.skipped = ["foo:c:d:e", "bar:f:g:h"] ∧ e.token = "foo:c:d:e") ∧
    ∃ e e', (parseRelations true (some "foo:c:d:e,hasOne:-:x:y")).start.1 = .error e ∧
      (parseRelations false (some "foo:c:d:e,hasOne:-:x:y")).start.1 = .error e' ∧ e.position ≤ e'.position := by
  have hone : (parseRelations false (some "hasMany:Post:user_id:id")).start.1 =
      .ok ⟨[⟨.hasMany, "Post", "user_id", "id"⟩], []⟩ := by decide +kernel
  have hstrict : (parseRelations true (some "hasMany:Post:a:b,foo:c:d:e,bar:f:g:h")).start.1 =
      .error (.unknownKind 2 "foo:c:d:e" "foo") := by decide +kernel
  have hlenient : (parseRelations false (some "hasMany:Post:a:b,foo:c:d:e,bar:f:g:h")).start.1 =
      .ok ⟨[⟨.hasMany, "Post", "a", "b"⟩], ["foo:c:d:e", "bar:f:g:h"]⟩ := by decide +kernel
  have hfirst : (parseRelations true (some "foo:c:d:e,hasOne:-:x:y")).start.1 =
      .error (.unknownKind 1 "foo:c:d:e" "foo") := by decide +kernel
  have hlater : (parseRelations false (some "foo:c:d:e,hasOne:-:x:y")).start.1 =
      .error (.unusableName 2 "hasOne:-:x:y" "-") := by decide +kernel
  refine ⟨((strict_agrees _).1 _).2 ⟨hone, rfl⟩, ⟨_, _, hstrict, hlenient, rfl, ?_⟩, _, _, hfirst, hlater,
    ((strict_agrees _).2.2 _ _ hfirst hlater).1⟩
  obtain ⟨position, token, kindToken, -, hskipped, -, -, htoken⟩ := (strict_agrees _).2.1 _ _ hstrict hlenient
  exact htoken.trans (Option.some.inj hskipped).symm

end CrudScaffold.Spec
