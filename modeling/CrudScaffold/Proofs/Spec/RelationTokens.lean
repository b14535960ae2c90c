import CrudScaffold.Proofs.Naming.Capitals
import CrudScaffold.Proofs.Naming.Segments
import CrudScaffold.Proofs.Spec.Fields
import CrudScaffold.Proofs.Spec.Relations

/-!
# CrudScaffold.Proofs.Spec.RelationTokens — which relation specs are read, and as what

A token `Gives` a relation, or is of an `Unknown` kind, or `Offends` against a rule.  A spec is read exactly when none
of its tokens offends; then its tokens are sorted, in their order, into relations and skipped tokens, with one warning
for each of the latter (`Sorts`, `readRelations_ok_iff`).  If it is not read, the fault is that of the first token
that offends (`readRelations_error_iff`).  `parseRelations_exact` states both for whole specs, and that relations
which have been read are read again from what is written for them.
-/

namespace CrudScaffold.Spec

open CrudScaffold.Text CrudScaffold.Naming

/-! ### Parts of a token -/

/-- The last segment of the name has a letter or a digit. -/
def HasUsableSegment (related : String) : Prop :=
  ∃ last, (segments related.toList).getLast? = some last ∧ ∃ c ∈ last, c.isAlphanum = true

/-- A trimmed name can be used when its last segment can. -/
theorem isUsable_iff {related : String} (htrim : strip related = related) :
    isUsable related = true ↔ HasUsableSegment related := by
  have hself := strip_eq_self_iff.1 htrim
  rw [isUsable_eq_true_iff, HasUsableSegment]
  constructor
  · rintro ⟨base, camel, hbase, hcamel⟩
    have hlast := baseName_ok hbase
    rw [hself] at hlast
    exact ⟨_, hlast, camelCase_isOk_iff.1 ⟨camel, hcamel⟩⟩
  · rintro ⟨last, hlast, c, hc, halnum⟩
    have hbase : baseName related = .ok (String.ofList last) := by
      rw [baseName_eq_ok_iff, hself, hlast, String.toList_ofList]
    have hletter : ∃ c ∈ (String.ofList last).toList, c.isAlphanum = true := ⟨c, by simpa using hc, halnum⟩
    obtain ⟨camel, hcamel⟩ := camelCase_isOk_iff.2 hletter
    exact ⟨_, camel, hbase, hcamel⟩

/-- The token names the kind, in any letter case. -/
def Names (kindToken : String) (kind : RelationKind) : Prop := lower kindToken = lower kind.label

instance (kindToken : String) (kind : RelationKind) : Decidable (Names kindToken kind) :=
  inferInstanceAs (Decidable (lower kindToken = lower kind.label))

theorem ofToken?_eq_some_iff {kindToken : String} (htrim : strip kindToken = kindToken) {kind : RelationKind} :
    RelationKind.ofToken? kindToken = some kind ↔ Names kindToken kind := by
  rw [RelationKind.ofToken?, htrim, Names]
  constructor
  · intro h
    have h := List.find?_some h
    exact (by simpa using h : lower kind.label = lower kindToken).symm
  · intro h
    rw [h]
    cases kind <;> decide

theorem ofToken?_eq_none_iff {kindToken : String} (htrim : strip kindToken = kindToken) :
    RelationKind.ofToken? kindToken = none ↔ ∀ kind, ¬ Names kindToken kind := by
  rw [Option.eq_none_iff_forall_ne_some]
  exact forall_congr' fun kind => not_congr (ofToken?_eq_some_iff htrim)

theorem strip_of_mem_tokenParts {token part : String} (h : part ∈ tokenParts token) : strip part = part := by
  obtain ⟨piece, -, rfl⟩ := List.mem_map.1 h
  rw [strip, String.toList_ofList, trim_trim]

theorem mem_of_mem_tokenParts {token part : String} (h : part ∈ tokenParts token) {c : Char} (hc : c ∈ part.toList) :
    c ∈ token.toList ∧ c ≠ ':' := by
  obtain ⟨piece, hpiece, rfl⟩ := List.mem_map.1 h
  rw [String.toList_ofList] at hc
  exact mem_of_mem_cutAll hpiece (mem_trim hc)

theorem emptyPartNames_isEmpty_iff {parts : List String} (h : parts.length = 4) :
    (emptyPartNames parts).isEmpty = true ↔ "" ∉ parts := by
  have hparts : (["kind", "related entity", "foreign key", "local key"].zip parts).map Prod.snd = parts :=
    List.map_snd_zip (by simp [h])
  rw [emptyPartNames, List.isEmpty_iff, List.map_eq_nil_iff, List.filter_eq_nil_iff]
  conv_rhs => rw [← hparts]
  simp only [String.isEmpty_iff, List.mem_map, not_exists, not_and]

/-! ### Tokens -/

/-- The token has these four parts, and none of them is empty. -/
structure FourParts (token kind related foreignKey localKey : String) : Prop where
  parts : tokenParts token = [kind, related, foreignKey, localKey]
  full : "" ∉ [kind, related, foreignKey, localKey]

/-- The token gives the relation. -/
structure Gives (token : String) (r : Relation) : Prop where
  parts : ∃ kindToken, FourParts token kindToken r.related r.foreignKey r.localKey ∧ Names kindToken r.kind
  usable : HasUsableSegment r.related

/-- The token has four parts, but its first one names no kind. -/
def Unknown (token kindToken : String) : Prop :=
  (∃ related foreignKey localKey, FourParts token kindToken related foreignKey localKey) ∧
    ∀ kind, ¬ Names kindToken kind

/-- How the token at a position breaks a rule.  An unknown kind is a fault only if reading is strict. -/
inductive Offends (strict : Bool) (position : Nat) (token : String) : RelationFault → Prop
  | wrongCount (h : (tokenParts token).length ≠ 4) :
      Offends strict position token (.wrongCount position token (tokenParts token).length)
  | emptyParts (h : (tokenParts token).length = 4) (hempty : "" ∈ tokenParts token) :
      Offends strict position token (.emptyParts position token (emptyPartNames (tokenParts token)))
  | unknownKind {kindToken : String} (hstrict : strict = true) (h : Unknown token kindToken) :
      Offends strict position token (.unknownKind position token kindToken)
  | unusableName {kindToken related foreignKey localKey : String} {kind : RelationKind}
      (h : FourParts token kindToken related foreignKey localKey) (hkind : Names kindToken kind)
      (hrelated : ¬ HasUsableSegment related) : Offends strict position token (.unusableName position token related)

/-- A fault names the token that breaks the rule and its position. -/
theorem Offends.place {strict : Bool} {position : Nat} {token : String} {e : RelationFault}
    (h : Offends strict position token e) : e.token = token ∧ e.position = position := by
  cases h <;> exact ⟨rfl, rfl⟩

/-- What the journal says about a token that is skipped. -/
def skipWarning (position : Nat) (token kindToken : String) : Record :=
  ⟨.warning, .specs, s!"Skipping relation #{position} {Text.display token}: unknown kind " ++
    s!"{Text.display kindToken} (expected one of: {RelationKind.labels})."⟩

theorem FourParts.strip {token kindToken related foreignKey localKey : String}
    (h : FourParts token kindToken related foreignKey localKey) {part : String}
    (hpart : part ∈ [kindToken, related, foreignKey, localKey]) : Text.strip part = part :=
  strip_of_mem_tokenParts (h.parts ▸ hpart)

/-- A token gives a relation, or its kind is unknown and may be skipped, or it offends. -/
theorem token_cases (strict : Bool) (position : Nat) (token : String) :
    (∃ r, Gives token r) ∨ (strict = false ∧ ∃ kindToken, Unknown token kindToken) ∨
      ∃ e, Offends strict position token e := by
  -- one check after the other: four parts, none empty, a known kind, a usable name
  by_cases hlength : (tokenParts token).length = 4
  swap
  · exact Or.inr (Or.inr ⟨_, .wrongCount hlength⟩)
  by_cases hempty : "" ∈ tokenParts token
  · exact Or.inr (Or.inr ⟨_, .emptyParts hlength hempty⟩)
  obtain ⟨kindToken, related, foreignKey, localKey, hparts⟩ : ∃ a b c d, tokenParts token = [a, b, c, d] := by
    match tokenParts token, hlength with
    | [a, b, c, d], _ => exact ⟨a, b, c, d, rfl⟩
  have hfour : FourParts token kindToken related foreignKey localKey := ⟨hparts, hparts ▸ hempty⟩
  by_cases hkind : ∃ kind, Names kindToken kind
  · obtain ⟨kind, hkind⟩ := hkind
    by_cases husable : HasUsableSegment related
    · exact Or.inl ⟨⟨kind, related, foreignKey, localKey⟩, ⟨kindToken, hfour, hkind⟩, husable⟩
    · exact Or.inr (Or.inr ⟨_, .unusableName hfour hkind husable⟩)
  · have hunknown : Unknown token kindToken := ⟨⟨related, foreignKey, localKey, hfour⟩, not_exists.1 hkind⟩
    cases strict with
    | false => exact Or.inr (Or.inl ⟨rfl, kindToken, hunknown⟩)
    | true => exact Or.inr (Or.inr ⟨_, .unknownKind rfl hunknown⟩)

/-! ### Reading a token -/

theorem start_readRelation_of_gives (strict : Bool) (position : Nat) {token : String} {r : Relation}
    (h : Gives token r) : (readRelation strict position token).start = (.ok (.relation r), []) := by
  obtain ⟨⟨kindToken, hfour, hkind⟩, husable⟩ := h
  have hkind := (ofToken?_eq_some_iff (hfour.strip (by simp))).2 hkind
  have husable := (isUsable_iff (hfour.strip (by simp))).2 husable
  have hfull := (emptyPartNames_isEmpty_iff rfl).2 hfour.full
  simp only [readRelation, hfour.parts, hfull, if_true, hkind, husable]
  rfl

theorem start_readRelation_of_unknown (position : Nat) {token kindToken : String} (h : Unknown token kindToken) :
    (readRelation false position token).start = (.ok (.skipped token), [skipWarning position token kindToken]) := by
  obtain ⟨⟨related, foreignKey, localKey, hfour⟩, hkind⟩ := h
  have hkind := (ofToken?_eq_none_iff (hfour.strip (by simp))).2 hkind
  have hfull := (emptyPartNames_isEmpty_iff rfl).2 hfour.full
  simp only [readRelation, hfour.parts, hfull, if_true, hkind]
  rfl

theorem start_readRelation_of_offends {strict : Bool} {position : Nat} {token : String} {e : RelationFault}
    (h : Offends strict position token e) : (readRelation strict position token).start = (.error e, []) := by
  -- the check that the token does not pass decides the error
  cases h with
  | wrongCount h =>
    unfold readRelation
    simp only
    split
    · rename_i hparts
      rw [hparts] at h
      exact absurd rfl h
    · rfl
  | emptyParts h hempty =>
    have hfull : (emptyPartNames (tokenParts token)).isEmpty ≠ true := fun hnone =>
      (emptyPartNames_isEmpty_iff h).1 hnone hempty
    unfold readRelation
    simp only
    split
    · rename_i hparts
      rw [hparts] at hfull ⊢
      simp only [hfull]
      rfl
    · rename_i hother
      obtain ⟨a, b, c, d, hparts⟩ : ∃ a b c d, tokenParts token = [a, b, c, d] := by
        match tokenParts token, h with
        | [a, b, c, d], _ => exact ⟨a, b, c, d, rfl⟩
      exact absurd hparts (hother a b c d)
  | unknownKind hstrict h =>
    obtain ⟨⟨related, foreignKey, localKey, hfour⟩, hkind⟩ := h
    have hkind := (ofToken?_eq_none_iff (hfour.strip (by simp))).2 hkind
    have hfull := (emptyPartNames_isEmpty_iff rfl).2 hfour.full
    simp only [readRelation, hfour.parts, hfull, if_true, hkind, hstrict]
    rfl
  | unusableName hfour hkind hrelated =>
    have hkind := (ofToken?_eq_some_iff (hfour.strip (by simp))).2 hkind
    have hfull := (emptyPartNames_isEmpty_iff rfl).2 hfour.full
    rw [← isUsable_iff (hfour.strip (by simp))] at hrelated
    simp only [readRelation, hfour.parts, hfull, if_true, hkind, hrelated]
    rfl

/-! ### Reading tokens -/

/-- The tokens from a position on are sorted, in their order, into relations and skipped tokens; the journal has one
warning for each token that is skipped. -/
inductive Sorts (strict : Bool) : Nat → List String → List Relation → List String → Journal → Prop
  | nil {position : Nat} : Sorts strict position [] [] [] []
  | relation {position : Nat} {token : String} {tokens : List String} {r : Relation} {relations : List Relation}
      {skipped : List String} {journal : Journal} (h : Gives token r)
      (hrest : Sorts strict (position + 1) tokens relations skipped journal) :
      Sorts strict position (token :: tokens) (r :: relations) skipped journal
  | skipped {position : Nat} {token kindToken : String} {tokens : List String} {relations : List Relation}
      {skipped : List String} {journal : Journal} (hlenient : strict = false) (h : Unknown token kindToken)
      (hrest : Sorts strict (position + 1) tokens relations skipped journal) :
      Sorts strict position (token :: tokens) relations (token :: skipped)
        (skipWarning position token kindToken :: journal)

/-- Every token is in one of the two lists, and there are as many warnings as skipped tokens. -/
theorem Sorts.length_eq {strict : Bool} {position : Nat} {tokens : List String} {relations : List Relation}
    {skipped : List String} {journal : Journal} (h : Sorts strict position tokens relations skipped journal) :
    relations.length + skipped.length = tokens.length ∧ journal.length = skipped.length := by
  induction h with
  | nil => exact ⟨rfl, rfl⟩
  | relation h hrest ih =>
    simp only [List.length_cons]
    omega
  | skipped hlenient h hrest ih =>
    simp only [List.length_cons]
    omega

theorem Sorts.channel {strict : Bool} {position : Nat} {tokens : List String} {relations : List Relation}
    {skipped : List String} {journal : Journal} (h : Sorts strict position tokens relations skipped journal) :
    ∀ entry ∈ journal, entry.channel = .specs := by
  induction h with
  | nil => exact nofun
  | relation _ _ ih => exact ih
  | skipped _ _ _ ih => exact List.forall_mem_cons.2 ⟨rfl, ih⟩

/-- What is read of one more token and of those behind it. -/
theorem start_readRelations_cons_ok {strict : Bool} {position : Nat} {t : String} {ts : List String}
    {entries : List RelationEntry} {journal : Journal} :
    (readRelations strict position (t :: ts)).start = (.ok entries, journal) ↔
      ∃ entry front others back, (readRelation strict position t).start = (.ok entry, front) ∧
        (readRelations strict (position + 1) ts).start = (.ok others, back) ∧ entries = entry :: others ∧
        journal = front ++ back := by
  have happ : ∀ entry, (readRelations strict (position + 1) ts >>= fun others =>
      (pure (entry :: others) : Logged RelationFault _)).Appends := fun entry =>
    (appends_readRelations _ _ _).bind fun _ => .pure _
  rw [readRelations, Logged.start_bind_eq_ok happ]
  constructor
  · rintro ⟨entry, front, back, hentry, hrest, rfl⟩
    obtain ⟨others, back, empty, hothers, hpure, rfl⟩ := (Logged.start_bind_eq_ok fun _ => .pure _).1 hrest
    cases hpure
    exact ⟨entry, front, others, back, hentry, hothers, rfl, by rw [List.append_nil]⟩
  · rintro ⟨entry, front, others, back, hentry, hothers, rfl, rfl⟩
    refine ⟨entry, front, back, hentry, (Logged.start_bind_eq_ok fun _ => .pure _).2 ?_, rfl⟩
    exact ⟨others, back, [], hothers, rfl, (List.append_nil _).symm⟩

theorem start_readRelations_cons_error {strict : Bool} {position : Nat} {t : String} {ts : List String}
    {e : RelationFault} {journal : Journal} :
    (readRelations strict position (t :: ts)).start = (.error e, journal) ↔
      (readRelation strict position t).start = (.error e, journal) ∨
        ∃ entry front back, (readRelation strict position t).start = (.ok entry, front) ∧
          (readRelations strict (position + 1) ts).start = (.error e, back) ∧ journal = front ++ back := by
  have happ : ∀ entry, (readRelations strict (position + 1) ts >>= fun others =>
      (pure (entry :: others) : Logged RelationFault _)).Appends := fun entry =>
    (appends_readRelations _ _ _).bind fun _ => .pure _
  rw [readRelations, Logged.start_bind_eq_error happ]
  refine or_congr_right (exists_congr fun entry => exists_congr fun front => exists_congr fun back => ?_)
  refine and_congr_right fun _ => and_congr_left fun _ => ?_
  rw [Logged.start_bind_eq_error fun _ => .pure _]
  constructor
  · rintro (h | ⟨_, _, _, -, h, -⟩)
    · exact h
    · cases h
  · exact Or.inl

/-- The entries of a spec are read exactly when the tokens are sorted so.  The induction is on the tokens, with the
three cases of the first one. -/
theorem readRelations_ok_iff {strict : Bool} {position : Nat} {ts : List String} {relations : List Relation}
    {skipped : List String} {journal : Journal} :
    (∃ entries, (readRelations strict position ts).start = (.ok entries, journal) ∧
      RelationList.ofEntries entries = ⟨relations, skipped⟩) ↔
      Sorts strict position ts relations skipped journal := by
  -- the induction is on the tokens; each way of sorting is one way of reading the first token
  induction ts generalizing position relations skipped journal with
  | nil =>
    constructor
    · rintro ⟨entries, h, hlist⟩
      cases h
      cases hlist
      exact .nil
    · intro h
      cases h
      exact ⟨[], rfl, rfl⟩
  | cons t ts ih =>
    constructor
    · rintro ⟨entries, h, hlist⟩
      obtain ⟨entry, front, others, back, hentry, hothers, rfl, rfl⟩ := start_readRelations_cons_ok.1 h
      rcases token_cases strict position t with ⟨r, hr⟩ | ⟨hlenient, kindToken, hunknown⟩ | ⟨e, he⟩
      · rw [start_readRelation_of_gives strict position hr] at hentry
        cases hentry
        cases hlist
        exact .relation hr (ih.1 ⟨others, hothers, rfl⟩)
      · subst hlenient
        rw [start_readRelation_of_unknown position hunknown] at hentry
        cases hentry
        cases hlist
        exact .skipped rfl hunknown (ih.1 ⟨others, hothers, rfl⟩)
      · rw [start_readRelation_of_offends he] at hentry
        cases hentry
    · intro h
      cases h with
      | @relation _ _ _ r _ _ _ h hrest =>
        obtain ⟨others, hothers, hlist⟩ := ih.2 hrest
        have hentry := start_readRelation_of_gives strict position h
        refine ⟨.relation r :: others, start_readRelations_cons_ok.2 ⟨_, _, others, _, hentry, hothers, rfl, rfl⟩, ?_⟩
        cases hlist
        rfl
      | skipped hlenient h hrest =>
        subst hlenient
        obtain ⟨others, hothers, hlist⟩ := ih.2 hrest
        have hentry := start_readRelation_of_unknown position h
        refine ⟨.skipped t :: others, start_readRelations_cons_ok.2 ⟨_, _, others, _, hentry, hothers, rfl, rfl⟩, ?_⟩
        cases hlist
        rfl

/-- Reading fails exactly at the first token that offends; the journal tells of the tokens skipped before it. -/
theorem readRelations_error_iff {strict : Bool} {position : Nat} {ts : List String} {e : RelationFault}
    {journal : Journal} :
    (readRelations strict position ts).start = (.error e, journal) ↔
      ∃ before token after relations skipped, ts = before ++ token :: after ∧
        Sorts strict position before relations skipped journal ∧
        Offends strict (position + before.length) token e := by
  induction ts generalizing position journal with
  | nil =>
    constructor
    · intro h
      cases h
    · rintro ⟨before, token, after, relations, skipped, h, -⟩
      cases before <;> cases h
  | cons t ts ih =>
    have hplace : ∀ before : List String, position + (t :: before).length = position + 1 + before.length := by
      intro before
      rw [List.length_cons]
      omega
    rw [start_readRelations_cons_error]
    constructor
    · intro h
      -- the first token is at fault, or it is sorted and one behind it is
      rcases token_cases strict position t with ⟨r, hr⟩ | ⟨hlenient, kindToken, hunknown⟩ | ⟨e', he⟩
      · rw [start_readRelation_of_gives strict position hr] at h
        obtain h | ⟨entry, front, back, hentry, hback, rfl⟩ := h
        · cases h
        cases hentry
        obtain ⟨before, token, after, relations, skipped, rfl, hsorts, hoffends⟩ := ih.1 hback
        exact ⟨t :: before, token, after, r :: relations, skipped, rfl, .relation hr hsorts, hplace before ▸ hoffends⟩
      · subst hlenient
        rw [start_readRelation_of_unknown position hunknown] at h
        obtain h | ⟨entry, front, back, hentry, hback, rfl⟩ := h
        · cases h
        cases hentry
        obtain ⟨before, token, after, relations, skipped, rfl, hsorts, hoffends⟩ := ih.1 hback
        exact ⟨t :: before, token, after, relations, t :: skipped, rfl, .skipped rfl hunknown hsorts,
          hplace before ▸ hoffends⟩
      · rw [start_readRelation_of_offends he] at h
        obtain h | ⟨entry, front, back, hentry, -⟩ := h
        · cases h
          exact ⟨[], t, ts, [], [], rfl, .nil, he⟩
        · cases hentry
    · rintro ⟨before, token, after, relations, skipped, hts, hsorts, hoffends⟩
      -- what is sorted before the fault is read before it
      cases hsorts with
      | nil =>
        obtain ⟨rfl, rfl⟩ := List.cons.inj hts
        exact Or.inl (start_readRelation_of_offends hoffends)
      | @relation _ _ before _ relations _ _ h hrest =>
        obtain ⟨rfl, rfl⟩ := List.cons.inj hts
        have hread := ih.2 ⟨before, token, after, relations, skipped, rfl, hrest, hplace before ▸ hoffends⟩
        exact Or.inr ⟨_, [], _, start_readRelation_of_gives strict position h, hread, rfl⟩
      | @skipped _ _ kindToken before _ skipped _ hlenient h hrest =>
        subst hlenient
        obtain ⟨rfl, rfl⟩ := List.cons.inj hts
        have hread := ih.2 ⟨before, token, after, relations, skipped, rfl, hrest, hplace before ▸ hoffends⟩
        exact Or.inr ⟨_, [skipWarning position t kindToken], _, start_readRelation_of_unknown position h, hread, rfl⟩

/-! ### Acceptable tokens -/

/-- The token has four parts, none of them empty, and if its first one names a kind, its second one can be used. -/
def Acceptable (token : String) : Prop :=
  ∃ kindToken related foreignKey localKey, FourParts token kindToken related foreignKey localKey ∧
    ((∃ kind, Names kindToken kind) → HasUsableSegment related)

theorem acceptable_iff {token : String} :
    Acceptable token ↔ (∃ r, Gives token r) ∨ ∃ kindToken, Unknown token kindToken := by
  constructor
  · rintro ⟨kindToken, related, foreignKey, localKey, hfour, husable⟩
    by_cases hkind : ∃ kind, Names kindToken kind
    · obtain ⟨kind, hname⟩ := hkind
      exact Or.inl ⟨⟨kind, related, foreignKey, localKey⟩, ⟨kindToken, hfour, hname⟩, husable ⟨kind, hname⟩⟩
    · exact Or.inr ⟨kindToken, ⟨related, foreignKey, localKey, hfour⟩, not_exists.1 hkind⟩
  · rintro (⟨r, ⟨kindToken, hfour, -⟩, husable⟩ | ⟨kindToken, ⟨related, foreignKey, localKey, hfour⟩, hnone⟩)
    · exact ⟨kindToken, r.related, r.foreignKey, r.localKey, hfour, fun _ => husable⟩
    · exact ⟨kindToken, related, foreignKey, localKey, hfour, fun ⟨kind, hkind⟩ => absurd hkind (hnone kind)⟩

/-- Tokens can be sorted exactly when each of them is acceptable. -/
theorem exists_sorts_iff (position : Nat) {ts : List String} :
    (∃ relations skipped journal, Sorts false position ts relations skipped journal) ↔
      ∀ token ∈ ts, Acceptable token := by
  constructor
  · rintro ⟨relations, skipped, journal, h⟩
    induction h with
    | nil => exact nofun
    | relation h _ ih => exact List.forall_mem_cons.2 ⟨acceptable_iff.2 (Or.inl ⟨_, h⟩), ih⟩
    | skipped _ h _ ih => exact List.forall_mem_cons.2 ⟨acceptable_iff.2 (Or.inr ⟨_, h⟩), ih⟩
  · -- token by token
    induction ts generalizing position with
    | nil => exact fun _ => ⟨[], [], [], .nil⟩
    | cons t ts ih =>
      intro h
      obtain ⟨ht, hts⟩ := List.forall_mem_cons.1 h
      obtain ⟨relations, skipped, journal, hrest⟩ := ih (position + 1) hts
      rcases acceptable_iff.1 ht with ⟨r, hr⟩ | ⟨kindToken, hunknown⟩
      · exact ⟨r :: relations, skipped, journal, .relation hr hrest⟩
      · exact ⟨relations, t :: skipped, _, .skipped rfl hunknown hrest⟩

/-! ### Written relations -/

/-- A relation as a token of a spec. -/
def Relation.written (r : Relation) : String := ":".intercalate [r.kind.label, r.related, r.foreignKey, r.localKey]

/-- Relations as a spec. -/
def writtenRelations (relations : List Relation) : String := ",".intercalate (relations.map Relation.written)

/-- A relation that can stand in a spec: its entity can be used, and its parts are not empty, have no blanks at their
ends and neither a colon nor a comma in them. -/
structure Relation.Writable (r : Relation) : Prop where
  usable : HasUsableSegment r.related
  full : "" ∉ [r.kind.label, r.related, r.foreignKey, r.localKey]
  strip : ∀ part ∈ [r.kind.label, r.related, r.foreignKey, r.localKey], Text.strip part = part
  colon : ∀ part ∈ [r.kind.label, r.related, r.foreignKey, r.localKey], ':' ∉ part.toList
  comma : ∀ part ∈ [r.kind.label, r.related, r.foreignKey, r.localKey], ',' ∉ part.toList

theorem label_clean (kind : RelationKind) :
    kind.label ≠ "" ∧ strip kind.label = kind.label ∧ ':' ∉ kind.label.toList ∧ ',' ∉ kind.label.toList := by
  cases kind <;> decide

/-- The relations that tokens of a spec give can stand in a spec. -/
theorem Gives.writable {spec token : String} {r : Relation} (h : Gives token r) (htoken : token ∈ tokens spec) :
    r.Writable := by
  obtain ⟨⟨kindToken, hfour, -⟩, husable⟩ := h
  obtain ⟨hlabel, hlabelStrip, hlabelColon, hlabelComma⟩ := label_clean r.kind
  -- what holds of the label and of all parts of the token holds of the parts that are written
  have hall : ∀ P : String → Prop, P r.kind.label → (∀ part ∈ tokenParts token, P part) →
      ∀ part ∈ [r.kind.label, r.related, r.foreignKey, r.localKey], P part := by
    intro P hlabel hparts
    rw [hfour.parts] at hparts
    exact List.forall_mem_cons.2 ⟨hlabel, (List.forall_mem_cons.1 hparts).2⟩
  refine ⟨husable, ?_, ?_, ?_, ?_⟩
  · intro hempty
    refine hall (· ≠ "") hlabel (fun part hpart he => hfour.full ?_) "" hempty rfl
    rw [← hfour.parts, ← he]
    exact hpart
  · exact hall (fun part => Text.strip part = part) hlabelStrip fun part => strip_of_mem_tokenParts
  · exact hall (fun part => ':' ∉ part.toList) hlabelColon fun part hpart hc =>
      (mem_of_mem_tokenParts hpart hc).2 rfl
  · exact hall (fun part => ',' ∉ part.toList) hlabelComma fun part hpart hc =>
      (mem_of_mem_tokens htoken (mem_of_mem_tokenParts hpart hc).1).2 rfl

theorem Sorts.exists_gives {strict : Bool} {position : Nat} {ts : List String} {relations : List Relation}
    {skipped : List String} {journal : Journal} (h : Sorts strict position ts relations skipped journal)
    {r : Relation} (hr : r ∈ relations) : ∃ token ∈ ts, Gives token r := by
  induction h with
  | nil => cases hr
  | relation h _ ih =>
    rcases List.mem_cons.1 hr with rfl | hr
    · exact ⟨_, List.mem_cons_self, h⟩
    · obtain ⟨token, htoken, h⟩ := ih hr
      exact ⟨token, List.mem_cons_of_mem _ htoken, h⟩
  | skipped _ _ _ ih =>
    obtain ⟨token, htoken, h⟩ := ih hr
    exact ⟨token, List.mem_cons_of_mem _ htoken, h⟩

theorem Relation.toList_written (r : Relation) : r.written.toList =
    r.kind.label.toList ++ (':' :: r.related.toList ++ ':' :: r.foreignKey.toList ++ [':']) ++ r.localKey.toList := by
  simp [Relation.written]

theorem Relation.Writable.gives {r : Relation} (h : r.Writable) : Gives r.written r where
  parts := ⟨r.kind.label, ⟨map_trim_cutAll_intercalate ':' (List.cons_ne_nil _ _) h.colon h.strip, h.full⟩, rfl⟩
  usable := h.usable

theorem Relation.Writable.strip_written {r : Relation} (h : r.Writable) : Text.strip r.written = r.written := by
  have hne : ∀ part ∈ [r.kind.label, r.related, r.foreignKey, r.localKey], part.toList ≠ [] := fun part hpart he =>
    h.full (String.toList_eq_nil_iff.1 he ▸ hpart)
  rw [strip_eq_self_iff, r.toList_written]
  exact trim_append_append _ (strip_eq_self_iff.1 (h.strip _ (by simp))) (hne _ (by simp))
    (strip_eq_self_iff.1 (h.strip _ (by simp))) (hne _ (by simp))

theorem Relation.Writable.comma_notMem {r : Relation} (h : r.Writable) : ',' ∉ r.written.toList := by
  have hcomma := h.comma
  simp only [List.mem_cons, List.not_mem_nil, or_false, forall_eq_or_imp, forall_eq] at hcomma
  simp [r.toList_written, hcomma]

theorem tokens_writtenRelations {relations : List Relation} (hne : relations ≠ [])
    (h : ∀ r ∈ relations, r.Writable) : tokens (writtenRelations relations) = relations.map Relation.written := by
  refine map_trim_cutAll_intercalate ',' (by simpa using hne) (fun s hs => ?_) fun s hs => ?_
  · obtain ⟨r, hr, rfl⟩ := List.mem_map.1 hs
    exact (h r hr).comma_notMem
  · obtain ⟨r, hr, rfl⟩ := List.mem_map.1 hs
    exact (h r hr).strip_written

theorem sorts_written {strict : Bool} {position : Nat} {relations : List Relation}
    (h : ∀ r ∈ relations, r.Writable) :
    Sorts strict position (relations.map Relation.written) relations [] [] := by
  induction relations generalizing position with
  | nil => exact .nil
  | cons r rs ih =>
    obtain ⟨hr, hrs⟩ := List.forall_mem_cons.1 h
    exact .relation hr.gives (ih hrs)

/-! ### Reading a spec -/

theorem parseRelations_of_blank (strict : Bool) {spec : Option String} (h : isAllBlank (spec.getD "") = true) :
    (parseRelations strict spec).start = (.ok ⟨[], []⟩, []) := by
  rw [parseRelations, if_pos h]
  rfl

theorem parseRelations_ok_iff {strict : Bool} {spec : Option String} (hblank : isAllBlank (spec.getD "") = false)
    {list : RelationList} {journal : Journal} :
    (parseRelations strict spec).start = (.ok list, journal) ↔
      Sorts strict 1 (tokens (spec.getD "")) list.relations list.skipped journal := by
  rw [← readRelations_ok_iff, parseRelations, if_neg (by simp [hblank]), Logged.start_bind_eq_ok fun _ => .pure _]
  constructor
  · rintro ⟨entries, front, back, hentries, hpure, rfl⟩
    cases hpure
    exact ⟨entries, by rw [hentries, List.append_nil], rfl⟩
  · rintro ⟨entries, hentries, hlist⟩
    exact ⟨entries, journal, [], hentries, by rw [hlist]; rfl, (List.append_nil _).symm⟩

theorem parseRelations_error_iff {strict : Bool} {spec : Option String}
    (hblank : isAllBlank (spec.getD "") = false) {e : RelationFault} {journal : Journal} :
    (parseRelations strict spec).start = (.error e, journal) ↔
      ∃ before token after relations skipped, tokens (spec.getD "") = before ++ token :: after ∧
        Sorts strict 1 before relations skipped journal ∧ Offends strict (1 + before.length) token e := by
  rw [← readRelations_error_iff, parseRelations, if_neg (by simp [hblank]),
    Logged.start_bind_eq_error fun _ => .pure _]
  constructor
  · rintro (h | ⟨_, _, _, -, h, -⟩)
    · exact h
    · cases h
  · exact Or.inl

/-- The relations that have been read are given by tokens of the spec. -/
theorem gives_of_parseRelations {strict : Bool} {spec : Option String} {list : RelationList}
    (h : (parseRelations strict spec).start.1 = .ok list) {r : Relation} (hr : r ∈ list.relations) :
    ∃ token ∈ tokens (spec.getD ""), Gives token r := by
  cases hblank : isAllBlank (spec.getD "") with
  | true =>
    rw [parseRelations_of_blank strict hblank] at h
    cases h
    cases hr
  | false => exact ((parseRelations_ok_iff hblank).1 (Prod.ext h rfl)).exists_gives hr

/-- They are made of characters of the spec. -/
theorem mem_of_parseRelations {strict : Bool} {spec : Option String} {list : RelationList}
    (h : (parseRelations strict spec).start.1 = .ok list) {r : Relation} (hr : r ∈ list.relations) {part : String}
    (hpart : part ∈ [r.related, r.foreignKey, r.localKey]) {c : Char} (hc : c ∈ part.toList) :
    c ∈ (spec.getD "").toList := by
  obtain ⟨token, htoken, ⟨kindToken, hfour, -⟩, -⟩ := gives_of_parseRelations h hr
  have hpart : part ∈ tokenParts token := hfour.parts ▸ List.mem_cons_of_mem _ hpart
  exact (mem_of_mem_tokens htoken (mem_of_mem_tokenParts hpart hc).1).1

/-- Reading a relation spec reports in its own channel only. -/
theorem emits_parseRelations (strict : Bool) (spec : Option String) :
    Emits id (·.channel = .specs) (parseRelations strict spec) := by
  refine (appends_parseRelations strict spec).emits ?_
  rcases hstart : (parseRelations strict spec).start with ⟨e | list, journal⟩
  all_goals cases hblank : isAllBlank (spec.getD "")
  · obtain ⟨_, _, _, _, _, -, hsorts, -⟩ := (parseRelations_error_iff hblank).1 hstart
    exact hsorts.channel
  · rw [parseRelations_of_blank strict hblank] at hstart
    cases hstart
  · exact ((parseRelations_ok_iff hblank).1 hstart).channel
  · rw [parseRelations_of_blank strict hblank] at hstart
    cases hstart
    exact nofun

/-- What has been read is read again from what is written for it, in either mode. -/
theorem parseRelations_writtenRelations {strict : Bool} {spec : Option String} {list : RelationList}
    (h : (parseRelations strict spec).start.1 = .ok list) (strict' : Bool) :
    (parseRelations strict' (some (writtenRelations list.relations))).start = (.ok ⟨list.relations, []⟩, []) := by
  -- what has been read can be written
  have hwritable : ∀ r ∈ list.relations, r.Writable := by
    intro r hr
    obtain ⟨token, htoken, hgives⟩ := gives_of_parseRelations h hr
    exact hgives.writable htoken
  by_cases hnil : list.relations = []
  · rw [hnil]
    exact parseRelations_of_blank strict' rfl
  · obtain ⟨r, hr⟩ := List.exists_mem_of_ne_nil _ hnil
    have htokens := tokens_writtenRelations hnil hwritable
    have hmem : r.written ∈ tokens (writtenRelations list.relations) := htokens ▸ List.mem_map_of_mem hr
    have hne : r.written ≠ "" := by
      intro hempty
      have hlist := r.toList_written
      rw [hempty] at hlist
      simp at hlist
    have hblank : isAllBlank ((some (writtenRelations list.relations)).getD "") = false :=
      isAllBlank_of_mem_tokens hmem hne
    have hsorts : Sorts strict' 1 (tokens (writtenRelations list.relations)) list.relations [] [] := by
      rw [htokens]
      exact sorts_written hwritable
    exact (parseRelations_ok_iff hblank).2 hsorts

/-- Without strictness, a blank spec has no relations.  Any other one is read exactly when its tokens are acceptable,
and then they are sorted, in their order, into relations and skipped tokens, with one warning for each of the latter.
If it is not read, the fault is that of the first token that offends, with the token and its position.  Relations that
have been read are read again from what is written for them. -/
theorem parseRelations_exact :
    (∀ spec : Option String, isAllBlank (spec.getD "") = true →
      (parseRelations false spec).start = (.ok ⟨[], []⟩, [])) ∧
    (∀ spec : Option String, isAllBlank (spec.getD "") = false →
      ((∃ list, (parseRelations false spec).start.1 = .ok list) ↔ ∀ token ∈ tokens (spec.getD ""), Acceptable token) ∧
      (∀ list journal, (parseRelations false spec).start = (.ok list, journal) ↔
        Sorts false 1 (tokens (spec.getD "")) list.relations list.skipped journal) ∧
      (∀ list journal, (parseRelations false spec).start = (.ok list, journal) →
        list.relations.length + list.skipped.length = (tokens (spec.getD "")).length ∧
          journal.length = list.skipped.length) ∧
      ∀ e, (parseRelations false spec).start.1 = .error e ↔ ∃ before token after,
        tokens (spec.getD "") = before ++ token :: after ∧ (∀ t ∈ before, Acceptable t) ∧
          Offends false (before.length + 1) token e ∧ e.token = token ∧ e.position = before.length + 1) ∧
    ∀ (spec : Option String) (list : RelationList), (parseRelations false spec).start.1 = .ok list →
      (parseRelations false (some (writtenRelations list.relations))).start = (.ok ⟨list.relations, []⟩, []) := by
  refine ⟨fun spec => parseRelations_of_blank false, fun spec hblank => ⟨?_, fun list journal =>
    parseRelations_ok_iff hblank, fun list journal h => ((parseRelations_ok_iff hblank).1 h).length_eq, fun e => ?_⟩,
    fun spec list h => parseRelations_writtenRelations h false⟩
  · rw [← exists_sorts_iff 1]
    constructor
    · -- the token of the first error is the first one that is not acceptable
      rintro ⟨list, h⟩
      exact ⟨_, _, _, (parseRelations_ok_iff hblank).1 (Prod.ext h rfl)⟩
    · rintro ⟨relations, skipped, journal, h⟩
      have hread : (parseRelations false spec).start = (.ok ⟨relations, skipped⟩, journal) :=
        (parseRelations_ok_iff hblank).2 h
      exact ⟨⟨relations, skipped⟩, by rw [hread]⟩
  · constructor
    · intro h
      obtain ⟨before, token, after, relations, skipped, htokens, hsorts, hoffends⟩ :=
        (parseRelations_error_iff hblank).1 (Prod.ext h rfl)
      rw [Nat.add_comm] at hoffends
      exact ⟨before, token, after, htokens, (exists_sorts_iff 1).1 ⟨_, _, _, hsorts⟩, hoffends, hoffends.place⟩
    · rintro ⟨before, token, after, htokens, hbefore, hoffends, -⟩
      obtain ⟨relations, skipped, journal, hsorts⟩ := (exists_sorts_iff 1).2 hbefore
      rw [Nat.add_comm] at hoffends
      rw [(parseRelations_error_iff hblank).2 ⟨before, token, after, relations, skipped, htokens, hsorts, hoffends⟩]

/-- A relation with its kind in small letters and blanks around its parts, a token of an unknown kind, and a second
spec whose second token names an entity without a letter or a digit. -/
theorem parseRelations_exact_mixed :
    (parseRelations false (some " hasmany: Post:user_id:id ,foo:a:b:c")).start =
      (.ok ⟨[⟨.hasMany, "Post", "user_id", "id"⟩], ["foo:a:b:c"]⟩, [skipWarning 2 "foo:a:b:c" "foo"]) ∧
    (parseRelations false (some "hasMany:Post:user_id:id")).start =
      (.ok ⟨[⟨.hasMany, "Post", "user_id", "id"⟩], []⟩, []) ∧
    (parseRelations false (some "foo:a:b:c,hasOne:-:x:y")).start.1 =
      .error (.unusableName 2 "hasOne:-:x:y" "-") := by
  have hpost : Gives "hasmany: Post:user_id:id" ⟨.hasMany, "Post", "user_id", "id"⟩ :=
    ⟨⟨"hasmany", ⟨by decide, by decide⟩, by decide⟩, ['P', 'o', 's', 't'], by decide, 'P', by decide, by decide⟩
  have hfoo : Unknown "foo:a:b:c" "foo" :=
    ⟨⟨"a", "b", "c", by decide, by decide⟩, fun kind => by cases kind <;> decide⟩
  have hmixed : (parseRelations false (some " hasmany: Post:user_id:id ,foo:a:b:c")).start =
      (.ok ⟨[⟨.hasMany, "Post", "user_id", "id"⟩], ["foo:a:b:c"]⟩, [skipWarning 2 "foo:a:b:c" "foo"]) := by
    have htokens : tokens " hasmany: Post:user_id:id ,foo:a:b:c" = ["hasmany: Post:user_id:id", "foo:a:b:c"] := by
      decide
    have hsorts : Sorts false 1 (tokens " hasmany: Post:user_id:id ,foo:a:b:c")
        [⟨.hasMany, "Post", "user_id", "id"⟩] ["foo:a:b:c"] [skipWarning 2 "foo:a:b:c" "foo"] := by
      rw [htokens]
      exact .relation hpost (.skipped rfl hfoo .nil)
    exact ((parseRelations_exact.2.1 _ (by decide)).2.1 ⟨_, _⟩ _).2 hsorts
  have hfault : (parseRelations false (some "foo:a:b:c,hasOne:-:x:y")).start.1 =
      .error (.unusableName 2 "hasOne:-:x:y" "-") := by
    have htokens : tokens "foo:a:b:c,hasOne:-:x:y" = ["foo:a:b:c"] ++ "hasOne:-:x:y" :: [] := by decide
    have hparts : FourParts "hasOne:-:x:y" "hasOne" "-" "x" "y" := ⟨by decide, by decide⟩
    have hname : Names "hasOne" .hasOne := rfl
    have hdash : ¬ HasUsableSegment "-" := by
      rintro ⟨last, hlast, c, hc, halnum⟩
      have hlast : some ['-'] = some last := hlast
      cases hlast
      obtain rfl := List.mem_singleton.1 hc
      cases halnum
    have hbefore : ∀ t ∈ ["foo:a:b:c"], Acceptable t := by
      intro t ht
      obtain rfl := List.mem_singleton.1 ht
      exact acceptable_iff.2 (Or.inr ⟨"foo", hfoo⟩)
    exact ((parseRelations_exact.2.1 _ (by decide)).2.2.2 _).2
      ⟨_, _, _, htokens, hbefore, .unusableName hparts hname hdash, rfl, rfl⟩
  have hagain := parseRelations_exact.2.2 _ _ (congrArg Prod.fst hmixed)
  exact ⟨hmixed, hagain, hfault⟩

end CrudScaffold.Spec
