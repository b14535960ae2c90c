import CrudScaffold.Proofs.Spec.RelationTokens
import CrudScaffold.Proofs.Text.Characters

/-!
# CrudScaffold.Proofs.Spec.JoinTables — which join tables are collected

`wanted` lists the relations that need a join table, each with the name of that table.  Of the entries with one name
the first gives the table (`firsts`) and each later one a notice (`repeats`); `start_collectPivots` shows that this is
all that collecting does.  The two lists are the whole of the entries (`perm_firsts_repeats`), and the names of the
first one are the distinct names in their order (`map_fst_firsts`).
-/

namespace CrudScaffold.Spec

open CrudScaffold.Naming CrudScaffold.Text

/-- The relations that need a join table, each with the name of the table. -/
def wanted (entity : String) (relations : List Relation) : List (String × Relation) :=
  relations.filterMap fun r => if r.kind.needsPivot then (pivotName entity r.related).toOption.map (·, r) else none

/-- The join table that an entry gives. -/
def tableOf (entry : String × Relation) : PivotTable :=
  ⟨entry.1, entry.2.foreignKey, entry.2.localKey, entry.2.related⟩

/-- What the journal says about an entry whose table is there already. -/
def repeatNotice (entry : String × Relation) : Record :=
  ⟨.warning, .specs,
    s!"Pivot table '{entry.1}' already scheduled; ignoring duplicate from {entry.2.display}."⟩

/-- The record is a notice of a join table that is there already. -/
def isRepeatNotice (entry : Record) : Bool :=
  entry.channel = .specs && beginsWith "Pivot table '" entry.message

/-- The entries whose name is neither among `seen` nor the name of an entry before them. -/
def firstsBeyond (seen : List String) : List (String × Relation) → List (String × Relation)
  | [] => []
  | x :: xs => if x.1 ∈ seen then firstsBeyond seen xs else x :: firstsBeyond (seen ++ [x.1]) xs

/-- The entries whose name is among `seen` or the name of an entry before them. -/
def repeatsBeyond (seen : List String) : List (String × Relation) → List (String × Relation)
  | [] => []
  | x :: xs => if x.1 ∈ seen then x :: repeatsBeyond seen xs else repeatsBeyond (seen ++ [x.1]) xs

/-- The entries whose name no entry before them has. -/
def firsts (entries : List (String × Relation)) : List (String × Relation) := firstsBeyond [] entries

/-- The entries whose name an entry before them has already. -/
def repeats (entries : List (String × Relation)) : List (String × Relation) := repeatsBeyond [] entries

/-! ### First entries and repeated ones -/

section Entries

variable {seen : List String} {entries : List (String × Relation)}

theorem perm_beyond (seen : List String) (entries : List (String × Relation)) :
    (firstsBeyond seen entries ++ repeatsBeyond seen entries).Perm entries := by
  induction entries generalizing seen with
  | nil => exact .nil
  | cons x xs ih =>
    unfold firstsBeyond repeatsBeyond
    split
    · exact List.perm_middle.trans ((ih seen).cons x)
    · exact (ih (seen ++ [x.1])).cons x

/-- Every entry is either the first one with its name or repeats one. -/
theorem perm_firsts_repeats (entries : List (String × Relation)) : (firsts entries ++ repeats entries).Perm entries :=
  perm_beyond [] entries

/-- The names of the first entries, in their order, are the distinct names that have not been seen. -/
theorem map_fst_firstsBeyond (seen : List String) (entries : List (String × Relation)) :
    (firstsBeyond seen entries).map Prod.fst = ((entries.map Prod.fst).filter (· ∉ seen)).eraseDups := by
  induction entries generalizing seen with
  | nil => rfl
  | cons x xs ih =>
    unfold firstsBeyond
    by_cases hseen : x.1 ∈ seen
    · simp [hseen, ih seen]
    · have hfilter : (fun name : String => decide (name ∉ seen ++ [x.1])) =
          fun name => (!name == x.1) && decide (name ∉ seen) := by
        funext name
        simp [Bool.and_comm, beq_eq_decide]
      simp only [hseen, if_false, List.map_cons, List.filter_cons, not_false_eq_true, decide_true, if_true]
      rw [List.eraseDups_cons, List.filter_filter, ih, hfilter]

theorem map_fst_firsts (entries : List (String × Relation)) :
    (firsts entries).map Prod.fst = (entries.map Prod.fst).eraseDups := by
  rw [firsts, map_fst_firstsBeyond]
  simp

/-- No name comes twice among the first entries, nor one that has been seen. -/
theorem nodup_firstsBeyond (seen : List String) (entries : List (String × Relation)) :
    ((firstsBeyond seen entries).map Prod.fst).Nodup ∧ ∀ x ∈ firstsBeyond seen entries, x.1 ∉ seen := by
  induction entries generalizing seen with
  | nil => exact ⟨List.nodup_nil, nofun⟩
  | cons x xs ih =>
    unfold firstsBeyond
    split
    · exact ih seen
    · rename_i hseen
      obtain ⟨hnodup, hbeyond⟩ := ih (seen ++ [x.1])
      rw [List.map_cons, List.nodup_cons]
      refine ⟨⟨fun hmem => ?_, hnodup⟩, List.forall_mem_cons.2 ⟨hseen, fun y hy hmem => ?_⟩⟩
      · obtain ⟨y, hy, hname⟩ := List.mem_map.1 hmem
        exact hbeyond y hy (by simp [hname])
      · exact hbeyond y hy (List.mem_append_left _ hmem)

theorem nodup_firsts (entries : List (String × Relation)) : ((firsts entries).map Prod.fst).Nodup :=
  (nodup_firstsBeyond [] entries).1

/-- A first entry stands behind entries with other names only. -/
theorem split_of_mem_firstsBeyond {x : String × Relation} (h : x ∈ firstsBeyond seen entries) :
    ∃ before after, entries = before ++ x :: after ∧ x.1 ∉ before.map Prod.fst := by
  induction entries generalizing seen with
  | nil => cases h
  | cons y ys ih =>
    -- an entry of the rest is first there, and has another name than `y`
    have hbeyond := (nodup_firstsBeyond (seen ++ [y.1]) ys).2 x
    unfold firstsBeyond at h
    split at h
    · rename_i hseen
      obtain ⟨before, after, rfl, hbefore⟩ := ih h
      refine ⟨y :: before, after, rfl, ?_⟩
      rw [List.map_cons, List.mem_cons, not_or]
      refine ⟨fun hname => ?_, hbefore⟩
      exact (nodup_firstsBeyond seen (before ++ x :: after)).2 x h (hname ▸ hseen)
    · rcases List.mem_cons.1 h with rfl | h
      · exact ⟨[], ys, rfl, List.not_mem_nil⟩
      · obtain ⟨before, after, rfl, hbefore⟩ := ih h
        refine ⟨y :: before, after, rfl, ?_⟩
        rw [List.map_cons, List.mem_cons, not_or]
        exact ⟨fun hname => hbeyond h (by simp [hname]), hbefore⟩

theorem split_of_mem_firsts {x : String × Relation} (h : x ∈ firsts entries) :
    ∃ before after, entries = before ++ x :: after ∧ x.1 ∉ before.map Prod.fst :=
  split_of_mem_firstsBeyond h

theorem mem_firstsBeyond_of_split {x : String × Relation} {before after : List (String × Relation)}
    (hseen : x.1 ∉ seen) (hbefore : x.1 ∉ before.map Prod.fst) : x ∈ firstsBeyond seen (before ++ x :: after) := by
  induction before generalizing seen with
  | nil =>
    rw [List.nil_append, firstsBeyond, if_neg hseen]
    exact List.mem_cons_self
  | cons y before ih =>
    rw [List.map_cons, List.mem_cons, not_or] at hbefore
    rw [List.cons_append, firstsBeyond]
    split
    · exact ih hseen hbefore.2
    · refine List.mem_cons_of_mem _ (ih ?_ hbefore.2)
      rw [List.mem_append, List.mem_singleton, not_or]
      exact ⟨hseen, hbefore.1⟩

theorem mem_firsts_of_split {x : String × Relation} {before after : List (String × Relation)}
    (hbefore : x.1 ∉ before.map Prod.fst) : x ∈ firsts (before ++ x :: after) :=
  mem_firstsBeyond_of_split List.not_mem_nil hbefore

/-- The name of every entry is that of a first one. -/
theorem exists_mem_firsts {x : String × Relation} (h : x ∈ entries) : ∃ y ∈ firsts entries, y.1 = x.1 := by
  have hname : x.1 ∈ (firsts entries).map Prod.fst := by
    rw [map_fst_firsts, List.mem_eraseDups]
    exact List.mem_map_of_mem h
  exact List.mem_map.1 hname

end Entries

theorem mem_wanted {entity name : String} {relations : List Relation} {r : Relation} :
    (name, r) ∈ wanted entity relations ↔
      r ∈ relations ∧ r.kind.needsPivot = true ∧ pivotName entity r.related = .ok name := by
  rw [wanted, List.mem_filterMap]
  constructor
  · -- only a relation with a join table has a name
    rintro ⟨r', hr', h⟩
    split at h
    · rename_i hneeds
      cases hname : pivotName entity r'.related with
      | error e => simp [hname, Except.toOption] at h
      | ok name' =>
        simp only [hname, Except.toOption, Option.map_some, Option.some.injEq, Prod.mk.injEq] at h
        obtain ⟨rfl, rfl⟩ := h
        exact ⟨hr', hneeds, hname⟩
    · cases h
  · rintro ⟨hr, hneeds, hname⟩
    exact ⟨r, hr, by simp [hneeds, hname, Except.toOption]⟩

/-! ### Collecting -/

/-- Collecting adds the tables of the first entries and reports the others, if every table has a name. -/
theorem start_collectFrom {entity : String} (known : List PivotTable) {rs : List Relation}
    (h : ∀ r ∈ rs, r.kind.needsPivot = true → ∃ name, pivotName entity r.related = .ok name) :
    (collectFrom entity known rs).start =
      (.ok (known ++ (firstsBeyond (known.map (·.name)) (wanted entity rs)).map tableOf),
        (repeatsBeyond (known.map (·.name)) (wanted entity rs)).map repeatNotice) := by
  -- the induction is on the relations; the tables that are known stand in front
  induction rs generalizing known with
  | nil =>
    rw [wanted, List.filterMap_nil, firstsBeyond, List.map_nil, List.append_nil]
    rfl
  | cons r rs ih =>
    obtain ⟨hr, hrs⟩ := List.forall_mem_cons.1 h
    unfold collectFrom
    split
    · rename_i hneeds
      obtain ⟨name, hname⟩ := hr hneeds
      have hwanted : wanted entity (r :: rs) = (name, r) :: wanted entity rs := by
        simp [wanted, hneeds, hname, Except.toOption]
      have hknown : known.any (·.name = name) = true ↔ name ∈ known.map (·.name) := by simp
      rw [hwanted, Logged.start_bind, hname, firstsBeyond, repeatsBeyond]
      show (if known.any (·.name = name) = true then _ else _ : Logged NameFault _).start = _
      -- the name is known and is told, or it is new and is added
      by_cases hmem : name ∈ known.map (·.name)
      · rw [if_pos (hknown.2 hmem), if_pos hmem, if_pos hmem, Logged.start_bind]
        show (collectFrom entity known rs).run.run [repeatNotice (name, r)] = _
        rw [appends_collectFrom entity known rs, ih known hrs]
        rfl
      · rw [if_neg fun hany => hmem (hknown.1 hany), if_neg hmem, if_neg hmem, ih _ hrs, List.map_append]
        simp [tableOf]
    · rename_i hneeds
      have hwanted : wanted entity (r :: rs) = wanted entity rs := by simp [wanted, hneeds]
      rw [hwanted]
      exact ih known hrs

/-- What is collected from the relations of an entity. -/
theorem start_collectPivots {entity : String} {relations : List Relation} {pivots : List PivotTable}
    (h : (collectPivots entity relations).start.1 = .ok pivots) :
    pivots = (firsts (wanted entity relations)).map tableOf ∧
      (collectPivots entity relations).start.2 = (repeats (wanted entity relations)).map repeatNotice := by
  have hstart := start_collectFrom [] (collectFrom_ok h).1
  rw [collectPivots] at h ⊢
  rw [hstart] at h ⊢
  exact ⟨(Except.ok.inj h).symm, rfl⟩

/-- Join tables can be collected exactly when each of them has a name. -/
theorem collectPivots_isOk_iff {entity : String} {relations : List Relation} :
    (∃ pivots, (collectPivots entity relations).start.1 = .ok pivots) ↔
      ∀ r ∈ relations, r.kind.needsPivot = true → ∃ name, pivotName entity r.related = .ok name := by
  constructor
  · rintro ⟨pivots, h⟩
    exact (collectFrom_ok h).1
  · intro h
    rw [collectPivots, start_collectFrom [] h]
    exact ⟨_, rfl⟩

/-! ### Notices -/

theorem isRepeatNotice_repeatNotice (entry : String × Relation) : isRepeatNotice (repeatNotice entry) = true := by
  rw [isRepeatNotice, Bool.and_eq_true, beginsWith_iff]
  refine ⟨rfl, ?_⟩
  simp only [repeatNotice, String.toList_append, toString, List.append_assoc]
  exact List.prefix_append _ _

theorem isRepeatNotice_skipWarning (position : Nat) (token kindToken : String) :
    isRepeatNotice (skipWarning position token kindToken) = false := by
  have hfirst : ¬ "Pivot table '".toList <+: (skipWarning position token kindToken).message.toList := by
    rintro ⟨rest, hrest⟩
    have hpivot : "Pivot table '".toList = 'P' :: "ivot table '".toList := by decide
    have hskipping : "Skipping relation #".toList = 'S' :: "kipping relation #".toList := by decide
    simp only [skipWarning, String.toList_append, toString, List.append_assoc] at hrest
    rw [hpivot, hskipping, List.cons_append, List.cons_append] at hrest
    exact absurd (List.cons.inj hrest).1 (by decide)
  rw [isRepeatNotice, Bool.and_eq_false_iff]
  exact Or.inr (Bool.eq_false_iff.2 fun hbegins => hfirst (beginsWith_iff.1 hbegins))

/-- Reading relations reports no join table. -/
theorem Sorts.isRepeatNotice {strict : Bool} {position : Nat} {tokens : List String} {relations : List Relation}
    {skipped : List String} {journal : Journal} (h : Sorts strict position tokens relations skipped journal) :
    ∀ entry ∈ journal, Spec.isRepeatNotice entry = false := by
  induction h with
  | nil => exact nofun
  | relation h hrest ih => exact ih
  | skipped hstrict h hrest ih => exact List.forall_mem_cons.2 ⟨isRepeatNotice_skipWarning _ _ _, ih⟩

end CrudScaffold.Spec
