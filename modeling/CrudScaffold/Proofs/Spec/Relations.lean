import CrudScaffold.Checks.Review
import CrudScaffold.Code.Fragments
import CrudScaffold.Proofs.Journal
import CrudScaffold.Proofs.Naming.Camel

/-!
# CrudScaffold.Proofs.Spec.Relations — relations that have been read can be used

Reading a relation spec lets a relation pass only if an accessor can be formed from its entity, and collecting the
join tables succeeds only if each of them has a name.  From then on nothing about the relations fails: neither their
review (`reviewRequest_ok`) nor the methods that are generated for them (`relationMethods_ok`).
-/

namespace CrudScaffold.Spec

open CrudScaffold.Text CrudScaffold.Naming

/-! ### Reading -/

theorem appends_readRelation (strict : Bool) (position : Nat) (token : String) :
    (readRelation strict position token).Appends := by
  unfold readRelation
  simp only
  split
  · split
    · split
      · split
        · exact .throw _
        · exact (Logged.Appends.note _ _ _).bind fun _ => .pure _
      · split
        · exact .pure _
        · exact .throw _
    · exact .throw _
  · exact .throw _

theorem appends_readRelations (strict : Bool) (position : Nat) (ts : List String) :
    (readRelations strict position ts).Appends := by
  induction ts generalizing position with
  | nil => exact .pure _
  | cons t ts ih => exact (appends_readRelation strict position t).bind fun _ => (ih _).bind fun _ => .pure _

theorem appends_parseRelations (strict : Bool) (spec : Option String) : (parseRelations strict spec).Appends := by
  unfold parseRelations
  simp only
  split
  · exact .pure _
  · exact (appends_readRelations _ _ _).bind fun _ => .pure _

/-- A relation is let pass only if an accessor can be formed from its entity. -/
theorem isUsable_of_readRelation {strict : Bool} {position : Nat} {token : String} {r : Relation}
    (h : (readRelation strict position token).start.1 = .ok (.relation r)) : isUsable r.related = true := by
  unfold readRelation at h
  simp only at h
  -- only the last branch gives a relation, and it has looked at the name
  split at h
  · split at h
    · split at h
      · split at h
        · cases h
        · cases h
      · split at h
        · rename_i husable
          cases h
          exact husable
        · cases h
    · cases h
  · cases h

theorem isUsable_of_readRelations {strict : Bool} {position : Nat} {ts : List String} {es : List RelationEntry}
    (h : (readRelations strict position ts).start.1 = .ok es) {r : Relation} (hr : .relation r ∈ es) :
    isUsable r.related = true := by
  induction ts generalizing position es with
  | nil =>
    cases h
    cases hr
  | cons t ts ih =>
    rw [readRelations, Logged.start_bind_ok fun _ => (appends_readRelations _ _ _).bind fun _ => .pure _] at h
    obtain ⟨e, he, h⟩ := h
    rw [Logged.start_bind_ok fun _ => .pure _] at h
    obtain ⟨es', hes, h⟩ := h
    cases h
    rcases List.mem_cons.1 hr with rfl | hr
    · exact isUsable_of_readRelation he
    · exact ih hes hr

theorem isUsable_of_parseRelations {strict : Bool} {spec : Option String} {list : RelationList}
    (h : (parseRelations strict spec).start.1 = .ok list) {r : Relation} (hr : r ∈ list.relations) :
    isUsable r.related = true := by
  unfold parseRelations at h
  simp only at h
  split at h
  · cases h
    cases hr
  · rw [Logged.start_bind_ok fun _ => .pure _] at h
    obtain ⟨es, hes, h⟩ := h
    -- the relations are those among the entries
    cases h
    obtain ⟨e, he, heq⟩ := List.mem_filterMap.1 hr
    cases e with
    | relation r' =>
      cases heq
      exact isUsable_of_readRelations hes he
    | skipped t => cases heq

/-! ### Accessors -/

theorem plural_camelCase_ok {name camel : String} (h : camelCase name = .ok camel) : ∃ s, plural camel = .ok s := by
  obtain ⟨hne, halnum⟩ := isAlphanum_of_camelCase h
  obtain ⟨c, hc⟩ := List.exists_mem_of_ne_nil _ hne
  have htrim := trim_ne_nil hc (isBlank_of_isAlphanum (halnum c hc))
  refine ⟨String.ofList (inflectLast pluralWord (trim camel.toList)), ?_⟩
  rw [plural, nameChars_of_ne_nil htrim]
  rfl

/-- A related entity can be used if its base name has a camel-case form. -/
theorem isUsable_eq_true_iff {related : String} :
    isUsable related = true ↔ ∃ base camel, baseName related = .ok base ∧ camelCase base = .ok camel := by
  have hbind : isUsable related = true ↔ ∃ camel, (baseName related).bind camelCase = .ok camel := by
    rw [isUsable]
    cases (baseName related).bind camelCase <;> simp
  rw [hbind]
  constructor
  · rintro ⟨camel, h⟩
    obtain ⟨base, hbase, hcamel⟩ := bind_eq_ok.1 h
    exact ⟨base, camel, hbase, hcamel⟩
  · rintro ⟨base, camel, hbase, hcamel⟩
    exact ⟨camel, bind_eq_ok.2 ⟨base, hbase, hcamel⟩⟩

theorem accessor_ok {r : Relation} (h : isUsable r.related = true) : ∃ a, r.accessor = .ok a := by
  obtain ⟨base, camel, hbase, hcamel⟩ := isUsable_eq_true_iff.1 h
  rw [Relation.accessor, hbase]
  show ∃ a, (if r.kind.isPlural then pluralCamel base else camelCase base) = .ok a
  split
  · rw [pluralCamel, hcamel]
    exact plural_camelCase_ok hcamel
  · exact ⟨camel, hcamel⟩

/-! ### Join tables -/

theorem appends_collectFrom (entity : String) (known : List PivotTable) (rs : List Relation) :
    (collectFrom entity known rs).Appends := by
  induction rs generalizing known with
  | nil => exact .pure _
  | cons r rs ih =>
    unfold collectFrom
    split
    · refine (Logged.Appends.lift _).bind fun name => ?_
      split
      · exact (Logged.Appends.note _ _ _).bind fun _ => ih _
      · exact ih _
    · exact ih _

/-- Collecting join tables reports in the channel of the specs only. -/
theorem emits_collectFrom (entity : String) (known : List PivotTable) (rs : List Relation) :
    Emits id (·.channel = .specs) (collectFrom entity known rs) := by
  induction rs generalizing known with
  | nil => exact .pure _
  | cons r rs ih =>
    unfold collectFrom
    split
    · refine (Emits.lift _).bind fun name => ?_
      split
      · exact (Emits.note _ _ _).bind fun _ => ih _
      · exact ih _
    · exact ih _

theorem needsPivot_iff {kind : RelationKind} : kind.needsPivot = true ↔ kind = .belongsToMany := by
  cases kind <;> decide

/-- The relation gives the join table its name and its keys. -/
structure GivesTable (entity : String) (r : Relation) (p : PivotTable) : Prop where
  name : pivotName entity r.related = .ok p.name
  foreignKey : p.foreignKey = r.foreignKey
  relatedKey : p.relatedKey = r.localKey

/-- The join tables that have been collected: each relation that needs one has a name for it, and each table is given
by one of the relations. -/
theorem collectFrom_ok {entity : String} {known pivots : List PivotTable} {rs : List Relation}
    (h : (collectFrom entity known rs).start.1 = .ok pivots) :
    (∀ r ∈ rs, r.kind.needsPivot = true → ∃ name, pivotName entity r.related = .ok name) ∧
      ∀ p ∈ pivots, p ∈ known ∨ ∃ r ∈ rs, GivesTable entity r p := by
  induction rs generalizing known with
  | nil =>
    cases h
    exact ⟨nofun, fun p hp => Or.inl hp⟩
  | cons r rs ih =>
    -- what holds of the remaining relations holds of all, whatever the first one adds
    have hcons : ∀ known', (collectFrom entity known' rs).start.1 = .ok pivots →
        (r.kind.needsPivot = true → ∃ name, pivotName entity r.related = .ok name) →
        (∀ p ∈ known', p ∈ known ∨ GivesTable entity r p) →
        (∀ r' ∈ r :: rs, r'.kind.needsPivot = true → ∃ name, pivotName entity r'.related = .ok name) ∧
          ∀ p ∈ pivots, p ∈ known ∨ ∃ r' ∈ r :: rs, GivesTable entity r' p := by
      intro known' hrest hr hknown
      obtain ⟨hneed, hname⟩ := ih hrest
      refine ⟨List.forall_mem_cons.2 ⟨hr, hneed⟩, fun p hp => ?_⟩
      rcases hname p hp with hp | ⟨r', hr', hp⟩
      · rcases hknown p hp with hp | hp
        · exact Or.inl hp
        · exact Or.inr ⟨r, List.mem_cons_self, hp⟩
      · exact Or.inr ⟨r', List.mem_cons_of_mem _ hr', hp⟩
    unfold collectFrom at h
    split at h
    · have happ : ∀ name, (if known.any (·.name = name) then do
          note .warning .specs s!"Pivot table '{name}' already scheduled; ignoring duplicate from {r.display}."
          collectFrom entity known rs
        else collectFrom entity (known ++ [⟨name, r.foreignKey, r.localKey, r.related⟩]) rs).Appends := by
        intro name
        split
        · exact (Logged.Appends.note _ _ _).bind fun _ => appends_collectFrom _ _ _
        · exact appends_collectFrom _ _ _
      rw [Logged.start_bind_ok happ] at h
      obtain ⟨name, hname, h⟩ := h
      have hname : pivotName entity r.related = .ok name := hname
      -- the name is known and is told, or it is new and is added
      split at h
      · rw [Logged.start_bind_ok fun _ => appends_collectFrom _ _ _] at h
        obtain ⟨-, -, h⟩ := h
        exact hcons known h (fun _ => ⟨name, hname⟩) fun p hp => Or.inl hp
      · refine hcons _ h (fun _ => ⟨name, hname⟩) fun p hp => ?_
        rcases List.mem_append.1 hp with hp | hp
        · exact Or.inl hp
        · obtain rfl := List.mem_singleton.1 hp
          exact Or.inr ⟨hname, rfl, rfl⟩
    · rename_i hneeds
      exact hcons known h (fun h => absurd h hneeds) fun p hp => Or.inl hp

/-! ### What comes after reading -/

theorem mapM_ok {ε α β : Type} {f : α → Except ε β} {as : List α} (h : ∀ a ∈ as, ∃ b, f a = .ok b) :
    ∃ bs, as.mapM f = .ok bs := by
  induction as with
  | nil => exact ⟨[], rfl⟩
  | cons a as ih =>
    obtain ⟨b, hb⟩ := h a List.mem_cons_self
    obtain ⟨bs, hbs⟩ := ih fun a' ha' => h a' (List.mem_cons_of_mem _ ha')
    refine ⟨b :: bs, ?_⟩
    rw [List.mapM_cons, hb, hbs]
    rfl

/-- The results of a list of computations, one for each element. -/
theorem forall₂_of_mapM {ε α β : Type} {f : α → Except ε β} {as : List α} {bs : List β} (h : as.mapM f = .ok bs) :
    List.Forall₂ (fun a b => f a = .ok b) as bs := by
  induction as generalizing bs with
  | nil =>
    cases h
    exact .nil
  | cons a as ih =>
    rw [List.mapM_cons] at h
    obtain ⟨b, ha, h⟩ := bind_eq_ok.1 h
    obtain ⟨bs', has, h⟩ := bind_eq_ok.1 h
    obtain rfl := Except.ok.inj h
    exact .cons ha (ih has)

/-- What a list of computations gives, one of them gives. -/
theorem exists_of_mem_mapM {ε α β : Type} {f : α → Except ε β} {as : List α} {bs : List β} (h : as.mapM f = .ok bs)
    {b : β} (hb : b ∈ bs) : ∃ a ∈ as, f a = .ok b := by
  have hall := forall₂_of_mapM h
  clear h
  induction hall with
  | nil => cases hb
  | cons ha _ ih =>
    rcases List.mem_cons.1 hb with rfl | hb
    · exact ⟨_, List.mem_cons_self, ha⟩
    · obtain ⟨a', ha', h⟩ := ih hb
      exact ⟨a', List.mem_cons_of_mem _ ha', h⟩

/-- If a list of computations gives results, each of them gives one of these. -/
theorem exists_of_mapM_ok {ε α β : Type} {f : α → Except ε β} {as : List α} {bs : List β} (h : as.mapM f = .ok bs)
    {a : α} (ha : a ∈ as) : ∃ b ∈ bs, f a = .ok b := by
  have hall := forall₂_of_mapM h
  clear h
  induction hall with
  | nil => cases ha
  | cons hb _ ih =>
    rcases List.mem_cons.1 ha with rfl | ha
    · exact ⟨_, List.mem_cons_self, hb⟩
    · obtain ⟨b', hb', h⟩ := ih ha
      exact ⟨b', List.mem_cons_of_mem _ hb', h⟩

/-- The methods of relations that can be used and have their join tables. -/
theorem relationMethods_ok {entity : String} {rs : List Relation} (husable : ∀ r ∈ rs, isUsable r.related = true)
    (hpivot : ∀ r ∈ rs, r.kind.needsPivot = true → ∃ name, pivotName entity r.related = .ok name) :
    ∃ text, Code.relationMethods entity rs = .ok text := by
  -- an accessor and, where it is needed, the name of a join table make a method
  have hmethod : ∀ r ∈ rs, ∃ text, Code.relationMethod entity r = .ok text := by
    intro r hr
    obtain ⟨a, ha⟩ := accessor_ok (husable r hr)
    unfold Code.relationMethod Code.relationArguments
    by_cases hneeds : r.kind.needsPivot = true
    · obtain ⟨name, hname⟩ := hpivot r hr hneeds
      simp only [hneeds, if_true, hname, ha, bind, Except.bind, pure, Except.pure]
      exact ⟨_, rfl⟩
    · simp only [hneeds, ha, bind, Except.bind, pure, Except.pure]
      exact ⟨_, rfl⟩
  obtain ⟨texts, htexts⟩ := mapM_ok hmethod
  refine ⟨String.join texts, ?_⟩
  rw [Code.relationMethods, htexts]
  rfl

/-- Methods that have been formed have the names of their join tables. -/
theorem pivotName_of_relationMethods {entity text : String} {rs : List Relation}
    (h : Code.relationMethods entity rs = .ok text) :
    ∀ r ∈ rs, r.kind.needsPivot = true → ∃ name, pivotName entity r.related = .ok name := by
  intro r hr hneeds
  obtain ⟨texts, htexts, -⟩ := bind_eq_ok.1 h
  obtain ⟨method, -, hmethod⟩ := exists_of_mapM_ok htexts hr
  obtain ⟨arguments, harguments, -⟩ := bind_eq_ok.1 hmethod
  unfold Code.relationArguments at harguments
  simp only [hneeds, if_true] at harguments
  obtain ⟨name, hname, -⟩ := bind_eq_ok.1 harguments
  exact ⟨name, hname⟩

end CrudScaffold.Spec

namespace CrudScaffold.Checks

open CrudScaffold.Spec

theorem appends_reviewRequest (fields : List Field) (relations : List Relation) (skipped : List String) :
    (reviewRequest fields relations skipped).Appends :=
  (Logged.Appends.lift _).bind fun _ => (Logged.Appends.forM fun _ => .note _ _ _).bind fun _ => .pure _

/-- The reviews report in their own channel only. -/
theorem emits_reviewRequest (fields : List Field) (relations : List Relation) (skipped : List String) :
    Emits id (·.channel = .checks) (reviewRequest fields relations skipped) :=
  (Emits.lift _).bind fun _ => (Emits.forM fun _ => .note _ _ _).bind fun _ => .pure _

/-- The review of relations that can be used does not fail. -/
theorem reviewRequest_ok (fields : List Field) {relations : List Relation} (skipped : List String)
    (h : ∀ r ∈ relations, isUsable r.related = true) :
    ∃ findings, (reviewRequest fields relations skipped).start.1 = .ok findings := by
  obtain ⟨accessors, ha⟩ := mapM_ok fun r hr => accessor_ok (h r hr)
  have hall : ∃ findings, reviewAll fields relations skipped = .ok findings := by
    rw [reviewAll, reviewAccessors, ha]
    exact ⟨_, rfl⟩
  obtain ⟨findings, hall⟩ := hall
  refine ⟨findings, ?_⟩
  rw [reviewRequest, Logged.start_bind_ok fun _ => (Logged.Appends.forM fun _ => .note _ _ _).bind fun _ => .pure _]
  refine ⟨findings, hall, ?_⟩
  rw [Logged.start_bind_ok fun _ => .pure _]
  exact ⟨(), Logged.start_forM_ok (fun _ => .note _ _ _) fun _ => rfl, rfl⟩

end CrudScaffold.Checks
