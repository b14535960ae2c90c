import CrudScaffold.Proofs.Data.Entries
import CrudScaffold.Proofs.Settings
import CrudScaffold.Proofs.SettingsFile

/-!
# CrudScaffold.Proofs.SettingsPrecedence — which value a setting gets

A setting gets the value that overrides the file's, else the file's, else the default (`settings_precedence`).  Where in
the file the map of settings stands makes no difference (`Carries`), and neither does the order of its entries.  One rule
settles one setting (`readRule_cases`), and reading applies the rules one after the other, so after the last of them
every setting is settled (`foldl_readField`).
-/

namespace CrudScaffold.Settings

open CrudScaffold.Data CrudScaffold.Files CrudScaffold.Text

/-! ## Definitions -/

/-- The file at the path is read as this value. -/
def HoldsValue (readers : Readers) (t : Tree) (cwd : Location) (path : Path) (v : Value) : Prop :=
  ∃ s : String, look t cwd path = .ok (some (.file s.toUTF8)) ∧
    readers.reader path (String.ofList (unifyLineEnds s.toList)) = .ok v

/-- The value of a file holds the map of settings `m`: at its top level, or in a section. -/
inductive Carries (m : Entries) : Value → Prop
  | top (hno : Value.entry? m "crudgen" = none) (hno' : Value.entry? m "config" = none) : Carries m (.map m)
  | crudgen {entries : Entries} (h : Value.entry? entries "crudgen" = some (.map m)) : Carries m (.map entries)
  | config {entries : Entries} (hno : Value.entry? entries "crudgen" = none)
      (h : Value.entry? entries "config" = some (.map m)) : Carries m (.map entries)

/-- The value of a key that counts: an override, unless it is null, and else the value in the file. -/
inductive Chosen (m overrides : Entries) (key : String) : Value → Prop
  | override {v : Value} (h : (.text key, v) ∈ overrides) (hv : isNull v = false) : Chosen m overrides key v
  | file {v : Value} (h : (.text key, v) ∈ m) (hno : ∀ v', (.text key, v') ∈ overrides → isNull v' = true) :
      Chosen m overrides key v

/-- What the values of a file and the overriding ones come to. -/
def merged (m overrides : Entries) : Except (List Rejection) Settings := shape.read (overridden m overrides)

/-- The outcome for the settings of a file at a path. -/
def concluded (path : Path) : Except (List Rejection) Settings → Except Fault Settings
  | .ok s => .ok s
  | .error rejections => .error (.failure (.settings (.rejected (some path) rejections)))

/-- The same settings, or the same rejections in some order. -/
def Alike : Except (List Rejection) Settings → Except (List Rejection) Settings → Prop
  | .ok s, .ok s' => s = s'
  | .error rejections, .error rejections' => rejections.Perm rejections'
  | _, _ => False

/-- The key is the name of a setting. -/
def IsSetting (k : Value) : Prop := ∃ key ∈ kinds.map Prod.fst, k = .text key

/-- What a setting holds when the rules for the settings `rest` are still to be applied. -/
def Settled (given : Entries) (rest : List String) (e : String × Value) : Prop :=
  (∃ v, Value.entry? given e.1 = some v ∧ Takes e.1 v e.2) ∨
    e ∈ default.entries ∧ (Value.entry? given e.1 = none ∨ e.1 ∈ rest)

/-! ## The rules, one after the other -/

section Reading

variable {given given' : Entries}

theorem required_of_mem {rule : FieldRule Settings} (h : rule ∈ shape.fields) : rule.required = false := by
  have hall : shape.fields.all (fun rule => !rule.required) = true := rfl
  simpa using List.all_eq_true.1 hall rule h

/-- A rule finds no value and leaves the settings as they are, or changes its setting to what this takes, or
complains. -/
theorem readRule_cases (given : Entries) {rule : FieldRule Settings} (h : rule ∈ shape.fields) (s : Settings)
    (rejections : List Rejection) :
    (Value.entry? given rule.key = none ∧ Shape.readField given (s, rejections) rule = (s, rejections)) ∨
    (∃ v w s', Value.entry? given rule.key = some v ∧ Takes rule.key v w ∧
      Shape.readField given (s, rejections) rule = (s', rejections) ∧ s'.entries = replaced rule.key w s.entries) ∨
    ∃ v complaint, Value.entry? given rule.key = some v ∧ (∀ w, ¬ Takes rule.key v w) ∧
      Shape.readField given (s, rejections) rule = (s, rejections ++ [⟨rule.key, complaint⟩]) := by
  unfold Shape.readField
  cases hentry : Value.entry? given rule.key with
  | none =>
    simp only [required_of_mem h]
    exact Or.inl ⟨trivial, rfl⟩
  | some v =>
    rcases takesOrRejects_set h v s with ⟨w, s', hw, hset, hs'⟩ | ⟨complaint, hset, hnone⟩
    · simp only [hset]
      exact Or.inr (Or.inl ⟨v, w, s', rfl, hw, rfl, hs'⟩)
    · simp only [hset]
      exact Or.inr (Or.inr ⟨v, complaint, rfl, hnone, rfl⟩)

theorem Settled.of_replaced {key : String} {rest : List String} {v w : Value} {entries : List (String × Value)}
    (hv : Value.entry? given key = some v) (hw : Takes key v w) (h : ∀ e ∈ entries, Settled given (key :: rest) e) :
    ∀ e ∈ replaced key w entries, Settled given rest e := by
  intro e he
  obtain ⟨d, hd, rfl⟩ := List.mem_map.1 he
  split
  · exact Or.inl ⟨v, hv, hw⟩
  · rename_i hother
    refine (h d hd).imp_right fun ⟨hdefault, hrest⟩ => ⟨hdefault, hrest.imp_right fun hmem => ?_⟩
    exact (List.mem_cons.1 hmem).resolve_left hother

theorem Settled.of_none {key : String} {rest : List String} {e : String × Value} (hv : Value.entry? given key = none)
    (h : Settled given (key :: rest) e) : Settled given rest e := by
  refine h.imp_right fun ⟨hdefault, hrest⟩ => ⟨hdefault, ?_⟩
  rcases hrest with hnone | hmem
  · exact Or.inl hnone
  · rcases List.mem_cons.1 hmem with hkey | hmem
    · exact Or.inl (hkey ▸ hv)
    · exact Or.inr hmem

/-- The rules complain about nothing exactly if every value is taken, and then every setting is settled.  The induction
is on the rules that are still to be applied. -/
theorem foldl_readField (given : Entries) {rules : List (FieldRule Settings)} (h : ∀ rule ∈ rules, rule ∈ shape.fields)
    (s : Settings) (rejections : List Rejection) : ∃ s' more,
      rules.foldl (Shape.readField given) (s, rejections) = (s', rejections ++ more) ∧
      (more = [] ↔ ∀ rule ∈ rules, ∀ v, Value.entry? given rule.key = some v → ∃ w, Takes rule.key v w) ∧
      (more = [] → (∀ e ∈ s.entries, Settled given (rules.map FieldRule.key) e) →
        ∀ e ∈ s'.entries, Settled given [] e) := by
  induction rules generalizing s rejections with
  | nil => exact ⟨s, [], by simp, by simp, fun _ hs => hs⟩
  | cons rule rules ih =>
    obtain ⟨hrule, hrules⟩ := List.forall_mem_cons.1 h
    rw [List.foldl_cons]
    -- the key has no value, or one that is taken, or one that is rejected
    rcases readRule_cases given hrule s rejections with ⟨hnone, hread⟩ | ⟨v, w, s₁, hv, hw, hread, hs₁⟩ |
      ⟨v, complaint, hv, hnot, hread⟩
    · -- without a value the setting keeps what it holds
      obtain ⟨s', more, hfold, hmore, hsettled⟩ := ih hrules s rejections
      refine ⟨s', more, by rw [hread, hfold], ?_, fun hnil hs => hsettled hnil fun e he => (hs e he).of_none hnone⟩
      simp [hmore, hnone]
    · obtain ⟨s', more, hfold, hmore, hsettled⟩ := ih hrules s₁ rejections
      refine ⟨s', more, by rw [hread, hfold], ?_, fun hnil hs => hsettled hnil ?_⟩
      · have htaken : ∀ v', Value.entry? given rule.key = some v' → ∃ w, Takes rule.key v' w := by
          intro v' hv'
          rw [hv] at hv'
          cases hv'
          exact ⟨w, hw⟩
        rw [hmore, List.forall_mem_cons, and_iff_right htaken]
      · rw [hs₁]
        exact Settled.of_replaced hv hw hs
    · -- one rejection is enough
      obtain ⟨s', more, hfold, -, -⟩ := ih hrules s (rejections ++ [⟨rule.key, complaint⟩])
      refine ⟨s', ⟨rule.key, complaint⟩ :: more, by rw [hread, hfold]; simp, iff_of_false (List.cons_ne_nil _ _) ?_,
        fun hnil => absurd hnil (List.cons_ne_nil _ _)⟩
      intro hall
      obtain ⟨w, hw⟩ := hall rule List.mem_cons_self v hv
      exact hnot w hw

/-! ## A whole map -/

theorem keys_entries (s : Settings) : s.entries.map Prod.fst = shape.fields.map FieldRule.key := rfl

theorem keys_kinds : kinds.map Prod.fst = shape.fields.map FieldRule.key := rfl

/-- Only the names of settings are no strangers. -/
theorem strangerRejection_eq_none_iff {k : Value} : shape.strangerRejection k = none ↔ IsSetting k := by
  -- the rules and the kinds of values have the same keys
  have hkey : ∀ key : String, shape.fields.any (·.key = key) = true ↔ key ∈ kinds.map Prod.fst := by
    intro key
    rw [keys_kinds, List.any_eq_true, List.mem_map]
    simp only [decide_eq_true_eq]
  cases k with
  | text key =>
    have hsetting : IsSetting (.text key) ↔ key ∈ kinds.map Prod.fst :=
      ⟨fun ⟨_, hmem, heq⟩ => by cases heq; exact hmem, fun hmem => ⟨key, hmem, rfl⟩⟩
    rw [hsetting, ← hkey, Shape.strangerRejection]
    cases shape.fields.any (·.key = key) <;> simp
  | _ =>
    refine iff_of_false nofun ?_
    rintro ⟨key, -, heq⟩
    cases heq

/-- The complaints about the keys that are no settings. -/
def strangers (given : Entries) : List Rejection := given.filterMap fun e => shape.strangerRejection e.1

theorem strangers_eq_nil_iff : strangers given = [] ↔ ∀ e ∈ given, IsSetting e.1 := by
  rw [strangers, List.filterMap_eq_nil_iff]
  exact forall₂_congr fun e _ => strangerRejection_eq_none_iff

theorem read_eq (given : Entries) : ∃ s more,
    shape.fields.foldl (Shape.readField given) (default, []) = (s, more) ∧
    shape.read given = (match more ++ strangers given with
      | [] => .ok s
      | all => .error all) ∧
    (more = [] ↔ ∀ rule ∈ shape.fields, ∀ v, Value.entry? given rule.key = some v → ∃ w, Takes rule.key v w) ∧
    (more = [] → ∀ e ∈ s.entries, Settled given [] e) := by
  obtain ⟨s, more, hfold, hmore, hsettled⟩ := foldl_readField given (fun _ h => h) default []
  refine ⟨s, more, hfold, ?_, hmore, fun hnil => hsettled hnil fun e he => Or.inr ⟨he, Or.inr ?_⟩⟩
  · have hstart : shape.start = default := rfl
    rw [Shape.read, hstart, hfold]
    rfl
  · rw [← keys_entries]
    exact List.mem_map_of_mem he

/-- A map is read exactly if its keys are settings and each of them takes its value. -/
theorem read_isOk_iff : (∃ s, shape.read given = .ok s) ↔
    (∀ e ∈ given, IsSetting e.1) ∧ ∀ key v, Value.entry? given key = some v → ∃ w, Takes key v w := by
  obtain ⟨s, more, -, hread, hmore, -⟩ := read_eq given
  -- a map is read exactly if nothing is left to complain about
  have hsplit : (∃ s, shape.read given = .ok s) ↔ more = [] ∧ strangers given = [] := by
    rw [hread, ← List.append_eq_nil_iff]
    cases more ++ strangers given with
    | nil => simp
    | cons rejection rest => simp
  rw [hsplit, strangers_eq_nil_iff, hmore, and_comm]
  refine and_congr_right fun hall => ⟨fun h key v hv => ?_, fun h rule _ => h rule.key⟩
  obtain ⟨e, he, rfl⟩ := Option.map_eq_some_iff.1 hv
  obtain ⟨key', hkey', heq⟩ := hall e (List.mem_of_find?_eq_some he)
  have hfound : e.1.sameKey (.text key) = true := by simpa using List.find?_some he
  have hkey := Value.sameKey_text_iff.1 hfound
  rw [heq] at hkey
  cases hkey
  rw [keys_kinds] at hkey'
  obtain ⟨rule, hrule, rfl⟩ := List.mem_map.1 hkey'
  exact h rule hrule _ hv

/-- Every setting then holds what it takes of its value, or its default if there is none. -/
theorem settled_of_read {s : Settings} (h : shape.read given = .ok s) : ∀ e ∈ s.entries,
    (∃ v, Value.entry? given e.1 = some v ∧ Takes e.1 v e.2) ∨
      e ∈ default.entries ∧ Value.entry? given e.1 = none := by
  obtain ⟨s', more, -, hread, -, hsettled⟩ := read_eq given
  rw [hread] at h
  cases hall : more ++ strangers given with
  | cons rejection rest =>
    rw [hall] at h
    cases h
  | nil =>
    rw [hall] at h
    cases h
    intro e he
    exact (hsettled (List.append_eq_nil_iff.1 hall).1 e he).imp_right fun ⟨hdefault, hnone⟩ =>
      ⟨hdefault, hnone.resolve_right (List.not_mem_nil)⟩

/-- Only the values of the keys matter, and which keys there are. -/
theorem read_congr (hentry : ∀ key, Value.entry? given key = Value.entry? given' key)
    (hkeys : (given.map Prod.fst).Perm (given'.map Prod.fst)) : Alike (shape.read given) (shape.read given') := by
  -- the rules look at nothing but what stands under their keys
  have hfield : Shape.readField (α := Settings) given = Shape.readField given' := by
    funext state rule
    rw [Shape.readField, hentry]
    rfl
  have hstrangers : (strangers given).Perm (strangers given') := by
    have h := hkeys.filterMap shape.strangerRejection
    rwa [List.filterMap_map, List.filterMap_map] at h
  obtain ⟨s, more, hfold, hread, -⟩ := read_eq given
  obtain ⟨s', more', hfold', hread', -⟩ := read_eq given'
  rw [hfield, hfold'] at hfold
  cases hfold
  -- the complaints about settings are the same, those about strangers in another order
  have hperm : (more ++ strangers given).Perm (more ++ strangers given') := hstrangers.append_left more
  rw [hread, hread']
  generalize more ++ strangers given = all at hperm
  generalize more ++ strangers given' = all' at hperm
  cases all with
  | nil =>
    obtain rfl := hperm.nil_eq
    rfl
  | cons rejection rest =>
    cases all' with
    | nil => exact absurd hperm.symm.nil_eq (List.cons_ne_nil _ _).symm
    | cons rejection' rest' => exact hperm

end Reading

/-! ## A file and the overriding values -/

section Merging

variable {m m' overrides overrides' : Entries} {key : String} {v : Value}

/-- The values that override something. -/
def overriding (overrides : Entries) : Entries := overrides.filter fun e => !isNull e.2

theorem overridden_eq (m overrides : Entries) : overridden m overrides = putAll m (overriding overrides) := rfl

theorem overriding_overriding (overrides : Entries) : overriding (overriding overrides) = overriding overrides := by
  rw [overriding, overriding, List.filter_filter]
  simp only [Bool.and_self]

theorem isMapping_overriding (h : IsMapping overrides) : IsMapping (overriding overrides) := List.Pairwise.filter _ h

/-- The value that counts is found under its key when the overriding values are in place. -/
theorem chosen_iff (hm : IsMapping m) (ho : IsMapping overrides) :
    Chosen m overrides key v ↔ Value.entry? (overridden m overrides) key = some v := by
  -- an overriding null stands for no value at all
  have hover := isMapping_overriding ho
  have hnone : Value.entry? (overriding overrides) key = none ↔
      ∀ v', (.text key, v') ∈ overrides → isNull v' = true := by
    rw [Value.entry?_eq_none_iff]
    refine forall_congr' fun v' => ?_
    rw [overriding, List.mem_filter, not_and]
    simp
  rw [overridden_eq, Value.entry?_putAll _ hover, Option.or_eq_some_iff, Value.entry?_eq_some_iff hover, hnone,
    Value.entry?_eq_some_iff hm, overriding, List.mem_filter]
  constructor
  · rintro (⟨h, hv⟩ | ⟨h, hno⟩)
    · exact Or.inl ⟨h, by simp [hv]⟩
    · exact Or.inr ⟨hno, h⟩
  · rintro (⟨h, hv⟩ | ⟨hno, h⟩)
    · exact .override h (by simpa using hv)
    · exact .file h hno

/-- The keys are those of the file and of the overriding values: one that both have is the same text. -/
theorem isSetting_overridden_iff (m : Entries) (ho : IsMapping overrides) :
    (∀ e ∈ overridden m overrides, IsSetting e.1) ↔ ∀ e ∈ m ++ overriding overrides, IsSetting e.1 := by
  have hkeys : ∀ es : Entries, (∀ e ∈ es, IsSetting e.1) ↔ ∀ k ∈ es.map Prod.fst, IsSetting k := by
    intro es
    rw [List.forall_mem_map]
  rw [hkeys, hkeys, overridden_eq, Value.keys_putAll _ (isMapping_overriding ho), List.map_append,
    List.forall_mem_append, List.forall_mem_append]
  refine and_congr_right fun hm => ⟨fun h k hk => ?_, fun h k hk => h k (List.mem_filter.1 hk).1⟩
  by_cases hhas : hasKey m k = true
  · obtain ⟨e, he, hsame⟩ := List.any_eq_true.1 hhas
    obtain ⟨key, hkey, heq⟩ := hm e.1 (List.mem_map_of_mem he)
    rw [heq] at hsame
    exact ⟨key, hkey, Value.sameKey_of_text hsame⟩
  · exact h k (List.mem_filter.2 ⟨hk, by simpa using hhas⟩)

/-- Neither the order of the file nor that of the overriding values matters. -/
theorem merged_perm (hm : IsMapping m) (ho : IsMapping overrides) (hm' : IsMapping m') (ho' : IsMapping overrides')
    (hperm : m.Perm m') (hperm' : overrides.Perm overrides') : Alike (merged m overrides) (merged m' overrides') := by
  have hover := isMapping_overriding ho
  have hover' := isMapping_overriding ho'
  have hfilter : (overriding overrides).Perm (overriding overrides') := hperm'.filter _
  apply read_congr
  · intro key
    rw [overridden_eq, overridden_eq, Value.entry?_putAll _ hover, Value.entry?_putAll _ hover',
      Value.entry?_perm hover hover' hfilter, Value.entry?_perm hm hm' hperm]
  · have hnew : ∀ k, (!hasKey m k) = !hasKey m' k := by
      intro k
      rw [hasKey, hasKey, hperm.any_eq]
    rw [overridden_eq, overridden_eq, Value.keys_putAll _ hover, Value.keys_putAll _ hover', funext hnew]
    exact (hperm.map _).append ((hfilter.map _).filter _)

end Merging

/-! ## Files -/

section Layouts

variable {readers : Readers} {t : Tree} {cwd : Location} {path : Path} {v : Value} {m : Entries}

theorem entriesOf_of_carries (h : Carries m v) : entriesOf path v = .ok m := by
  cases h with
  | top hno hno' => simp only [entriesOf, sectionNames, sectionOf, hno, hno']
  | crudgen h => simp only [entriesOf, sectionNames, sectionOf, h]
  | config hno h => simp only [entriesOf, sectionNames, sectionOf, hno, h]

theorem fileEntries_of_carries (hholds : HoldsValue readers t cwd path v) (h : Carries m v) :
    fileEntries readers t cwd path = .ok m := by
  obtain ⟨s, hlook, hread⟩ := hholds
  rw [fileEntries_of_text hlook, readValue, hread]
  exact entriesOf_of_carries h

theorem load_of_carries (hholds : HoldsValue readers t cwd path v) (h : Carries m v) (overrides : Entries) :
    load readers t cwd (some path) overrides = concluded path (merged m overrides) := by
  rw [load, fileEntries_of_carries hholds h, merged]
  simp only [bind, Except.bind]
  cases shape.read (overridden m overrides) <;> rfl

end Layouts

/-- **Overrides come before the file, and the file before the defaults.**  For a map of settings and overriding values:

* a file that holds the map at its top level or in a section gives the outcome of the map, whatever else it holds;
* overriding values of null make no difference;
* there is an outcome other than rejections exactly if all keys are settings and take the values that count;
* then a setting holds what it takes of its value that counts, or its default if it has none;
* the order of the entries makes no difference. -/
theorem settings_precedence {m overrides : Entries} (hm : IsMapping m) (ho : IsMapping overrides) :
    (∀ readers t cwd path v, HoldsValue readers t cwd path v → Carries m v →
      load readers t cwd (some path) overrides = concluded path (merged m overrides)) ∧
    (∀ readers t cwd path?,
      load readers t cwd path? overrides = load readers t cwd path? (overrides.filter fun e => !isNull e.2)) ∧
    ((∃ s, merged m overrides = .ok s) ↔ (∀ e ∈ m ++ overrides.filter fun e => !isNull e.2, IsSetting e.1) ∧
      ∀ key v, Chosen m overrides key v → ∃ w, Takes key v w) ∧
    (∀ s, merged m overrides = .ok s → ∀ e ∈ s.entries, (∃ v, Chosen m overrides e.1 v ∧ Takes e.1 v e.2) ∨
      (∀ v, ¬ Chosen m overrides e.1 v) ∧ e ∈ default.entries) ∧
    ∀ m' overrides', IsMapping m' → IsMapping overrides' → m.Perm m' → overrides.Perm overrides' →
      Alike (merged m overrides) (merged m' overrides') := by
  refine ⟨fun readers t cwd path v hholds h => load_of_carries hholds h overrides,
    fun readers t cwd path? => ?_, ?_, ?_, ?_⟩
  · -- dropping the nulls once more changes nothing
    have hsame : ∀ entries, overridden entries overrides = overridden entries (overriding overrides) := by
      intro entries
      rw [overridden_eq, overridden_eq, overriding_overriding]
    simp only [load, hsame]
    rfl
  · simp only [chosen_iff hm ho, merged, read_isOk_iff, isSetting_overridden_iff m ho]
    rfl
  · intro s hs e he
    simp only [chosen_iff hm ho]
    refine (settled_of_read hs e he).imp_right fun ⟨hdefault, hnone⟩ => ⟨?_, hdefault⟩
    rw [hnone]
    exact nofun
  · intro m' overrides' hm' ho' hperm hperm'
    exact merged_perm hm ho hm' ho' hperm hperm'

/-- A settings file with a section, and with something beside it. -/
def sectionText : String :=
  "\x7b\"name\": 1, \"config\": \x7b\"backend\": \"ftp\", \"overwrite_existing\": \"yes\"\x7d\x7d"

/-- A backend that is none is overridden, and a null leaves the switch of the file alone. -/
theorem settings_precedence_section :
    let readers : Readers := ⟨fun _ => .error .malformed, 2⟩
    let m : Entries := [(.text "backend", .text "ftp"), (.text "overwrite_existing", .text "yes")]
    let overrides : Entries := [(.text "overwrite_existing", .null), (.text "backend", .text "dry_run")]
    let tree := Tree.empty.put ["c.json"] (.file sectionText.toUTF8)
    IsMapping m ∧ IsMapping overrides ∧
    HoldsValue readers tree [] (Path.ofString "c.json") (.map [(.text "name", .int 1), (.text "config", .map m)]) ∧
    ∃ s, load readers tree [] (some (Path.ofString "c.json")) overrides = .ok s ∧ s.backend = .dryRun ∧
      s.overwrite = true ∧ ∀ e ∈ s.entries, (∃ v, Chosen m overrides e.1 v ∧ Takes e.1 v e.2) ∨
        (∀ v, ¬ Chosen m overrides e.1 v) ∧ e ∈ default.entries := by
  intro readers m overrides tree
  have hm : IsMapping m := .cons (by decide) (.cons nofun .nil)
  have ho : IsMapping overrides := .cons (by decide) (.cons nofun .nil)
  have hread : Json.read 2 sectionText = .ok (.map [(.text "name", .int 1), (.text "config", .map m)]) :=
    Json.read_ofList (r := []) rfl rfl
  have hlines : unifyLineEnds sectionText.toList = sectionText.toList := by rfl
  have hreader : readers.reader (Path.ofString "c.json") = Json.read 2 := if_pos (by rfl)
  have hholds : HoldsValue readers tree [] (Path.ofString "c.json")
      (.map [(.text "name", .int 1), (.text "config", .map m)]) := by
    refine ⟨sectionText, by rfl, ?_⟩
    rw [hlines, String.ofList_toList, hreader]
    exact hread
  have hmerged : merged m overrides = .ok { default with backend := .dryRun, overwrite := true } := by rfl
  obtain ⟨hload, -, -, hsettled, -⟩ := settings_precedence hm ho
  refine ⟨hm, ho, hholds, _, ?_, rfl, rfl, hsettled _ hmerged⟩
  rw [hload readers tree [] _ _ hholds (.config rfl rfl), hmerged, concluded]

end CrudScaffold.Settings
