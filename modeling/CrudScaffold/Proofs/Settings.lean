import CrudScaffold.Proofs.Runs
import CrudScaffold.Proofs.Text.Characters
import CrudScaffold.Settings

/-!
# CrudScaffold.Proofs.Settings — what settings hold, however they are assigned

`Takes` says which values a setting takes, and what it then holds.  The rule of a setting takes just these, and changes
no other setting (`takesOrRejects_set`, one case per rule).  So every setting holds a value that it takes, in settings
that were read (`held_of_read`) and after any assignments to them (`held_foldl_assigned`): they are `Sound`.
-/

namespace CrudScaffold.Settings

open CrudScaffold.Data CrudScaffold.Text

/-! ## Definitions -/

/-- The kinds of settings, by the values that they take. -/
inductive Kind where
  | text
  | namespaceText
  | templates
  | switch
  | backend
  | timeout

/-- The kind of each setting. -/
def kinds : List (String × Kind) := [
  ("project_root", .text),
  ("models_path", .text),
  ("controllers_path", .text),
  ("requests_path", .text),
  ("migrations_path", .text),
  ("model_namespace", .namespaceText),
  ("stubs_dir", .templates),
  ("use_builtin_stubs", .switch),
  ("backend", .backend),
  ("php_binary", .text),
  ("artisan_timeout", .timeout),
  ("overwrite_existing", .switch),
  ("strict_relations", .switch),
  ("strict_placeholders", .switch)]

/-- The separator of the segments of a namespace. -/
def isBackslash (c : Char) : Bool := c == '\\'

/-- `kind.Takes v w`: a setting of the kind takes `v`, and then holds `w`. -/
inductive Kind.Takes : Kind → Value → Value → Prop
  | text {t : String} (ht : t ≠ "") : Takes .text (.text t) (.text t)
  /-- The separators in front of a namespace and behind it are left out. -/
  | namespaceText {front cs back : List Char} (hfront : ∀ c ∈ front, isBackslash c = true) (hcs : cs ≠ [])
      (hbare : Bare isBackslash cs) (hback : ∀ c ∈ back, isBackslash c = true) :
      Takes .namespaceText (.text (String.ofList (front ++ cs ++ back))) (.text (String.ofList cs))
  | noTemplates : Takes .templates .null .null
  | templates {t : String} : Takes .templates (.text t) (.text t)
  | switch {v : Value} {b : Bool} (hv : Data.switch v = .ok b) : Takes .switch v (.bool b)
  | backend {b : BackendKind} : Takes .backend (.text b.label) (.text b.label)
  | timeout {v : Value} {x : Float} (hv : number v = .ok x) (hx : 0.0 < x) : Takes .timeout v (.float x)

/-- `Takes key v w`: the setting `key` takes `v`, and then holds `w`. -/
def Takes (key : String) (v w : Value) : Prop := ∃ kind, kinds.lookup key = some kind ∧ kind.Takes v.decoded w

/-- The entries with another value for one of them. -/
def replaced (key : String) (w : Value) (entries : List (String × Value)) : List (String × Value) :=
  entries.map fun e => if e.1 = key then (key, w) else e

/-- Every setting holds a value that it takes. -/
def Held (s : Settings) : Prop := ∀ e ∈ s.entries, ∃ v, Takes e.1 v e.2

/-- What is always true of settings. -/
structure Sound (s : Settings) : Prop where
  projectRoot : s.projectRoot ≠ ""
  modelsPath : s.modelsPath ≠ ""
  controllersPath : s.controllersPath ≠ ""
  requestsPath : s.requestsPath ≠ ""
  migrationsPath : s.migrationsPath ≠ ""
  modelNamespace : s.modelNamespace ≠ "" ∧ s.modelNamespace.toList.head? ≠ some '\\' ∧
    s.modelNamespace.toList.getLast? ≠ some '\\'
  phpBinary : s.phpBinary ≠ ""
  timeout : 0.0 < s.timeout ∧ s.timeout.isNaN = false
  backend : s.backend ∈ BackendKind.all

/-- The settings after an assignment: one that is rejected leaves them as they are. -/
def assigned (s : Settings) (step : String × Value) : Settings :=
  match shape.assign step.1 step.2 s with
  | .ok s' => s'
  | .error _ => s

/-! ## What the rules take -/

section Rules

variable {v w : Value}

theorem takes_text_iff : Kind.text.Takes v w ↔ ∃ t, someText v = .ok t ∧ w = .text t := by
  constructor
  · intro h
    cases h with
    | @text t ht => exact ⟨t, by simp [someText, ht], rfl⟩
  · rintro ⟨t, ht, rfl⟩
    cases v with
    | text s =>
      rw [someText] at ht
      split at ht
      · cases ht
      · rename_i hne
        obtain rfl := Except.ok.inj ht
        exact .text (by simpa using hne)
    | _ => cases ht

theorem trimSeparators_eq_trimBy (cs : List Char) : trimSeparators cs = trimBy isBackslash cs := rfl

theorem takes_namespaceText_iff :
    Kind.namespaceText.Takes v w ↔ ∃ t, Settings.namespaceText v = .ok t ∧ w = .text t := by
  constructor
  · intro h
    cases h with
    -- the separators around the text are what is trimmed
    | @namespaceText front cs back hfront hcs hbare hback =>
      have htrimmed := trimBy_append hfront hbare hback hcs
      have hsome : ¬ (String.ofList (front ++ cs ++ back)).isEmpty = true := by
        rw [String.isEmpty_iff, String.ofList_eq_empty_iff]
        simp [hcs]
      refine ⟨_, ?_, rfl⟩
      rw [Settings.namespaceText, someText, if_neg hsome]
      simp only [bind, Except.bind, String.toList_ofList, trimSeparators_eq_trimBy, htrimmed, List.isEmpty_iff, hcs,
        if_false]
      rfl
  · rintro ⟨t, ht, rfl⟩
    obtain ⟨s, hs, ht⟩ := bind_eq_ok.1 ht
    cases v with
    | text given =>
      rw [someText] at hs
      split at hs
      · cases hs
      obtain rfl := Except.ok.inj hs
      by_cases hne : trimSeparators given.toList = []
      · simp only [hne, List.isEmpty_nil, if_true] at ht
        cases ht
      simp only [List.isEmpty_iff, hne, if_false] at ht
      obtain rfl := Except.ok.inj ht
      -- what is trimmed stands around a bare text
      obtain ⟨front, back, hcs, hfront, hback⟩ := exists_trimBy_append isBackslash given.toList
      rw [← trimSeparators_eq_trimBy] at hcs
      have htaken := Kind.Takes.namespaceText hfront hne (bare_trimBy isBackslash given.toList) hback
      rwa [← hcs, String.ofList_toList] at htaken
    | _ => cases hs

theorem takes_templates_iff :
    Kind.templates.Takes v w ↔ ∃ t, optionalText v = .ok t ∧ w = (t.map Value.text).getD .null := by
  constructor
  · intro h
    cases h with
    | noTemplates => exact ⟨none, rfl, rfl⟩
    | @templates t => exact ⟨some t, rfl, rfl⟩
  · rintro ⟨t, ht, rfl⟩
    cases v with
    | null =>
      obtain rfl := Except.ok.inj ht
      exact .noTemplates
    | text s =>
      obtain rfl := Except.ok.inj ht
      exact .templates
    | _ => cases ht

theorem takes_switch_iff : Kind.switch.Takes v w ↔ ∃ b, Data.switch v = .ok b ∧ w = .bool b := by
  constructor
  · intro h
    cases h with
    | switch hv => exact ⟨_, hv, rfl⟩
  · rintro ⟨b, hb, rfl⟩
    exact .switch hb

/-- The backends with their labels. -/
def backends : List (String × BackendKind) := BackendKind.all.map fun b => (b.label, b)

theorem takes_backend_iff :
    Kind.backend.Takes v w ↔ ∃ b : BackendKind, oneOf backends v = .ok b ∧ w = .text b.label := by
  constructor
  · intro h
    cases h with
    | @backend b => exact ⟨b, by cases b <;> rfl, rfl⟩
  · rintro ⟨b, hb, rfl⟩
    cases v with
    | text s =>
      rw [oneOf] at hb
      split at hb
      · -- the value is looked up among the labels
        rename_i found hfound
        obtain rfl := Except.ok.inj hb
        obtain ⟨front, back, hbackends, -⟩ := List.lookup_eq_some_iff.1 hfound
        have hmem : (s, found) ∈ backends := by simp [hbackends]
        obtain ⟨b, -, hpair⟩ := List.mem_map.1 hmem
        obtain ⟨rfl, rfl⟩ := Prod.mk.inj hpair
        exact .backend
      · cases hb
    | _ => cases hb

theorem takes_timeout_iff : Kind.timeout.Takes v w ↔ ∃ x, positiveNumber v = .ok x ∧ w = .float x := by
  constructor
  · intro h
    cases h with
    | @timeout _ x hv hx =>
      refine ⟨x, ?_, rfl⟩
      simp only [positiveNumber, hv, bind, Except.bind, hx, if_true]
      rfl
  · rintro ⟨x, hx, rfl⟩
    obtain ⟨y, hy, hx⟩ := bind_eq_ok.1 hx
    split at hx
    · rename_i hpositive
      obtain rfl := Except.ok.inj hx
      exact .timeout hy hpositive
    · cases hx

end Rules

/-! ## One assignment -/

/-- What comes of a value for a setting: the setting holds what it takes and no other one changes, or there is a
complaint, and the setting does not take the value. -/
def TakesOrRejects (s : Settings) (key : String) (v : Value) (outcome : Except Complaint Settings) : Prop :=
  (∃ w s', Takes key v w ∧ outcome = .ok s' ∧ s'.entries = replaced key w s.entries) ∨
  (∃ complaint, outcome = .error complaint ∧ ∀ w, ¬ Takes key v w)

theorem takesOrRejects_of {α : Type} {s : Settings} {key : String} {v : Value} {kind : Kind}
    (hkind : kinds.lookup key = some kind) {read : Except Complaint α} {put : α → Settings} {shown : α → Value}
    (htakes : ∀ {w}, kind.Takes v.decoded w ↔ ∃ a, read = .ok a ∧ w = shown a)
    (hput : ∀ a, (put a).entries = replaced key (shown a) s.entries) :
    TakesOrRejects s key v (do return put (← read)) := by
  cases read with
  | ok a => exact Or.inl ⟨shown a, put a, ⟨kind, hkind, htakes.2 ⟨a, rfl, rfl⟩⟩, rfl, hput a⟩
  | error complaint =>
    refine Or.inr ⟨complaint, rfl, fun w ⟨other, hother, h⟩ => ?_⟩
    rw [hkind] at hother
    obtain rfl := Option.some.inj hother
    obtain ⟨a, ha, -⟩ := htakes.1 h
    cases ha

/-- The rule of a setting takes what the setting takes, and changes that setting only. -/
theorem takesOrRejects_set {rule : FieldRule Settings} (h : rule ∈ shape.fields) (v : Value) (s : Settings) :
    TakesOrRejects s rule.key v (rule.set v.decoded s) := by
  -- one rule for each setting
  simp only [shape, List.mem_cons, List.not_mem_nil, or_false] at h
  rcases h with rfl | rfl | rfl | rfl | rfl | rfl | rfl | rfl | rfl | rfl | rfl | rfl | rfl | rfl
  · exact takesOrRejects_of rfl takes_text_iff fun t => rfl
  · exact takesOrRejects_of rfl takes_text_iff fun t => rfl
  · exact takesOrRejects_of rfl takes_text_iff fun t => rfl
  · exact takesOrRejects_of rfl takes_text_iff fun t => rfl
  · exact takesOrRejects_of rfl takes_text_iff fun t => rfl
  · exact takesOrRejects_of rfl takes_namespaceText_iff fun t => rfl
  · exact takesOrRejects_of rfl takes_templates_iff fun t => rfl
  · exact takesOrRejects_of rfl takes_switch_iff fun b => rfl
  · exact takesOrRejects_of rfl takes_backend_iff fun b => rfl
  · exact takesOrRejects_of rfl takes_text_iff fun t => rfl
  · exact takesOrRejects_of rfl takes_timeout_iff fun x => rfl
  · exact takesOrRejects_of rfl takes_switch_iff fun b => rfl
  · exact takesOrRejects_of rfl takes_switch_iff fun b => rfl
  · exact takesOrRejects_of rfl takes_switch_iff fun b => rfl

theorem exists_rule_of_takes {key : String} {v w : Value} (h : Takes key v w) :
    ∃ rule ∈ shape.fields, rule.key = key := by
  obtain ⟨kind, hkind, -⟩ := h
  obtain ⟨front, back, hkinds, -⟩ := List.lookup_eq_some_iff.1 hkind
  have hkeys : kinds.map Prod.fst = shape.fields.map FieldRule.key := rfl
  have hmem : key ∈ kinds.map Prod.fst := by simp [hkinds]
  rw [hkeys] at hmem
  exact List.mem_map.1 hmem

/-- An assignment is accepted exactly if the setting takes the value; then it changes that setting only. -/
theorem assign_cases (s : Settings) (key : String) (v : Value) :
    (∃ w s', Takes key v w ∧ shape.assign key v s = .ok s' ∧ s'.entries = replaced key w s.entries) ∨
    (∃ complaint, shape.assign key v s = .error ⟨key, complaint⟩ ∧ ∀ w, ¬ Takes key v w) := by
  rw [Shape.assign]
  cases hfind : shape.fields.find? (·.key = key) with
  | none =>
    refine Or.inr ⟨.unknownAttribute, rfl, fun w h => ?_⟩
    obtain ⟨rule, hrule, hkey⟩ := exists_rule_of_takes h
    exact absurd (decide_eq_true hkey) (List.find?_eq_none.1 hfind rule hrule)
  | some rule =>
    obtain rfl : rule.key = key := by simpa using List.find?_some hfind
    rcases takesOrRejects_set (List.mem_of_find?_eq_some hfind) v s with ⟨w, s', hw, hset, hs'⟩ | ⟨c, hset, hnone⟩
    · exact Or.inl ⟨w, s', hw, by simp only [hset], hs'⟩
    · exact Or.inr ⟨c, by simp only [hset], hnone⟩

/-! ## What every setting holds -/

theorem held_default : Held default := by
  have htext : ∀ {key t}, kinds.lookup key = some .text → t ≠ "" → ∃ v, Takes key v (.text t) :=
    fun {_ t} hkind ht => ⟨.text t, _, hkind, .text ht⟩
  have hswitch : ∀ {key b}, kinds.lookup key = some .switch → ∃ v, Takes key v (.bool b) :=
    fun {_ b} hkind => ⟨.bool b, _, hkind, .switch rfl⟩
  have hnamespace : ∃ v, Takes "model_namespace" v (.text "App\\Models") :=
    ⟨.text "App\\Models", _, rfl, takes_namespaceText_iff.2 ⟨_, rfl, rfl⟩⟩
  have hbackend : ∃ v, Takes "backend" v (.text "filesystem") :=
    ⟨.text "filesystem", _, rfl, @Kind.Takes.backend .filesystem⟩
  have htimeout : ∃ v, Takes "artisan_timeout" v (.float 120.0) := ⟨.float 120.0, _, rfl, .timeout rfl (by decide)⟩
  simp only [Held, entries, default, List.forall_mem_cons]
  exact ⟨htext rfl (by decide), htext rfl (by decide), htext rfl (by decide), htext rfl (by decide),
    htext rfl (by decide), hnamespace, ⟨.null, _, rfl, .noTemplates⟩, hswitch rfl, hbackend, htext rfl (by decide),
    htimeout, hswitch rfl, hswitch rfl, hswitch rfl, nofun⟩

theorem held_of_entries {s s' : Settings} {key : String} {v w : Value} (h : Held s) (hw : Takes key v w)
    (hs' : s'.entries = replaced key w s.entries) : Held s' := by
  intro e he
  rw [hs', replaced] at he
  obtain ⟨d, hd, rfl⟩ := List.mem_map.1 he
  split
  · exact ⟨v, hw⟩
  · exact h d hd

theorem held_assigned {s : Settings} (h : Held s) (step : String × Value) : Held (assigned s step) := by
  rcases assign_cases s step.1 step.2 with ⟨w, s', hw, hassign, hs'⟩ | ⟨complaint, hassign, -⟩
  · rw [assigned, hassign]
    exact held_of_entries h hw hs'
  · rw [assigned, hassign]
    exact h

theorem held_foldl_assigned {s : Settings} (h : Held s) (steps : List (String × Value)) :
    Held (steps.foldl assigned s) :=
  List.foldlRecOn steps assigned h fun _ ht step _ => held_assigned ht step

/-- Reading puts the given values into the default settings, rule by rule. -/
theorem held_of_read {given : List (Value × Value)} {s : Settings} (h : shape.read given = .ok s) : Held s := by
  -- the invariant is kept by each rule: what is set is taken from a value
  have hfold : Held (shape.fields.foldl (Shape.readField given) (shape.start, [])).1 := by
    refine List.foldlRecOn (motive := fun state : Settings × List Rejection => Held state.1) shape.fields _
      held_default fun state hstate rule hrule => ?_
    unfold Shape.readField
    cases Value.entry? given rule.key with
    | none =>
      simp only
      split <;> exact hstate
    | some v =>
      rcases takesOrRejects_set hrule v state.1 with ⟨w, s', hw, hset, hs'⟩ | ⟨complaint, hset, -⟩
      · simp only [hset]
        exact held_of_entries hstate hw hs'
      · simp only [hset]
        exact hstate
  unfold Shape.read at h
  simp only at h
  split at h
  · obtain rfl := Except.ok.inj h
    exact hfold
  · cases h

/-! ## Sound settings -/

theorem isNaN_of_pos {x : Float} (h : 0.0 < x) : x.isNaN = false := by
  have hlt : (0.0 : Float).toModel.unpack.lt x.toModel.unpack = true := of_decide_eq_true h
  show x.toModel.unpack.isNaN = false
  cases hx : x.toModel.unpack with
  | notANumber =>
    rw [hx] at hlt
    revert hlt
    decide
  | _ => rfl

section Sound

variable {s : Settings}

theorem Held.takes (h : Held s) {key : String} {w : Value} (hmem : (key, w) ∈ s.entries) {kind : Kind}
    (hkind : kinds.lookup key = some kind) : ∃ v, kind.Takes v w := by
  obtain ⟨v, other, hother, htakes⟩ := h _ hmem
  rw [hkind] at hother
  obtain rfl := Option.some.inj hother
  exact ⟨v.decoded, htakes⟩

theorem Held.ne_empty (h : Held s) (key : String) {t : String} (hmem : (key, .text t) ∈ s.entries)
    (hkind : kinds.lookup key = some .text) : t ≠ "" := by
  obtain ⟨v, htakes⟩ := h.takes hmem hkind
  cases htakes with
  | text ht => exact ht

theorem Held.sound (h : Held s) : Sound s where
  projectRoot := h.ne_empty "project_root" (by simp [entries]) rfl
  modelsPath := h.ne_empty "models_path" (by simp [entries]) rfl
  controllersPath := h.ne_empty "controllers_path" (by simp [entries]) rfl
  requestsPath := h.ne_empty "requests_path" (by simp [entries]) rfl
  migrationsPath := h.ne_empty "migrations_path" (by simp [entries]) rfl
  modelNamespace := by
    have hmem : ("model_namespace", Value.text s.modelNamespace) ∈ s.entries := by simp [entries]
    obtain ⟨v, htakes⟩ := h.takes hmem rfl
    generalize s.modelNamespace = t at htakes
    cases htakes with
    | @namespaceText front cs back _ hcs hbare _ =>
      rw [String.toList_ofList, Ne, String.ofList_eq_empty_iff]
      refine ⟨hcs, fun hfirst => ?_, fun hlast => ?_⟩
      · cases hbare.1 _ hfirst
      · cases hbare.2 _ hlast
  phpBinary := h.ne_empty "php_binary" (by simp [entries]) rfl
  timeout := by
    have hmem : ("artisan_timeout", Value.float s.timeout) ∈ s.entries := by simp [entries]
    obtain ⟨v, htakes⟩ := h.takes hmem rfl
    cases htakes with
    | timeout _ hx => exact ⟨hx, isNaN_of_pos hx⟩
  backend := by cases s.backend <;> decide

end Sound

/-- **Settings are sound at every point.**  However settings were read and whatever has been assigned to them, they are
sound, and any further assignment either is rejected, and then the setting does not take the value and nothing changes,
or it changes the named setting only, to what it then holds. -/
theorem sound_throughout {given : List (Value × Value)} {s : Settings} (h : shape.read given = .ok s)
    (steps : List (String × Value)) (key : String) (v : Value) :
    Sound (steps.foldl assigned s) ∧
    ((∃ complaint, shape.assign key v (steps.foldl assigned s) = .error ⟨key, complaint⟩ ∧ (∀ w, ¬ Takes key v w) ∧
        assigned (steps.foldl assigned s) (key, v) = steps.foldl assigned s) ∨
      ∃ w s', Takes key v w ∧ shape.assign key v (steps.foldl assigned s) = .ok s' ∧
        assigned (steps.foldl assigned s) (key, v) = s' ∧ Sound s' ∧
        s'.entries = replaced key w (steps.foldl assigned s).entries) := by
  have hheld := held_foldl_assigned (held_of_read h) steps
  generalize steps.foldl assigned s = t at hheld
  refine ⟨hheld.sound, ?_⟩
  rcases assign_cases t key v with ⟨w, s', hw, hassign, hs'⟩ | ⟨complaint, hassign, hnone⟩
  · refine Or.inr ⟨w, s', hw, hassign, ?_, (held_of_entries hheld hw hs').sound, hs'⟩
    simp only [assigned, hassign]
  · refine Or.inl ⟨complaint, hassign, hnone, ?_⟩
    simp only [assigned, hassign]

theorem sound_throughout_namespace : ∃ s, shape.read [(.text "php_binary", .text "php8.3")] = .ok s ∧
    Sound ([("model_namespace", .text "\\Domain\\Models\\"), ("artisan_timeout", .text "nan")].foldl assigned s) ∧
    ∀ w, ¬ Takes "backend" (.text "ftp") w := by
  refine ⟨_, rfl, ?_⟩
  obtain ⟨hsound, ⟨complaint, -, hnone, -⟩ | ⟨w, s', -, hassign, -⟩⟩ := @sound_throughout
    [(.text "php_binary", .text "php8.3")] _ rfl
    [("model_namespace", .text "\\Domain\\Models\\"), ("artisan_timeout", .text "nan")] "backend" (.text "ftp")
  · exact ⟨hsound, hnone⟩
  · cases hassign

end CrudScaffold.Settings
