import CrudScaffold.Proofs.Text.Cutting
import CrudScaffold.Spec.Field
import Mathlib.Data.List.Forall2

/-!
# CrudScaffold.Proofs.Spec.Fields — which field specs are read, and as what

`Declares token f` is the grammar of a token: a name before its first colon and a type after it.  A spec is read
exactly when its tokens declare fields with different names, and those are the fields (`readFields_ok_iff`).  If it is
not read, the fault is that of the first token that `Breaks` a rule, with the token and its position
(`readFields_error_iff`).  `parseFields_exact` states both for whole specs, and that fields which are written as
tokens and joined are read back.
-/

namespace CrudScaffold.Spec

open CrudScaffold.Text

/-! ### Tokens -/

/-- The halves of a token: what stands before its first colon, and what stands after it. -/
def Halves (token : String) (before after : List Char) : Prop := token.toList = before ++ ':' :: after ∧ ':' ∉ before

/-- The token declares the field: its halves, without the blanks around them, are the name and the type. -/
structure Declares (token : String) (f : Field) : Prop where
  halves : ∃ before after, Halves token before after ∧ f.name = String.ofList (trim before) ∧
    f.type = String.ofList (trim after)
  name : f.name ≠ ""
  type : f.type ≠ ""

/-- How a token breaks a rule, where `earlier` are the fields before it. -/
inductive Breaks (earlier : List Field) (token : String) : FieldFault → Prop
  | missingColon (h : ':' ∉ token.toList) : Breaks earlier token (.missingColon (earlier.length + 1) token)
  | emptyName {before after : List Char} (h : Halves token before after) (hname : ∀ c ∈ before, isBlank c = true) :
      Breaks earlier token (.emptyName (earlier.length + 1) token)
  | emptyType {before after : List Char} (h : Halves token before after) (hname : ∃ c ∈ before, isBlank c = false)
      (htype : ∀ c ∈ after, isBlank c = true) : Breaks earlier token (.emptyType (earlier.length + 1) token)
  /-- The name is that of an earlier field, for the first time at the position `i + 1`. -/
  | duplicate {f : Field} {i : Nat} (h : Declares token f) (hi : i < earlier.length) (hsame : earlier[i].name = f.name)
      (hfirst : ∀ j (hj : j < i), earlier[j].name ≠ f.name) :
      Breaks earlier token (.duplicate (earlier.length + 1) token f.name (i + 1))

/-- A fault names the token that breaks the rule and its position. -/
theorem Breaks.place {earlier : List Field} {token : String} {e : FieldFault} (h : Breaks earlier token e) :
    e.token = token ∧ e.position? = some (earlier.length + 1) := by
  cases h <;> exact ⟨rfl, rfl⟩

theorem isEmpty_ofList {cs : List Char} : (String.ofList cs).isEmpty = true ↔ cs = [] := by
  rw [String.isEmpty_iff, ← String.toList_inj, String.toList_ofList]
  rfl

theorem ofList_ne_empty {cs : List Char} : String.ofList cs ≠ "" ↔ cs ≠ [] := by
  rw [Ne, ← String.isEmpty_iff, isEmpty_ofList]

theorem halves_iff {token : String} {before after : List Char} :
    Halves token before after ↔ cutFirst ':' token.toList = some (before, after) :=
  cutFirst_eq_some_iff.symm

/-- A token declares a field with a new name, or it breaks a rule; that is what reading it tells. -/
theorem readField_cases (earlier : List Field) (token : String) :
    (∃ f, Declares token f ∧ (∀ g ∈ earlier, g.name ≠ f.name) ∧
      readField earlier (earlier.length + 1) token = .ok f) ∨
    ∃ e, Breaks earlier token e ∧ readField earlier (earlier.length + 1) token = .error e := by
  -- one check after the other: the colon, the name, the type, the names before it
  unfold readField
  cases hcut : cutFirst ':' token.toList with
  | none => exact Or.inr ⟨_, .missingColon (cutFirst_eq_none_iff.1 hcut), rfl⟩
  | some halves =>
    obtain ⟨before, after⟩ := halves
    have hhalves := halves_iff.2 hcut
    simp only [isEmpty_ofList]
    by_cases hname : trim before = []
    · exact Or.inr ⟨_, .emptyName hhalves (trim_eq_nil_iff.1 hname), by rw [if_pos hname]⟩
    by_cases htype : trim after = []
    · have hvisible : ∃ c ∈ before, isBlank c = false := by
        by_contra hall
        exact hname (trim_eq_nil_iff.2 fun c hc => by simpa using fun h => hall ⟨c, hc, h⟩)
      exact Or.inr ⟨_, .emptyType hhalves hvisible (trim_eq_nil_iff.1 htype), by rw [if_neg hname, if_pos htype]⟩
    rw [if_neg hname, if_neg htype]
    have hdeclares : Declares token ⟨String.ofList (trim before), String.ofList (trim after)⟩ :=
      ⟨⟨before, after, hhalves, rfl, rfl⟩, ofList_ne_empty.2 hname, ofList_ne_empty.2 htype⟩
    cases hfind : earlier.findIdx? (fun g => g.name = String.ofList (trim before)) with
    | none =>
      refine Or.inl ⟨_, hdeclares, fun g hg => ?_, rfl⟩
      simpa using List.findIdx?_eq_none_iff.1 hfind g hg
    | some i =>
      obtain ⟨hi, hsame, hfirst⟩ := List.findIdx?_eq_some_iff_getElem.1 hfind
      refine Or.inr ⟨_, .duplicate hdeclares hi (by simpa using hsame) fun j hj => ?_, rfl⟩
      simpa using hfirst j hj

theorem readField_of_declares {earlier : List Field} {token : String} {f : Field} (h : Declares token f)
    (hnew : ∀ g ∈ earlier, g.name ≠ f.name) (position : Nat) : readField earlier position token = .ok f := by
  obtain ⟨⟨before, after, hhalves, hname, htype⟩, hname', htype'⟩ := h
  rw [hname, ofList_ne_empty] at hname'
  rw [htype, ofList_ne_empty] at htype'
  have hfind : earlier.findIdx? (fun g => g.name = f.name) = none :=
    List.findIdx?_eq_none_iff.2 fun g hg => by simpa using hnew g hg
  rw [hname] at hfind
  simp only [readField, halves_iff.1 hhalves, isEmpty_ofList, hname', htype', if_false, hfind]
  cases f
  simp_all

theorem readField_of_breaks {earlier : List Field} {token : String} {e : FieldFault} (h : Breaks earlier token e) :
    readField earlier (earlier.length + 1) token = .error e := by
  cases h with
  | missingColon h => simp only [readField, cutFirst_eq_none_iff.2 h]
  | emptyName h hname =>
    simp only [readField, halves_iff.1 h, isEmpty_ofList, trim_eq_nil_iff.2 hname, if_true]
  | emptyType h hname htype =>
    obtain ⟨c, hc, hvisible⟩ := hname
    simp only [readField, halves_iff.1 h, isEmpty_ofList, trim_ne_nil hc hvisible, if_false, trim_eq_nil_iff.2 htype,
      if_true]
  | @duplicate f i h hi hsame hfirst =>
    obtain ⟨⟨before, after, hhalves, hname, htype⟩, hname', htype'⟩ := h
    rw [hname, ofList_ne_empty] at hname'
    rw [htype, ofList_ne_empty] at htype'
    have hfind : earlier.findIdx? (fun g => g.name = f.name) = some i :=
      List.findIdx?_eq_some_iff_getElem.2 ⟨hi, by simpa using hsame, fun j hj => by simpa using hfirst j hj⟩
    rw [hname] at hfind ⊢
    simp only [readField, halves_iff.1 hhalves, isEmpty_ofList, hname', htype', if_false, hfind]

/-! ### Specs -/

/-- The names of the fields are different from each other. -/
def Distinct (fields : List Field) : Prop := (fields.map Field.name).Nodup

instance (fields : List Field) : Decidable (Distinct fields) :=
  inferInstanceAs (Decidable (fields.map Field.name).Nodup)

theorem distinct_nil : Distinct [] := List.nodup_nil

theorem distinct_concat {fields : List Field} {f : Field} :
    Distinct (fields ++ [f]) ↔ Distinct fields ∧ ∀ g ∈ fields, g.name ≠ f.name := by
  simp [Distinct, List.nodup_append]

/-- The remaining tokens are read exactly when they declare fields that make the whole distinct.  The induction is on
the tokens; what has been read so far grows by one field with each of them. -/
theorem readFields_ok_iff {earlier : List Field} (hearlier : Distinct earlier) {ts : List String}
    {fields : List Field} :
    readFields earlier ts = .ok fields ↔
      ∃ new, fields = earlier ++ new ∧ List.Forall₂ Declares ts new ∧ Distinct fields := by
  -- the induction is on the tokens; the fields that have been read stand in front
  induction ts generalizing earlier with
  | nil =>
    constructor
    · intro h
      cases h
      exact ⟨[], (List.append_nil _).symm, .nil, hearlier⟩
    · rintro ⟨new, rfl, hdeclares, -⟩
      cases hdeclares
      rw [List.append_nil]
      rfl
  | cons t ts ih =>
    constructor
    · intro h
      rcases readField_cases earlier t with ⟨f, hf, hnew, hread⟩ | ⟨e, -, hread⟩
      · simp only [readFields, hread] at h
        obtain ⟨new, hfields, hdeclares, hdistinct⟩ := (ih (distinct_concat.2 ⟨hearlier, hnew⟩)).1 h
        exact ⟨f :: new, by rw [hfields, List.append_assoc]; rfl, .cons hf hdeclares, hdistinct⟩
      · simp only [readFields, hread] at h
        cases h
    · rintro ⟨new, rfl, hdeclares, hdistinct⟩
      cases hdeclares with
      | @cons _ f _ new hf hdeclares =>
        rw [List.append_cons] at hdistinct
        -- the field that is read next has a new name, since all names are distinct
        have hfirst : Distinct (earlier ++ [f]) := by
          rw [Distinct, List.map_append] at hdistinct
          exact (List.nodup_append.1 hdistinct).1
        have hrest := (ih hfirst).2 ⟨new, List.append_cons .., hdeclares, by rwa [List.append_cons]⟩
        simp only [readFields, readField_of_declares hf (distinct_concat.1 hfirst).2]
        exact hrest

/-- Reading fails exactly at the first token that breaks a rule. -/
theorem readFields_error_iff {earlier : List Field} {ts : List String} {e : FieldFault} :
    readFields earlier ts = .error e ↔ ∃ before token after fields, ts = before ++ token :: after ∧
      readFields earlier before = .ok fields ∧ Breaks fields token e := by
  induction ts generalizing earlier with
  | nil =>
    constructor
    · intro h
      cases h
    · rintro ⟨before, token, after, fields, h, -⟩
      cases before <;> cases h
  | cons t ts ih =>
    constructor
    · intro h
      -- the first token is at fault, or one behind it
      rcases readField_cases earlier t with ⟨f, -, -, hread⟩ | ⟨e', hbreaks, hread⟩
      · simp only [readFields, hread] at h
        obtain ⟨before, token, after, fields, rfl, hbefore, hbreaks⟩ := ih.1 h
        refine ⟨t :: before, token, after, fields, rfl, ?_, hbreaks⟩
        simp only [readFields, hread]
        exact hbefore
      · simp only [readFields, hread] at h
        cases h
        exact ⟨[], t, ts, earlier, rfl, rfl, hbreaks⟩
    · rintro ⟨before, token, after, fields, hts, hbefore, hbreaks⟩
      cases before with
      | nil =>
        obtain ⟨rfl, rfl⟩ := List.cons.inj hts
        cases hbefore
        simp only [readFields, readField_of_breaks hbreaks]
        rfl
      | cons t' before =>
        obtain ⟨rfl, rfl⟩ := List.cons.inj hts
        rcases readField_cases earlier t with ⟨f, -, -, hread⟩ | ⟨e', -, hread⟩
        · simp only [readFields, hread] at hbefore ⊢
          exact ih.2 ⟨before, token, after, fields, rfl, hbefore, hbreaks⟩
        · simp only [readFields, hread] at hbefore
          cases hbefore

/-- A token is made of characters of the spec other than the comma. -/
theorem mem_of_mem_tokens {spec token : String} (h : token ∈ tokens spec) {c : Char} (hc : c ∈ token.toList) :
    c ∈ spec.toList ∧ c ≠ ',' := by
  obtain ⟨piece, hpiece, rfl⟩ := List.mem_map.1 h
  rw [String.toList_ofList] at hc
  exact mem_of_mem_cutAll hpiece (mem_trim hc)

/-- A declared field is made of characters of its token. -/
theorem Declares.mem {token : String} {f : Field} (h : Declares token f) {c : Char}
    (hc : c ∈ f.name.toList ∨ c ∈ f.type.toList) : c ∈ token.toList := by
  obtain ⟨before, after, ⟨htoken, -⟩, hname, htype⟩ := h.halves
  rw [hname, htype, String.toList_ofList, String.toList_ofList] at hc
  rw [htoken, List.mem_append]
  exact hc.imp mem_trim fun hc => List.mem_cons_of_mem _ (mem_trim hc)

theorem exists_declares {ts : List String} {fields : List Field} (h : List.Forall₂ Declares ts fields) {f : Field}
    (hf : f ∈ fields) : ∃ t ∈ ts, Declares t f := by
  induction h with
  | nil => cases hf
  | cons hdeclares _ ih =>
    rcases List.mem_cons.1 hf with rfl | hf
    · exact ⟨_, List.mem_cons_self, hdeclares⟩
    · obtain ⟨t, ht, h⟩ := ih hf
      exact ⟨t, List.mem_cons_of_mem _ ht, h⟩

/-! ### Written fields -/

/-- A token that is not empty shows that the spec is not blank. -/
theorem isAllBlank_of_mem_tokens {spec token : String} (h : token ∈ tokens spec) (hne : token ≠ "") :
    isAllBlank spec = false := by
  obtain ⟨piece, hpiece, rfl⟩ := List.mem_map.1 h
  rw [ofList_ne_empty] at hne
  by_contra hblank
  have hall : ∀ c ∈ spec.toList, isBlank c = true := by simpa [isAllBlank] using hblank
  exact hne (trim_eq_nil_iff.2 fun c hc => hall c (mem_of_mem_cutAll hpiece hc).1)

/-- A field as a token of a spec. -/
def Field.written (f : Field) : String := f.name ++ ":" ++ f.type

/-- Fields as a spec. -/
def writtenFields (fields : List Field) : String := ",".intercalate (fields.map Field.written)

/-- A field that can stand in a spec: its parts are not empty and have no blanks at their ends, no comma is in them,
and no colon is in the name. -/
structure Field.Writable (f : Field) : Prop where
  name_ne : f.name ≠ ""
  type_ne : f.type ≠ ""
  name_strip : strip f.name = f.name
  type_strip : strip f.type = f.type
  name_comma : ',' ∉ f.name.toList
  type_comma : ',' ∉ f.type.toList
  name_colon : ':' ∉ f.name.toList

theorem Field.toList_written (f : Field) : f.written.toList = f.name.toList ++ ':' :: f.type.toList := by
  simp [Field.written]

theorem Field.Writable.strip_written {f : Field} (h : f.Writable) : strip f.written = f.written := by
  rw [strip_eq_self_iff, f.toList_written]
  have hne : ∀ s : String, s ≠ "" → s.toList ≠ [] := fun s hs he => hs (String.toList_eq_nil_iff.1 he)
  have := trim_append_append [':'] (strip_eq_self_iff.1 h.name_strip) (hne _ h.name_ne)
    (strip_eq_self_iff.1 h.type_strip) (hne _ h.type_ne)
  simpa using this

theorem Field.Writable.comma_notMem {f : Field} (h : f.Writable) : ',' ∉ f.written.toList := by
  rw [f.toList_written]
  simp [h.name_comma, h.type_comma]

theorem Field.Writable.declares {f : Field} (h : f.Writable) : Declares f.written f where
  halves := ⟨f.name.toList, f.type.toList, ⟨f.toList_written, h.name_colon⟩, h.name_strip.symm, h.type_strip.symm⟩
  name := h.name_ne
  type := h.type_ne

theorem tokens_writtenFields {fields : List Field} (hne : fields ≠ []) (h : ∀ f ∈ fields, f.Writable) :
    tokens (writtenFields fields) = fields.map Field.written := by
  refine map_trim_cutAll_intercalate ',' (by simpa using hne) (fun s hs => ?_) fun s hs => ?_
  · obtain ⟨f, hf, rfl⟩ := List.mem_map.1 hs
    exact (h f hf).comma_notMem
  · obtain ⟨f, hf, rfl⟩ := List.mem_map.1 hs
    exact (h f hf).strip_written

/-! ### Reading a spec -/

theorem parseFields_of_blank {spec : Option String} (h : isAllBlank (spec.getD "") = true) :
    parseFields spec = .error (.emptySpec (spec.getD "")) := by
  rw [parseFields, if_pos h]

theorem parseFields_of_not_blank {spec : Option String} (h : isAllBlank (spec.getD "") = false) :
    parseFields spec = readFields [] (tokens (spec.getD "")) := by
  rw [parseFields, if_neg (by rw [h]; exact Bool.false_ne_true)]

theorem parseFields_ok_iff {spec : Option String} {fields : List Field} :
    parseFields spec = .ok fields ↔ isAllBlank (spec.getD "") = false ∧
      List.Forall₂ Declares (tokens (spec.getD "")) fields ∧ Distinct fields := by
  cases hblank : isAllBlank (spec.getD "") with
  | true => simp [parseFields_of_blank hblank]
  | false =>
    rw [parseFields_of_not_blank hblank, readFields_ok_iff distinct_nil]
    constructor
    · rintro ⟨new, rfl, hdeclares, hdistinct⟩
      exact ⟨rfl, hdeclares, hdistinct⟩
    · rintro ⟨-, hdeclares, hdistinct⟩
      exact ⟨fields, rfl, hdeclares, hdistinct⟩

/-- The fields that are read are made of characters of the spec. -/
theorem mem_of_parseFields {spec : Option String} {fields : List Field} (h : parseFields spec = .ok fields) {f : Field}
    (hf : f ∈ fields) {c : Char} (hc : c ∈ f.name.toList ∨ c ∈ f.type.toList) : c ∈ (spec.getD "").toList := by
  obtain ⟨-, hdeclares, -⟩ := parseFields_ok_iff.1 h
  obtain ⟨token, htoken, hdeclares⟩ := exists_declares hdeclares hf
  exact (mem_of_mem_tokens htoken (hdeclares.mem hc)).1

/-- A spec is not read because it is blank, or because of the first token that breaks a rule. -/
theorem parseFields_error_iff {spec : Option String} {e : FieldFault} :
    parseFields spec = .error e ↔
      (isAllBlank (spec.getD "") = true ∧ e = .emptySpec (spec.getD "")) ∨
      (isAllBlank (spec.getD "") = false ∧ ∃ before token after fields,
        tokens (spec.getD "") = before ++ token :: after ∧ List.Forall₂ Declares before fields ∧ Distinct fields ∧
        Breaks fields token e) := by
  cases hblank : isAllBlank (spec.getD "") with
  | true => simp [parseFields_of_blank hblank, eq_comm]
  | false =>
    rw [parseFields_of_not_blank hblank, readFields_error_iff]
    -- what has been read before the fault is what its tokens declare
    have hread : ∀ before fields, readFields [] before = .ok fields ↔
        List.Forall₂ Declares before fields ∧ Distinct fields := fun before fields => by
      rw [readFields_ok_iff distinct_nil]
      exact ⟨fun ⟨_, hnew, h⟩ => by rwa [hnew] at *, fun h => ⟨fields, rfl, h⟩⟩
    constructor
    · rintro ⟨before, token, after, fields, htokens, hbefore, hbreaks⟩
      obtain ⟨hdeclares, hdistinct⟩ := (hread before fields).1 hbefore
      exact Or.inr ⟨rfl, before, token, after, fields, htokens, hdeclares, hdistinct, hbreaks⟩
    · rintro (⟨h, -⟩ | ⟨-, before, token, after, fields, htokens, hdeclares, hdistinct, hbreaks⟩)
      · cases h
      · exact ⟨before, token, after, fields, htokens, (hread before fields).2 ⟨hdeclares, hdistinct⟩, hbreaks⟩

/-- A spec is read exactly when it is not blank and its tokens declare fields with different names, and those are the
fields, in order.  Otherwise the fault is that of a blank spec, or of the first token that breaks a rule, with the
token and its position.  Fields that can stand in a spec are read back from it. -/
theorem parseFields_exact :
    (∀ (spec : Option String) (fields : List Field), parseFields spec = .ok fields ↔
      isAllBlank (spec.getD "") = false ∧ List.Forall₂ Declares (tokens (spec.getD "")) fields ∧ Distinct fields) ∧
    (∀ (spec : Option String) (e : FieldFault), parseFields spec = .error e ↔
      (isAllBlank (spec.getD "") = true ∧ e = .emptySpec (spec.getD "")) ∨
      (isAllBlank (spec.getD "") = false ∧ ∃ before token after fields,
        tokens (spec.getD "") = before ++ token :: after ∧ List.Forall₂ Declares before fields ∧ Distinct fields ∧
        Breaks fields token e ∧ e.token = token ∧ e.position? = some (before.length + 1))) ∧
    ∀ fields : List Field, fields ≠ [] → (∀ f ∈ fields, f.Writable) → Distinct fields →
      parseFields (some (writtenFields fields)) = .ok fields := by
  refine ⟨fun spec fields => parseFields_ok_iff, fun spec e => parseFields_error_iff.trans ?_, ?_⟩
  · refine or_congr_right (and_congr_right fun _ => ?_)
    constructor
    · rintro ⟨before, token, after, fields, htokens, hdeclares, hdistinct, hbreaks⟩
      obtain ⟨htoken, hposition⟩ := hbreaks.place
      exact ⟨before, token, after, fields, htokens, hdeclares, hdistinct, hbreaks, htoken,
        by rw [hposition, hdeclares.length_eq]⟩
    · rintro ⟨before, token, after, fields, htokens, hdeclares, hdistinct, hbreaks, -⟩
      exact ⟨before, token, after, fields, htokens, hdeclares, hdistinct, hbreaks⟩
  · intro fields hne hwritable hdistinct
    have htokens := tokens_writtenFields hne hwritable
    have hdeclares : List.Forall₂ Declares (tokens (writtenFields fields)) fields := by
      rw [htokens, List.forall₂_map_left_iff, List.forall₂_same]
      exact fun f hf => (hwritable f hf).declares
    refine parseFields_ok_iff.2 ⟨?_, hdeclares, hdistinct⟩
    obtain ⟨f, hf⟩ := List.exists_mem_of_ne_nil fields hne
    -- the written spec has a token that is not blank
    have hmem : f.written ∈ tokens (writtenFields fields) := htokens ▸ List.mem_map_of_mem hf
    refine isAllBlank_of_mem_tokens hmem fun hempty => ?_
    have hlist := f.toList_written
    rw [hempty] at hlist
    simp at hlist

/-- Two fields, the type of the second with a colon and a blank in it, and a spec whose third token is a duplicate. -/
theorem parseFields_exact_post :
    parseFields (some (writtenFields [⟨"title", "string"⟩, ⟨"body", "a: b"⟩])) =
      .ok [⟨"title", "string"⟩, ⟨"body", "a: b"⟩] ∧
    parseFields (some " a : b:c , d:e,a:f") = .error (.duplicate 3 "a:f" "a" 1) := by
  refine ⟨parseFields_exact.2.2 _ (by decide) (fun f hf => ?_) (by decide), ?_⟩
  · have hcases : f = ⟨"title", "string"⟩ ∨ f = ⟨"body", "a: b"⟩ := by simpa using hf
    rcases hcases with rfl | rfl <;>
      exact ⟨by decide, by decide, by decide, by decide, by decide, by decide, by decide⟩
  · refine (parseFields_exact.2.1 _ _).2 (Or.inr ⟨by decide, ["a : b:c", "d:e"], "a:f", [],
      [⟨"a", "b:c"⟩, ⟨"d", "e"⟩], by decide, ?_, by decide, ?_, by decide, by decide⟩)
    · exact .cons ⟨⟨['a', ' '], " b:c".toList, ⟨by decide, by decide⟩, by decide, by decide⟩, by decide, by decide⟩
        (.cons ⟨⟨['d'], ['e'], ⟨by decide, by decide⟩, by decide, by decide⟩, by decide, by decide⟩ .nil)
    · exact .duplicate (f := ⟨"a", "f"⟩) ⟨⟨['a'], ['f'], ⟨by decide, by decide⟩, by decide, by decide⟩, by decide,
        by decide⟩ (by decide) (by decide) fun j hj => absurd hj (Nat.not_lt_zero j)

end CrudScaffold.Spec
