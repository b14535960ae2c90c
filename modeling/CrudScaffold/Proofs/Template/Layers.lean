import CrudScaffold.Proofs.Files.Reading
import CrudScaffold.Template.Store

/-!
# CrudScaffold.Proofs.Template.Layers — which layer supplies a template

A layer has a template as soon as it has an entry or a file for it; it supplies the template only if the file is text
in UTF-8.  A layer that has the template and cannot supply it is `Garbled`, and is passed over like a layer that does
not have it.  So one layer does one of four things (`find_cases`), and a stack of layers supplies the template of the
first layer that is neither without it nor garbled (`findIn_ok_iff`).
-/

namespace CrudScaffold.Template

open CrudScaffold.Files CrudScaffold.Text

variable {v : View} {name text : String} {l : Layer} {ls : List Layer} {searched : List String}

/-! ### What one layer can say -/

/-- The text is the layer's own template: its entry, or its file with unified line ends. -/
def Layer.Holds (v : View) (name text : String) : Layer → Prop
  | .memory templates => templates.lookup name = some text
  | .directory path fileNames => ∃ s : String,
    look v.tree v.cwd (fileOf path fileNames name) = .ok (some (.file s.toUTF8)) ∧
      text = String.ofList (unifyLineEnds s.toList)

/-- The layer has a file for the template, and its bytes are no text. -/
def Layer.Garbled (v : View) (name : String) : Layer → Prop
  | .memory _ => False
  | .directory path fileNames => ∃ content,
    look v.tree v.cwd (fileOf path fileNames name) = .ok (some (.file content)) ∧ ¬ IsText content

/-- Where the layer looks for a template. -/
def Layer.place (name : String) : Layer → String
  | .memory _ => "<builtin>"
  | .directory path fileNames => (fileOf path fileNames name).toString

theorem lookup_eq_none_iff (templates : List (String × String)) :
    templates.lookup name = none ↔ templates.any (·.1 = name) = false := by
  induction templates with
  | nil => simp
  | cons e es ih =>
    rw [List.lookup_cons, List.any_cons]
    by_cases hkey : name = e.1
    · simp [hkey]
    · rw [beq_false_of_ne hkey, decide_eq_false (Ne.symm hkey), Bool.false_or, ih]

/-- The text of a layer's own template is determined. -/
theorem Layer.Holds.unique {text' : String} (h : l.Holds v name text) (h' : l.Holds v name text') : text = text' := by
  cases l with
  | memory templates => exact Option.some.inj (Eq.trans (Eq.symm h) h')
  | directory path fileNames =>
    obtain ⟨s, hlook, rfl⟩ := h
    obtain ⟨s', hlook', rfl⟩ := h'
    have hbytes : s.toUTF8 = s'.toUTF8 := by simpa using hlook.symm.trans hlook'
    have hread : (.ok s : Except Utf8.Fault String) = .ok s' := by rw [← decode_toUTF8 s, hbytes, decode_toUTF8]
    rw [Except.ok.inj hread]

theorem Layer.Garbled.not_holds (h : l.Garbled v name) : ¬ l.Holds v name text := by
  intro hheld
  cases l with
  | memory templates => exact h
  | directory path fileNames =>
    obtain ⟨content, hlook, hno⟩ := h
    obtain ⟨s, hlook', -⟩ := hheld
    have hbytes : content = s.toUTF8 := by simpa using hlook.symm.trans hlook'
    exact hno ⟨s, hbytes⟩

theorem Layer.Holds.has (h : l.Holds v name text) : l.has v name = .ok true := by
  cases l with
  | memory templates =>
    have hentry : templates.any (·.1 = name) = true := by
      by_contra hno
      have hmissing := (lookup_eq_none_iff templates).2 (Bool.eq_false_iff.2 hno)
      exact Option.some_ne_none text (Eq.trans (Eq.symm h) hmissing)
    exact congrArg Except.ok hentry
  | directory path fileNames =>
    obtain ⟨s, hlook, -⟩ := h
    rw [Layer.has, isFile_iff.2 ⟨_, hlook⟩]
    rfl

theorem Layer.Garbled.has (h : l.Garbled v name) : l.has v name = .ok true := by
  cases l with
  | memory templates => exact h.elim
  | directory path fileNames =>
    obtain ⟨content, hlook, -⟩ := h
    rw [Layer.has, isFile_iff.2 ⟨_, hlook⟩]
    rfl

/-- A layer supplies its own template. -/
theorem Layer.Holds.find (h : l.Holds v name text) : l.find v name = .ok (.ok text) := by
  cases l with
  | memory templates => rw [Layer.find, show templates.lookup name = some text from h]
  | directory path fileNames =>
    obtain ⟨s, hlook, rfl⟩ := h
    have hread := readText_of_look hlook
    rw [decode_toUTF8] at hread
    simp only [Layer.find, isFile_iff.2 ⟨_, hlook⟩, letThrough, hread, bind, Except.bind, pure, Except.pure, if_true]

/-- A garbled template is passed over, with its file and the fault as the place. -/
theorem Layer.Garbled.find (h : l.Garbled v name) : ∃ fault, l.find v name = .ok (.error [l.place name ++ fault]) := by
  cases l with
  | memory templates => exact h.elim
  | directory path fileNames =>
    obtain ⟨content, hlook, hno⟩ := h
    obtain ⟨f, hread⟩ := (readText_error_iff hlook).2 hno
    refine ⟨" (" ++ f.message ++ ")", ?_⟩
    simp only [Layer.find, Layer.place, isFile_iff.2 ⟨_, hlook⟩, letThrough, hread, readFaultText, bind, Except.bind,
      pure, Except.pure, if_true, String.append_assoc]

theorem find_of_has_false (h : l.has v name = .ok false) : l.find v name = .ok (.error [l.place name]) := by
  cases l with
  | memory templates =>
    have hmissing := (lookup_eq_none_iff templates).2 (Except.ok.inj h)
    rw [Layer.find, hmissing]
    rfl
  | directory path fileNames =>
    simp only [Layer.find, show letThrough (isFile v.tree v.cwd (fileOf path fileNames name)) = .ok false from h, bind,
      Except.bind, pure, Except.pure, Bool.false_eq_true, if_false]
    rfl

theorem find_of_has_error {f : Fault} (h : l.has v name = .error f) : l.find v name = .error f := by
  cases l with
  | memory templates => cases h
  | directory path fileNames =>
    simp only [Layer.find, show letThrough (isFile v.tree v.cwd (fileOf path fileNames name)) = .error f from h, bind,
      Except.bind]

/-- A layer that has the template holds its text, or is garbled. -/
theorem has_true_iff : l.has v name = .ok true ↔ (∃ text, l.Holds v name text) ∨ l.Garbled v name := by
  constructor
  · intro h
    cases l with
    | memory templates =>
      left
      refine Option.ne_none_iff_exists'.1 fun hnone => ?_
      rw [Layer.has, (lookup_eq_none_iff templates).1 hnone] at h
      cases h
    | directory path fileNames =>
      obtain ⟨content, hlook⟩ := isFile_iff.1 (letThrough_ok_iff.1 h)
      -- the bytes of the file are a text, or they are not
      by_cases htext : IsText content
      · obtain ⟨s, rfl⟩ := htext
        exact Or.inl ⟨_, s, hlook, rfl⟩
      · exact Or.inr ⟨content, hlook, htext⟩
  · rintro (⟨text, h⟩ | h)
    · exact h.has
    · exact h.has

/-- What one layer does: it cannot be asked, it does not have the template, it supplies it, or it is garbled. -/
theorem find_cases (v : View) (name : String) (l : Layer) :
    (∃ f, l.has v name = .error f) ∨ l.has v name = .ok false ∨ (∃ text, l.Holds v name text) ∨ l.Garbled v name := by
  cases h : l.has v name with
  | error f => exact Or.inl ⟨f, rfl⟩
  | ok has =>
    cases has with
    | false => exact Or.inr (Or.inl rfl)
    | true => exact Or.inr (Or.inr (has_true_iff.1 h))

/-- The layer does not have the template or cannot supply it. -/
def Layer.Passes (v : View) (name : String) (l : Layer) : Prop := l.has v name = .ok false ∨ l.Garbled v name

theorem Layer.Passes.find (h : l.Passes v name) : ∃ places, l.find v name = .ok (.error places) := by
  rcases h with h | h
  · exact ⟨_, find_of_has_false h⟩
  · obtain ⟨fault, hfind⟩ := h.find
    exact ⟨_, hfind⟩

theorem Layer.Passes.not_holds (h : l.Passes v name) : ¬ l.Holds v name text := by
  rcases h with h | h
  · intro hheld
    rw [hheld.has] at h
    cases h
  · exact h.not_holds

/-! ### A stack of layers -/

theorem findIn_cons_of_passes (h : l.Passes v name) (searched : List String) (ls : List Layer) :
    ∃ places, findIn v name searched (l :: ls) = findIn v name (searched ++ places) ls := by
  obtain ⟨places, hfind⟩ := h.find
  exact ⟨places, by simp only [findIn, hfind, bind, Except.bind]⟩

theorem findIn_cons_of_holds (h : l.Holds v name text) : findIn v name searched (l :: ls) = .ok (.ok text) := by
  simp only [findIn, h.find, bind, Except.bind]
  rfl

/-- A stack supplies the template of the first layer that is not passed over. -/
theorem findIn_ok_iff : findIn v name searched ls = .ok (.ok text) ↔
    ∃ before l after, ls = before ++ l :: after ∧ (∀ b ∈ before, b.Passes v name) ∧ l.Holds v name text := by
  -- the layers that are passed over stand in front of the one that answers
  induction ls generalizing searched with
  | nil => simp [findIn]
  | cons l ls ih =>
    simp only [List.cons_eq_append_iff]
    by_cases hpasses : l.Passes v name
    · obtain ⟨places, hstep⟩ := findIn_cons_of_passes hpasses searched ls
      rw [hstep, ih]
      constructor
      · rintro ⟨before, l', after, rfl, hbefore, hheld⟩
        exact ⟨l :: before, l', after, Or.inr ⟨before, rfl, rfl⟩, List.forall_mem_cons.2 ⟨hpasses, hbefore⟩, hheld⟩
      · rintro ⟨before, l', after, ⟨rfl, heq⟩ | ⟨rest, rfl, rfl⟩, hbefore, hheld⟩
        · obtain ⟨rfl, rfl⟩ := List.cons.inj heq
          exact absurd hheld hpasses.not_holds
        · exact ⟨rest, l', after, rfl, (List.forall_mem_cons.1 hbefore).2, hheld⟩
    · -- this layer answers, or lets the search fail
      constructor
      · intro h
        rcases find_cases v name l with ⟨f, herror⟩ | hmissing | ⟨own, hheld⟩ | hgarbled
        · simp only [findIn, find_of_has_error herror, bind, Except.bind] at h
          cases h
        · exact absurd (Or.inl hmissing) hpasses
        · rw [findIn_cons_of_holds hheld] at h
          cases h
          exact ⟨[], l, ls, Or.inl ⟨rfl, rfl⟩, List.forall_mem_nil _, hheld⟩
        · exact absurd (Or.inr hgarbled) hpasses
      · rintro ⟨before, l', after, ⟨rfl, heq⟩ | ⟨rest, rfl, -⟩, hbefore, hheld⟩
        · obtain ⟨rfl, rfl⟩ := List.cons.inj heq
          exact findIn_cons_of_holds hheld
        · exact absurd (List.forall_mem_cons.1 hbefore).1 hpasses

theorem findIn_of_missing (h : ∀ l ∈ ls, l.has v name = .ok false) :
    findIn v name searched ls = .ok (.error (searched ++ ls.map (Layer.place name))) := by
  induction ls generalizing searched with
  | nil => simp [findIn]
  | cons l ls ih =>
    obtain ⟨hl, hls⟩ := List.forall_mem_cons.1 h
    simp only [findIn, find_of_has_false hl, bind, Except.bind, ih hls, List.map_cons, List.append_assoc,
      List.singleton_append]

/-- The stack has a template if some layer has it and those before it can be asked. -/
theorem hasIn_true_iff : hasIn v name ls = .ok true ↔
    ∃ before l after, ls = before ++ l :: after ∧ (∀ b ∈ before, b.has v name = .ok false) ∧ l.has v name = .ok true := by
  induction ls with
  | nil => simp [hasIn]
  | cons l ls ih =>
    simp only [List.cons_eq_append_iff]
    -- the first layer cannot be asked, has no such template, or has it
    rcases hl : l.has v name with f | _ | _
    · simp only [hasIn, hl, bind, Except.bind, reduceCtorEq, false_iff]
      rintro ⟨before, l', after, ⟨rfl, heq⟩ | ⟨rest, rfl, -⟩, hbefore, hhas⟩
      · obtain ⟨rfl, rfl⟩ := List.cons.inj heq
        rw [hl] at hhas
        cases hhas
      · have hfirst := (List.forall_mem_cons.1 hbefore).1
        rw [hl] at hfirst
        cases hfirst
    · simp only [hasIn, hl, bind, Except.bind, Bool.false_eq_true, if_false, ih]
      constructor
      · rintro ⟨before, l', after, rfl, hbefore, hhas⟩
        exact ⟨l :: before, l', after, Or.inr ⟨before, rfl, rfl⟩, List.forall_mem_cons.2 ⟨hl, hbefore⟩, hhas⟩
      · rintro ⟨before, l', after, ⟨rfl, heq⟩ | ⟨rest, rfl, rfl⟩, hbefore, hhas⟩
        · obtain ⟨rfl, rfl⟩ := List.cons.inj heq
          rw [hl] at hhas
          cases hhas
        · exact ⟨rest, l', after, rfl, (List.forall_mem_cons.1 hbefore).2, hhas⟩
    · simp only [hasIn, hl, bind, Except.bind, pure, Except.pure, if_true, true_iff]
      exact ⟨[], l, ls, Or.inl ⟨rfl, rfl⟩, List.forall_mem_nil _, hl⟩

theorem get_layered_iff : (Store.layered ls).get v name = .ok text ↔ findIn v name [] ls = .ok (.ok text) := by
  simp only [Store.get, bind, Except.bind]
  rcases findIn v name [] ls with f | places | found <;>
    simp [pure, Except.pure, throw, throwThe, MonadExceptOf.throw]

/-- Behind layers without the template, a garbled layer leaves the answer to those after it. -/
theorem get_of_garbled {before after : List Layer} (hbefore : ∀ b ∈ before, b.has v name = .ok false)
    (hl : l.Garbled v name) : (Store.layered (before ++ l :: after)).get v name = .ok text ↔
      (Store.layered after).get v name = .ok text := by
  have hpass : ∀ searched, ∃ places,
      findIn v name searched (before ++ l :: after) = findIn v name (searched ++ places) after := by
    induction before with
    | nil => exact fun searched => findIn_cons_of_passes (Or.inr hl) searched after
    | cons b bs ih =>
      obtain ⟨hb, hbs⟩ := List.forall_mem_cons.1 hbefore
      intro searched
      obtain ⟨first, hfirst⟩ := findIn_cons_of_passes (Or.inl hb) searched (bs ++ l :: after)
      obtain ⟨rest, hrest⟩ := ih hbs (searched ++ first)
      exact ⟨first ++ rest, by rw [List.cons_append, hfirst, hrest, List.append_assoc]⟩
  obtain ⟨places, hsearch⟩ := hpass []
  rw [get_layered_iff, get_layered_iff, hsearch, findIn_ok_iff, findIn_ok_iff]

theorem has_of_get (h : (Store.layered ls).get v name = .ok text) : (Store.layered ls).has v name = .ok true := by
  obtain ⟨before, l, after, rfl, hbefore, hheld⟩ := findIn_ok_iff.1 (get_layered_iff.1 h)
  clear h
  induction before with
  | nil => exact hasIn_true_iff.2 ⟨[], l, after, rfl, List.forall_mem_nil _, hheld.has⟩
  | cons b bs ih =>
    obtain ⟨hb | hb, hbs⟩ := List.forall_mem_cons.1 hbefore
    · obtain ⟨front, m, back, heq, hfront, hm⟩ := hasIn_true_iff.1 (ih hbs)
      exact hasIn_true_iff.2 ⟨b :: front, m, back, congrArg (b :: ·) heq, List.forall_mem_cons.2 ⟨hb, hfront⟩, hm⟩
    · exact hasIn_true_iff.2 ⟨[], b, _, rfl, List.forall_mem_nil _, hb.has⟩

/-- **The first layer that has a template supplies it, unless it is garbled**: then the layers behind it are asked,
though the stack says that it has the template.  A template that no layer has is refused with the place of each. -/
theorem get_of_layers (v : View) (name : String) (ls : List Layer) :
    (∀ before l after, ls = before ++ l :: after → (∀ b ∈ before, b.has v name = .ok false) →
      l.has v name = .ok true →
      (¬ l.Garbled v name → ∃ text, l.Holds v name text ∧ (Store.layered ls).get v name = .ok text) ∧
      (l.Garbled v name → ∀ text,
        (Store.layered ls).get v name = .ok text ↔ (Store.layered after).get v name = .ok text)) ∧
    ((∀ l ∈ ls, l.has v name = .ok false) →
      (Store.layered ls).get v name = .error (.failure (.noTemplate name (ls.map (Layer.place name))))) ∧
    ((∃ text, (Store.layered ls).get v name = .ok text) ↔ (Store.layered ls).has v name = .ok true ∧
      ∃ before l after, ls = before ++ l :: after ∧
        (∀ b ∈ before, b.has v name = .ok false ∨ b.Garbled v name) ∧ ∃ text, l.Holds v name text) ∧
    ((∀ l ∈ ls, ¬ l.Garbled v name) →
      ((Store.layered ls).has v name = .ok true ↔ ∃ text, (Store.layered ls).get v name = .ok text)) := by
  -- the first layer that is not passed over supplies the text
  have hsupplied : ∀ before l after text, ls = before ++ l :: after → (∀ b ∈ before, b.Passes v name) →
      l.Holds v name text → (Store.layered ls).get v name = .ok text :=
    fun before l after text hls hbefore hheld =>
      get_layered_iff.2 (findIn_ok_iff.2 ⟨before, l, after, hls, hbefore, hheld⟩)
  refine ⟨?_, ?_, ?_, ?_⟩
  · rintro before l after rfl hbefore hhas
    refine ⟨fun hclean => ?_, fun hgarbled text => get_of_garbled hbefore hgarbled⟩
    obtain ⟨text, hheld⟩ := (has_true_iff.1 hhas).resolve_right hclean
    exact ⟨text, hheld, hsupplied before l after text rfl (fun b hb => Or.inl (hbefore b hb)) hheld⟩
  · intro hmissing
    simp only [Store.get, findIn_of_missing hmissing, bind, Except.bind, List.nil_append]
    rfl
  · constructor
    · rintro ⟨text, h⟩
      obtain ⟨before, l, after, hls, hbefore, hheld⟩ := findIn_ok_iff.1 (get_layered_iff.1 h)
      exact ⟨has_of_get h, before, l, after, hls, hbefore, text, hheld⟩
    · rintro ⟨-, before, l, after, hls, hbefore, text, hheld⟩
      exact ⟨text, hsupplied before l after text hls hbefore hheld⟩
  · intro hclean
    refine ⟨fun h => ?_, fun ⟨_, h⟩ => has_of_get h⟩
    obtain ⟨before, l, after, rfl, hbefore, hhas⟩ := hasIn_true_iff.1 h
    obtain ⟨text, hheld⟩ := (has_true_iff.1 hhas).resolve_right (hclean l (by simp))
    exact ⟨text, hsupplied before l after text rfl (fun b hb => Or.inl (hbefore b hb)) hheld⟩

/-- A template file whose one byte starts no character. -/
def garbledView : View where
  tree := (Tree.empty.put ["stubs"] .directory).put ["stubs", "model.stub"] (.file ⟨#[0xff]⟩)
  cwd := []

/-- The layer of this file. -/
def garbledLayer : Layer := .ofDirectory (Path.ofString "stubs")

/-- The packaged controller stands behind a directory that has only a garbled model. -/
theorem get_of_layers_controller :
    (Store.layered [garbledLayer, .packaged]).get garbledView "controller" = .ok TemplateName.controller.packaged := by
  have hmissing : garbledLayer.has garbledView "controller" = .ok false := by rfl
  have hhas : Layer.packaged.has garbledView "controller" = .ok true := by rfl
  obtain ⟨text, hheld, hget⟩ := ((get_of_layers garbledView "controller" [garbledLayer, .packaged]).1
    [garbledLayer] .packaged [] rfl (by simpa using hmissing) hhas).1 id
  rw [hget, hheld.unique (show Layer.packaged.Holds garbledView "controller" _ from rfl)]

/-- A file that is no text: the first layer has the model, the packaged one behind it supplies it, and alone the layer
supplies nothing. -/
theorem not_get_of_first_layer :
    garbledLayer.has garbledView "model" = .ok true ∧
    (∀ text, (Store.single garbledLayer).get garbledView "model" ≠ .ok text) ∧
    (Store.layered [garbledLayer, .packaged]).get garbledView "model" = .ok TemplateName.model.packaged ∧
    (Store.layered [garbledLayer]).has garbledView "model" = .ok true ∧
    ∀ text, (Store.layered [garbledLayer]).get garbledView "model" ≠ .ok text := by
  have hgarbled : garbledLayer.Garbled garbledView "model" := ⟨⟨#[0xff]⟩, rfl, decode_error_iff.1 ⟨_, rfl⟩⟩
  obtain ⟨fault, hfind⟩ := hgarbled.find
  refine ⟨hgarbled.has, fun text h => ?_, rfl, by rfl, fun text h => ?_⟩
  · simp only [Store.get, hfind, bind, Except.bind] at h
    cases h
  · simp only [get_layered_iff, findIn, hfind, bind, Except.bind] at h
    cases h

end CrudScaffold.Template
