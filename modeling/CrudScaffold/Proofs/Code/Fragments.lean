import CrudScaffold.Code.Rules
import CrudScaffold.Proofs.Spec.Relations
import CrudScaffold.Proofs.Text.Braces

/-!
# CrudScaffold.Proofs.Code.Fragments — what the pieces of generated code are made of

A literal adds delimiters and backslashes to its text, a rule set has one rule of each field name, and the methods of
relations are the only pieces with braces of their own.  So pieces made from texts without opening braces are tidy:
the lists of fields and rules have none (`braceless_fillableList`, `braceless_columnCalls`, `braceless_rules`), and in
the methods each ends its line (`tidy_relationMethods`).
-/

namespace CrudScaffold.Code

open CrudScaffold.Naming CrudScaffold.Spec CrudScaffold.Text

/-! ### Literals -/

theorem mem_replaceFrom {part by_ cs : List Char} {skip : Nat} {c : Char} (h : c ∈ replaceFrom part by_ skip cs) :
    c ∈ by_ ∨ c ∈ cs := by
  induction cs generalizing skip with
  | nil => cases skip <;> cases h
  | cons d cs ih =>
    cases skip with
    | succ skip => exact (ih h).imp_right (List.mem_cons_of_mem _)
    | zero =>
      rw [replaceFrom] at h
      split at h
      · -- the part stands here and is replaced, or the character stays
        rcases List.mem_append.1 h with h | h
        · exact Or.inl h
        · exact (ih h).imp_right (List.mem_cons_of_mem _)
      · rcases List.mem_cons.1 h with rfl | h
        · exact Or.inr List.mem_cons_self
        · exact (ih h).imp_right (List.mem_cons_of_mem _)

theorem mem_replaceAll {part by_ cs : List Char} {c : Char} (h : c ∈ replaceAll part by_ cs) : c ∈ by_ ∨ c ∈ cs := by
  unfold replaceAll at h
  split at h
  · rcases List.mem_append.1 h with h | h
    · exact Or.inl h
    · obtain ⟨d, hd, h⟩ := List.mem_flatMap.1 h
      rcases List.mem_cons.1 h with rfl | h
      · exact Or.inr hd
      · exact Or.inl h
  · exact mem_replaceFrom h

theorem mem_literalWith {delimiter value : List Char} {c : Char} (h : c ∈ literalWith delimiter value) :
    c ∈ value ∨ c ∈ delimiter ∨ c = '\\' := by
  rw [literalWith, List.mem_append, List.mem_append] at h
  rcases h with (h | h) | h
  · exact Or.inr (Or.inl h)
  · rcases mem_replaceAll h with h | h
    · exact Or.inr ((List.mem_cons.1 h).symm)
    · rcases mem_replaceAll h with h | h
      · exact Or.inr (Or.inr (by simpa using h))
      · exact Or.inl h
  · exact Or.inr (Or.inl h)

theorem braceless_quote {value : String} (h : Braceless value) : Braceless (quote value) := by
  intro hmem
  rw [quote, quoteWith, String.toList_ofList] at hmem
  rcases mem_literalWith hmem with hmem | hmem | hmem
  · exact h hmem
  · exact absurd hmem (by decide)
  · exact absurd hmem (by decide)

/-! ### Fields and rules -/

theorem braceless_fillableList {fields : List Field} (h : ∀ f ∈ fields, Braceless f.name) :
    Braceless (fillableList fields) :=
  braceless_intercalate (by decide) (List.forall_mem_map.2 fun f hf => braceless_quote (h f hf))

theorem braceless_columnCalls {fields : List Field} (hname : ∀ f ∈ fields, Braceless f.name)
    (htype : ∀ f ∈ fields, Braceless f.type) : Braceless (columnCalls fields) := by
  refine braceless_intercalate (by decide) (List.forall_mem_map.2 fun f hf => ?_)
  simp only [columnCall, braceless_append]
  exact ⟨⟨⟨⟨by decide, htype f hf⟩, by decide⟩, braceless_quote (hname f hf)⟩, by decide⟩

theorem mem_putRule {rules : List (String × String)} {name rule : String} {entry : String × String}
    (h : entry ∈ putRule rules name rule) : entry ∈ rules ∨ entry = (name, rule) := by
  unfold putRule at h
  split at h
  · obtain ⟨e, he, rfl⟩ := List.mem_map.1 h
    split
    · exact Or.inr rfl
    · exact Or.inl he
  · exact (List.mem_append.1 h).imp_right List.mem_singleton.1

theorem mem_rules {flavour : Flavour} {fields : List Field} :
    ∀ entry ∈ (RuleSet.ofFields flavour fields).rules, ∃ f ∈ fields, entry = (f.name, fieldRule flavour f) := by
  refine List.foldlRecOn (motive := fun rules => ∀ entry ∈ rules, ∃ f ∈ fields, entry = (f.name, fieldRule flavour f))
    fields _ nofun fun rules hrules f hf entry hentry => ?_
  rcases mem_putRule hentry with hentry | rfl
  · exact hrules entry hentry
  · exact ⟨f, hf, rfl⟩

theorem braceless_rules {flavour : Flavour} {fields : List Field} (hname : ∀ f ∈ fields, Braceless f.name)
    (htype : ∀ f ∈ fields, Braceless f.type) : Braceless (RuleSet.ofFields flavour fields).text := by
  have hmarker : Braceless flavour.marker := by cases flavour <;> decide
  refine braceless_intercalate (by decide) (List.forall_mem_map.2 fun entry hentry => ?_)
  obtain ⟨f, hf, rfl⟩ := mem_rules entry hentry
  simp only [fieldRule, braceless_append]
  exact ⟨⟨⟨⟨by decide, hname f hf⟩, by decide⟩, ⟨hmarker, by decide⟩, htype f hf⟩, by decide⟩

/-! ### Relations -/

theorem braceless_relatedClass {r : Relation} (h : Braceless r.related) : Braceless r.relatedClass := by
  intro hmem
  rw [Relation.relatedClass, replaceChar, String.toList_ofList] at hmem
  obtain ⟨c, hc, hmem⟩ := List.mem_flatMap.1 hmem
  split at hmem
  · exact absurd hmem (by decide)
  · rw [List.mem_singleton] at hmem
    exact h (hmem ▸ hc)

theorem braceless_of_isSnakeChar {s : String} (h : ∀ c ∈ s.toList, isSnakeChar c = true) : Braceless s :=
  fun hmem => absurd (h _ hmem) (by decide)

theorem braceless_of_isAlphanum {s : String} (h : ∀ c ∈ s.toList, c.isAlphanum = true) : Braceless s :=
  fun hmem => absurd (h _ hmem) (by decide)

/-- The method that declares a relation under an accessor; `table` is the join table that its call names. -/
def methodText (accessor : String) (r : Relation) (table : Option String) : String :=
  "\n    public function " ++ accessor ++ "()\n    \x7b\n        return $this->" ++ r.kind.label ++ "(" ++
    ", ".intercalate ((r.relatedClass ++ "::class") :: (table.toList.map quote ++
      [quote r.foreignKey, quote r.localKey])) ++ ");\n    \x7d\n"

/-- A relation that needs a join table names it in its method, and any other one names none. -/
theorem relationMethod_ok {entity : String} {r : Relation} {text : String} (h : relationMethod entity r = .ok text) :
    ∃ accessor, r.accessor = .ok accessor ∧
      ((r.kind.needsPivot = true ∧ ∃ name, pivotName entity r.related = .ok name ∧
        text = methodText accessor r (some name)) ∨
      (r.kind.needsPivot = false ∧ text = methodText accessor r none)) := by
  obtain ⟨arguments, harguments, h⟩ := bind_eq_ok.1 h
  obtain ⟨accessor, haccessor, h⟩ := bind_eq_ok.1 h
  obtain rfl := Except.ok.inj h
  refine ⟨accessor, haccessor, ?_⟩
  unfold relationArguments at harguments
  simp only at harguments
  split at harguments
  · rename_i hneeds
    obtain ⟨name, hname, harguments⟩ := bind_eq_ok.1 harguments
    obtain rfl := Except.ok.inj harguments
    exact Or.inl ⟨hneeds, name, hname, rfl⟩
  · rename_i hneeds
    obtain rfl := Except.ok.inj harguments
    exact Or.inr ⟨Bool.eq_false_iff.2 hneeds, rfl⟩

/-- The texts of the relation have no opening brace. -/
structure PlainRelation (r : Relation) : Prop where
  related : Braceless r.related
  foreignKey : Braceless r.foreignKey
  localKey : Braceless r.localKey

theorem braceless_relationArguments {entity : String} {r : Relation} (hr : PlainRelation r) {arguments : List String}
    (h : relationArguments entity r = .ok arguments) : ∀ a ∈ arguments, Braceless a := by
  have hclass : Braceless (r.relatedClass ++ "::class") :=
    braceless_append.2 ⟨braceless_relatedClass hr.related, by decide⟩
  have hkeys : ∀ a ∈ [quote r.foreignKey, quote r.localKey], Braceless a := by
    simp [braceless_quote hr.foreignKey, braceless_quote hr.localKey]
  unfold relationArguments at h
  simp only at h
  split at h
  · obtain ⟨name, hname, h⟩ := bind_eq_ok.1 h
    obtain rfl := Except.ok.inj h
    have hname := braceless_quote (braceless_of_isSnakeChar (isSnakeChar_of_pivotName hname))
    exact List.forall_mem_cons.2 ⟨hclass, List.forall_mem_cons.2 ⟨hname, hkeys⟩⟩
  · obtain rfl := Except.ok.inj h
    exact List.forall_mem_cons.2 ⟨hclass, hkeys⟩

theorem tidy_relationMethod {entity : String} {r : Relation} (hr : PlainRelation r) {text : String}
    (h : relationMethod entity r = .ok text) : Tidy text := by
  obtain ⟨arguments, harguments, h⟩ := bind_eq_ok.1 h
  obtain ⟨accessor, haccessor, h⟩ := bind_eq_ok.1 h
  obtain rfl := Except.ok.inj h
  have hlist : Braceless (", ".intercalate arguments) :=
    braceless_intercalate (by decide) (braceless_relationArguments hr harguments)
  have hname := braceless_of_isAlphanum (isAlphanum_of_accessor haccessor)
  have hkind : Braceless r.kind.label := by cases r.kind <;> decide
  have hopening : Tidy "()\n    \x7b\n        return $this->" := by decide
  exact (((((Tidy.append (by decide) hname.tidy).append hopening).append hkind.tidy).append (by decide)).append
    hlist.tidy).append (by decide)

theorem tidy_relationMethods {entity : String} {relations : List Relation} (hr : ∀ r ∈ relations, PlainRelation r)
    {text : String} (h : relationMethods entity relations = .ok text) : Tidy text := by
  obtain ⟨methods, hmethods, h⟩ := bind_eq_ok.1 h
  obtain rfl := Except.ok.inj h
  refine tidy_join fun method hmethod => ?_
  obtain ⟨r, hmem, h⟩ := exists_of_mem_mapM hmethods hmethod
  exact tidy_relationMethod (hr r hmem) h

end CrudScaffold.Code
