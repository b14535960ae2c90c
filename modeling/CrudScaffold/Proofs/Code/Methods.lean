import CrudScaffold.Proofs.Code.Fragments
import CrudScaffold.Proofs.Code.Reading

/-!
# CrudScaffold.Proofs.Code.Methods — the names that the methods of relations are declared under

`declaredName` reads the name of a method off its text.  The text for all relations consists of one method for each,
and the names of these methods are the accessors of the relations, in their order (`exists_of_relationMethods`).
-/

namespace CrudScaffold.Code

open CrudScaffold.Naming CrudScaffold.Spec CrudScaffold.Text

/-- The name that a method is declared under, from its text: what stands between `public function` and the list of
parameters. -/
def declaredName (method : String) : Option String :=
  ((Reader.exactly '\n' "    public function ".toList).read method.toList).map fun (_, rest) =>
    String.ofList (rest.takeWhile (· ≠ '('))

theorem methodText_eq (accessor : String) (r : Relation) (table : Option String) : ∃ body,
    methodText accessor r table =
      "\n    public function " ++ (accessor ++ ("()\n    \x7b\n        return $this->" ++ body)) := by
  refine ⟨r.kind.label ++ ("(" ++ (", ".intercalate ((r.relatedClass ++ "::class") :: (table.toList.map quote ++
    [quote r.foreignKey, quote r.localKey])) ++ ");\n    \x7d\n")), ?_⟩
  unfold methodText
  -- long literals are kept closed, or the rewriting opens them character by character
  generalize "\n    public function " = front
  generalize "()\n    \x7b\n        return $this->" = opening
  generalize ");\n    \x7d\n" = back
  simp only [String.append_assoc]

theorem declaredName_methodText {accessor : String} (h : '(' ∉ accessor.toList) (r : Relation)
    (table : Option String) : declaredName (methodText accessor r table) = some accessor := by
  have hfront : "\n    public function ".toList = '\n' :: "    public function ".toList := by decide
  have hopening : "()\n    \x7b\n        return $this->".toList =
      '(' :: ")\n    \x7b\n        return $this->".toList := by decide
  obtain ⟨body, hbody⟩ := methodText_eq accessor r table
  have hname : ∀ rest, (accessor.toList ++ '(' :: rest).takeWhile (· ≠ '(') = accessor.toList := fun rest =>
    (takeWhile_append_stop (fun c hc => by simpa using fun heq : c = '(' => h (heq ▸ hc)) (by simp)).1
  rw [declaredName, hbody, String.toList_append, String.toList_append, String.toList_append, hfront, hopening,
    List.cons_append (a := '('), Reader.read_exactly, Option.map_some]
  show some (String.ofList ((accessor.toList ++ '(' :: _).takeWhile (· ≠ '('))) = some accessor
  rw [hname, String.ofList_toList]

/-- The method of a relation is declared under the accessor of the relation. -/
theorem declaredName_relationMethod {entity text : String} {r : Relation} (h : relationMethod entity r = .ok text) :
    ∃ accessor, r.accessor = .ok accessor ∧ declaredName text = some accessor := by
  obtain ⟨accessor, haccessor, htext⟩ := relationMethod_ok h
  have hname : '(' ∉ accessor.toList := fun hmem => absurd (isAlphanum_of_accessor haccessor _ hmem) (by decide)
  refine ⟨accessor, haccessor, ?_⟩
  rcases htext with ⟨-, name, -, rfl⟩ | ⟨-, rfl⟩
  · exact declaredName_methodText hname r _
  · exact declaredName_methodText hname r _

theorem map_eq_map_of_forall₂ {α β γ : Type} {R : α → β → Prop} {f : α → γ} {g : β → γ} {as : List α} {bs : List β}
    (h : List.Forall₂ R as bs) (hR : ∀ a b, R a b → f a = g b) : as.map f = bs.map g := by
  rw [← List.forall₂_eq_eq_eq, List.forall₂_map_left_iff, List.forall₂_map_right_iff]
  exact h.imp hR

/-- The text for all relations consists of one method for each, declared under the accessor of the relation. -/
theorem exists_of_relationMethods {entity text : String} {relations : List Relation} {accessors : List String}
    (h : relationMethods entity relations = .ok text) (haccessors : relations.mapM Relation.accessor = .ok accessors) :
    ∃ methods, text = String.join methods ∧
      List.Forall₂ (fun r method => relationMethod entity r = .ok method) relations methods ∧
      methods.map declaredName = accessors.map some := by
  obtain ⟨methods, hmethods, htext⟩ := bind_eq_ok.1 h
  have hall := forall₂_of_mapM hmethods
  have hdeclared : relations.map (fun r => r.accessor.toOption) = methods.map declaredName := by
    refine map_eq_map_of_forall₂ hall fun r method hmethod => ?_
    obtain ⟨accessor, haccessor, hname⟩ := declaredName_relationMethod hmethod
    rw [haccessor, hname]
    rfl
  have hgiven : relations.map (fun r => r.accessor.toOption) = accessors.map some := by
    refine map_eq_map_of_forall₂ (forall₂_of_mapM haccessors) fun r accessor haccessor => ?_
    rw [haccessor]
    rfl
  exact ⟨methods, (Except.ok.inj htext).symm, hall, hdeclared.symm.trans hgiven⟩

end CrudScaffold.Code
