import CrudScaffold.Code.Rules
import CrudScaffold.Proofs.Code.Literals
import CrudScaffold.Proofs.Spec.Fields

/-!
# CrudScaffold.Proofs.Code.Views — the generated code lists the same fields everywhere

The model, the migration and the two form requests list the fields each in a way of its own.  Three of the lists have
one entry for each field by the way they are made.  A rule set is filled name by name, and a second field of one name
would take the place of the first; the fields of a spec have different names, so nothing is ever replaced
(`rules_of_distinct`).
-/

namespace CrudScaffold.Code

open CrudScaffold.Spec

/-! ### Rules -/

theorem putRule_of_notMem {rules : List (String × String)} {name : String} (h : name ∉ rules.map Prod.fst)
    (rule : String) : putRule rules name rule = rules ++ [(name, rule)] := by
  have hnone : ¬ rules.any (·.1 = name) = true := by
    rw [List.any_eq_true]
    rintro ⟨e, he, hname⟩
    exact h (List.mem_map.2 ⟨e, he, of_decide_eq_true hname⟩)
  rw [putRule, if_neg hnone]

/-- Fields with different names, none of which has a rule yet, get theirs at the end, in their order. -/
theorem foldl_putRule {flavour : Flavour} {fields : List Field} (hdistinct : Distinct fields)
    (rules : List (String × String)) (hnew : ∀ f ∈ fields, f.name ∉ rules.map Prod.fst) :
    fields.foldl (fun rules f => putRule rules f.name (fieldRule flavour f)) rules =
      rules ++ fields.map fun f => (f.name, fieldRule flavour f) := by
  induction fields generalizing rules with
  | nil => rw [List.foldl_nil, List.map_nil, List.append_nil]
  | cons f fields ih =>
    obtain ⟨hf, hdistinct⟩ := List.nodup_cons.1 hdistinct
    obtain ⟨hfirst, hnew⟩ := List.forall_mem_cons.1 hnew
    -- no later field has the name of this one
    have hrest : ∀ f' ∈ fields, f'.name ∉ (rules ++ [(f.name, fieldRule flavour f)]).map Prod.fst := by
      intro f' hf' hmem
      rw [List.map_append, List.mem_append] at hmem
      rcases hmem with hmem | hmem
      · exact hnew f' hf' hmem
      · have hname : f'.name = f.name := List.mem_singleton.1 hmem
        exact hf (hname ▸ List.mem_map_of_mem hf')
    rw [List.foldl_cons, putRule_of_notMem hfirst, ih hdistinct _ hrest, List.append_assoc]
    rfl

/-- Fields with different names have one rule each, in their order. -/
theorem rules_of_distinct {fields : List Field} (h : Distinct fields) (flavour : Flavour) :
    (RuleSet.ofFields flavour fields).rules = fields.map fun f => (f.name, fieldRule flavour f) :=
  foldl_putRule h [] fun _ _ => List.not_mem_nil

theorem fieldRule_creation (f : Field) : fieldRule .creation f = "required|" ++ f.type := by
  have hmarker : Flavour.creation.marker ++ "|" = "required|" := by decide
  rw [fieldRule, hmarker]

theorem fieldRule_update (f : Field) : fieldRule .update f = "nullable|" ++ f.type := by
  have hmarker : Flavour.update.marker ++ "|" = "nullable|" := by decide
  rw [fieldRule, hmarker]

theorem names_of_distinct {fields : List Field} (h : Distinct fields) (flavour : Flavour) :
    (RuleSet.ofFields flavour fields).names = fillableNames fields := by
  rw [RuleSet.names, rules_of_distinct h, List.map_map]
  rfl

/-! ### Columns -/

/-- The text is the schema call for the field: it calls the method with the name of the type, and its one argument is
a literal of the name. -/
def CallsFor (f : Field) (call : String) : Prop :=
  ∃ literal, Denotes literal f.name ∧ call = "$table->" ++ f.type ++ "(" ++ literal ++ ");"

theorem callsFor_columnCall (f : Field) : CallsFor f (columnCall f) := ⟨quote f.name, denotes_quote f.name, rfl⟩

/-! ### All lists of fields -/

/-- The lists that the code has of the fields of a spec.  The fillable names and the names in both rule sets are the
names of the fields, in the order in which the spec declares them.  A field's rule is `required` or `nullable` with
its type.  The columns of the migration are one schema call for each field, in the same order, with its type and with
its name as a literal; and the body of the fillable list is a literal of each name. -/
theorem views_agree {spec : Option String} {fields : List Field} (h : parseFields spec = .ok fields) :
    fillableNames fields = fields.map Field.name ∧
      (RuleSet.ofFields .creation fields).names = fields.map Field.name ∧
      (RuleSet.ofFields .update fields).names = fields.map Field.name ∧
      (RuleSet.ofFields .creation fields).rules = fields.map (fun f => (f.name, "required|" ++ f.type)) ∧
      (RuleSet.ofFields .update fields).rules = fields.map (fun f => (f.name, "nullable|" ++ f.type)) ∧
      (∃ calls, columnCalls fields = "\n            ".intercalate calls ∧ List.Forall₂ CallsFor fields calls) ∧
      ∃ literals, fillableList fields = ", ".intercalate literals ∧
        List.Forall₂ (fun f literal => Denotes literal f.name) fields literals := by
  obtain ⟨-, -, hdistinct⟩ := parseFields_ok_iff.1 h
  have hrules := rules_of_distinct hdistinct
  have hnames := names_of_distinct hdistinct
  refine ⟨rfl, hnames .creation, hnames .update, ?_, ?_, ?_, ?_⟩
  · simp only [hrules, fieldRule_creation]
  · simp only [hrules, fieldRule_update]
  · refine ⟨fields.map columnCall, by rw [columnCalls, blockBreak], ?_⟩
    rw [List.forall₂_map_right_iff, List.forall₂_same]
    exact fun f _ => callsFor_columnCall f
  · refine ⟨fields.map fun f => quote f.name, by rw [fillableList], ?_⟩
    rw [List.forall₂_map_right_iff, List.forall₂_same]
    exact fun f _ => denotes_quote f.name

/-- The fields of a spec with blanks, and the rules of the form request that creates. -/
theorem views_agree_post : parseFields (some " title : string ,body:text") =
      .ok [⟨"title", "string"⟩, ⟨"body", "text"⟩] ∧
    (RuleSet.ofFields .creation [⟨"title", "string"⟩, ⟨"body", "text"⟩]).names = ["title", "body"] ∧
    (RuleSet.ofFields .creation [⟨"title", "string"⟩, ⟨"body", "text"⟩]).rules =
      [("title", "required|string"), ("body", "required|text")] := by
  have hparse : parseFields (some " title : string ,body:text") =
      .ok [⟨"title", "string"⟩, ⟨"body", "text"⟩] := by decide
  obtain ⟨-, hnames, -, hrules, -⟩ := views_agree hparse
  exact ⟨hparse, hnames, hrules⟩

end CrudScaffold.Code
