import CrudScaffold.Code.Fragments

/-!
# CrudScaffold.Code.Rules — the validation rules of the form requests

Each field has one rule for the request that creates an entity and one for the request that updates it: a marker, a
bar, and the type of the field as it stands in the spec.  A rule set keeps one rule per name, in the order in which
the names first appear; of two fields with one name the later one gives the rule.
-/

namespace CrudScaffold.Code

open CrudScaffold.Spec

/-- The two kinds of form requests. -/
inductive Flavour where
  | creation
  | update
  deriving DecidableEq, Repr

/-- The leading part of every rule of a request. -/
def Flavour.marker : Flavour → String
  | .creation => "required"
  | .update => "nullable"

/-- The rules of one form request, by field name. -/
structure RuleSet where
  flavour : Flavour
  rules : List (String × String)
  deriving DecidableEq, Repr

/-- The rule of a field. -/
def fieldRule (flavour : Flavour) (f : Field) : String := flavour.marker ++ "|" ++ f.type

/-- Gives a name its rule: in its place if it has one already, else at the end. -/
def putRule (rules : List (String × String)) (name rule : String) : List (String × String) :=
  if rules.any (·.1 = name) then rules.map fun e => if e.1 = name then (name, rule) else e
  else rules ++ [(name, rule)]

/-- The rule set of the fields. -/
def RuleSet.ofFields (flavour : Flavour) (fields : List Field) : RuleSet where
  flavour := flavour
  rules := fields.foldl (fun rules f => putRule rules f.name (fieldRule flavour f)) []

/-- The names that have a rule. -/
def RuleSet.names (set : RuleSet) : List String := set.rules.map (·.1)

/-- The line break between two rules. -/
def ruleBreak : String := "," ++ blockBreak

/-- The body of the array of rules. -/
def RuleSet.text (set : RuleSet) : String :=
  ruleBreak.intercalate (set.rules.map fun (name, rule) => "'" ++ name ++ "' => '" ++ rule ++ "'")

end CrudScaffold.Code
