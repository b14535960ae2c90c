import CrudScaffold.Proofs.Code.Verbatim
import CrudScaffold.Proofs.Code.Views

/-!
# CrudScaffold.Proofs.Code.RuleTexts — the rules of a form request read back

`readRules` reads the body of an array whose entries are pairs of literals, with blanks wherever the code may have
them.  The text of a rule set is such a body as long as its literals end where they should.  Names and rules stand in it
as they are, so each has to be verbatim; if one is not, no reading gives the rules back (`readRules_iff`).  The list of
fillable attributes escapes the same names and has no such condition.
-/

namespace CrudScaffold.Code

open CrudScaffold.Spec

/-! ### Reading pairs -/

/-- A blank that may stand between two tokens of the code. -/
def isLayout (c : Char) : Bool := [' ', '\t', '\n', '\r'].contains c

/-- Reads an item, and passes over the blanks on both sides of it. -/
def Reader.spaced {α : Type} (item : Reader α) : Reader α where
  read cs := (item.read (cs.dropWhile isLayout)).map fun (a, rest) => (a, rest.dropWhile isLayout)
  shorter {cs a rest} h := by
    obtain ⟨⟨a', rest'⟩, hread, h⟩ := Option.map_eq_some_iff.1 h
    cases h
    have hbefore := (List.dropWhile_suffix (l := cs) isLayout).length_le
    have hbehind := (List.dropWhile_suffix (l := rest') isLayout).length_le
    have hread := item.shorter hread
    omega

/-- Reads two single-quoted literals with an arrow between them. -/
def entry : Reader (String × String) where
  read cs := do
    let (name, rest) ← (literal '\'').read cs
    let ((), rest) ← (Reader.exactly '=' ['>']).spaced.read rest
    let (rule, rest) ← (literal '\'').read rest
    return ((name, rule), rest)
  shorter h := by
    obtain ⟨⟨name, behindName⟩, hname, h⟩ := Option.bind_eq_some_iff.1 h
    obtain ⟨⟨_, behindArrow⟩, harrow, h⟩ := Option.bind_eq_some_iff.1 h
    obtain ⟨⟨rule, behindRule⟩, hrule, h⟩ := Option.bind_eq_some_iff.1 h
    cases h
    have hname := (literal '\'').shorter hname
    have harrow := Reader.shorter _ harrow
    have hrule := (literal '\'').shorter hrule
    omega

/-- Reads the body of an array of pairs. -/
def readRules (text : String) : Option (List (String × String)) :=
  entry.list (Reader.exactly ',' []).spaced text.toList

/-! ### Pairs that have not been escaped -/

section

variable {e : String × String} {tail rest : List Char}

/-- A pair as it stands in the text of a rule set. -/
def writtenEntry (e : String × String) : List Char := between e.1 ([' ', '=', '>', ' '] ++ between e.2 [])

theorem writtenEntry_append (e : String × String) (tail : List Char) :
    writtenEntry e ++ tail = between e.1 ([' ', '=', '>', ' '] ++ between e.2 tail) := by
  simp [writtenEntry, between]

theorem read_arrow (s : String) (tail : List Char) :
    (Reader.exactly '=' ['>']).spaced.read ([' ', '=', '>', ' '] ++ between s tail) = some ((), between s tail) := rfl

theorem read_entry (hname : Verbatim e.1.toList) (hrule : Verbatim e.2.toList) (tail : List Char) :
    entry.read (writtenEntry e ++ tail) = some (e, tail) := by
  rw [writtenEntry_append]
  show ((literal '\'').read _).bind _ = _
  rw [read_literal_verbatim hname, Option.bind_some]
  show ((Reader.exactly '=' ['>']).spaced.read _).bind _ = _
  rw [read_arrow, Option.bind_some]
  show ((literal '\'').read _).bind _ = _
  rw [read_literal_verbatim hrule, Option.bind_some]
  rfl

/-- A pair that is read as itself has verbatim texts. -/
theorem verbatim_of_read_entry (htail : Calm tail) (h : entry.read (writtenEntry e ++ tail) = some (e, rest)) :
    (Verbatim e.1.toList ∧ Verbatim e.2.toList) ∧ rest = tail := by
  have hcalm : Calm ([' ', '=', '>', ' '] ++ between e.2 tail) := calm_of_notMem (by decide) (by decide) _
  rw [writtenEntry_append] at h
  obtain ⟨⟨name, behindName⟩, hname, h⟩ := Option.bind_eq_some_iff.1 h
  obtain ⟨⟨_, behindArrow⟩, harrow, h⟩ := Option.bind_eq_some_iff.1 h
  obtain ⟨⟨rule, behindRule⟩, hrule, h⟩ := Option.bind_eq_some_iff.1 h
  cases h
  obtain ⟨hverbatim, rfl⟩ := verbatim_of_read_literal hcalm hname
  rw [read_arrow] at harrow
  cases harrow
  obtain ⟨hverbatim', hrest⟩ := verbatim_of_read_literal htail hrule
  exact ⟨⟨hverbatim, hverbatim'⟩, hrest⟩

end

/-! ### Rule sets -/

theorem toList_ruleBreak : ruleBreak.toList = ',' :: '\n' :: List.replicate 12 ' ' := by decide

theorem RuleSet.toList_text (set : RuleSet) :
    set.text.toList = ruleBreak.toList.intercalate (set.rules.map writtenEntry) := by
  rw [RuleSet.text, String.toList_intercalate, List.map_map]
  refine congrArg _ (List.map_congr_left fun e _ => ?_)
  simp [writtenEntry, between]

theorem read_ruleBreak (rest : List Char) :
    (Reader.exactly ',' []).spaced.read (ruleBreak.toList ++ '\'' :: rest) = some ((), '\'' :: rest) := by
  rw [toList_ruleBreak]
  rfl

theorem calm_ruleBreak (rest : List Char) : Calm (ruleBreak.toList ++ '\'' :: rest) := by
  rw [toList_ruleBreak]
  exact calm_of_notMem (by decide) (by decide) rest

/-- Rules that are read back have verbatim texts. -/
theorem verbatim_of_items {rules : List (String × String)}
    (h : entry.items (Reader.exactly ',' []).spaced (ruleBreak.toList.intercalate (rules.map writtenEntry)) =
      some rules) : ∀ e ∈ rules, Verbatim e.1.toList ∧ Verbatim e.2.toList := by
  induction rules with
  | nil => exact nofun
  | cons e rules ih =>
    obtain ⟨e', rest, hentry, hrest⟩ := Reader.exists_of_items h
    -- the entry that is read is the one that was written
    have he : e' = e := by
      rcases hrest with ⟨-, has⟩ | ⟨next, more, -, -, has⟩
      · cases has
        rfl
      · cases has
        rfl
    subst he
    cases rules with
    | nil =>
      rw [List.map_singleton, List.intercalate_singleton, ← List.append_nil (writtenEntry e')] at hentry
      exact List.forall_mem_singleton.2 (verbatim_of_read_entry calm_nil hentry).1
    | cons e rules =>
      -- behind a separator the next entry begins with its quote
      rw [List.map_cons, List.intercalate_cons_of_ne_nil (by simp), List.append_assoc] at hentry
      obtain ⟨behind, hbehind⟩ : ∃ behind, ruleBreak.toList.intercalate ((e :: rules).map writtenEntry) =
          '\'' :: behind := by
        cases rules <;> exact ⟨_, rfl⟩
      rw [hbehind] at hentry ih
      obtain ⟨hverbatim, rfl⟩ := verbatim_of_read_entry (calm_ruleBreak behind) hentry
      refine List.forall_mem_cons.2 ⟨hverbatim, ih ?_⟩
      rcases hrest with ⟨hnil, -⟩ | ⟨next, more, hnext, hmore, has⟩
      · simp [toList_ruleBreak] at hnil
      · rw [read_ruleBreak] at hnext
        cases hnext
        cases has
        exact hmore

/-- The text of a rule set gives its rules back exactly if they are verbatim. -/
theorem readRules_iff (set : RuleSet) :
    readRules set.text = some set.rules ↔ ∀ e ∈ set.rules, Verbatim e.1.toList ∧ Verbatim e.2.toList := by
  rw [readRules, RuleSet.toList_text]
  cases hrules : set.rules with
  | nil => simp [Reader.list]
  | cons e rules =>
    have hne : ¬ ruleBreak.toList.intercalate ((e :: rules).map writtenEntry) = [] := by
      cases rules <;> simp [writtenEntry, between]
    rw [Reader.list, if_neg (by simpa using hne)]
    refine ⟨verbatim_of_items, fun h => ?_⟩
    exact Reader.items_intercalate (List.cons_ne_nil _ _) (by simp [toList_ruleBreak])
      (fun e he rest => read_entry (h e he).1 (h e he).2 rest) fun e _ rest => read_ruleBreak _

theorem verbatim_fieldRule_iff (flavour : Flavour) (f : Field) :
    Verbatim (fieldRule flavour f).toList ↔ Verbatim f.type.toList := by
  rw [fieldRule, String.toList_append]
  refine verbatim_append_iff ?_ ?_ <;> cases flavour <;> decide

/-- What the form requests and the model say about the fields of a spec.  The list of fillable attributes is read as a
list of literals and gives the names of the fields.  The text of either rule set is read as pairs of literals and gives
each name with its rule, in the order of the fields, exactly if all names and types are verbatim: it quotes the names
that the list of fillable attributes has escaped as they are. -/
theorem rules_read_back_iff {spec : Option String} {fields : List Field} (h : parseFields spec = .ok fields)
    (flavour : Flavour) :
    readNames (fillableList fields) = some (fields.map Field.name) ∧
      (readRules (RuleSet.ofFields flavour fields).text =
          some (fields.map fun f => (f.name, flavour.marker ++ "|" ++ f.type)) ↔
        ∀ f ∈ fields, Verbatim f.name.toList ∧ Verbatim f.type.toList) := by
  obtain ⟨-, -, hdistinct⟩ := parseFields_ok_iff.1 h
  have hrules := rules_of_distinct hdistinct flavour
  refine ⟨readNames_fillableList fields, ?_⟩
  have hiff := readRules_iff (RuleSet.ofFields flavour fields)
  rw [hrules, List.forall_mem_map] at hiff
  simp only [verbatim_fieldRule_iff] at hiff
  exact hiff

/-- The rules of two fields, of which one has a backslash in its name. -/
theorem rules_read_back_iff_backslash : parseFields (some "ti\\tle:string, body:text") =
      .ok [⟨"ti\\tle", "string"⟩, ⟨"body", "text"⟩] ∧
    readRules (RuleSet.ofFields .update [⟨"ti\\tle", "string"⟩, ⟨"body", "text"⟩]).text =
      some [("ti\\tle", "nullable|string"), ("body", "nullable|text")] := by
  have hparse : parseFields (some "ti\\tle:string, body:text") =
      .ok [⟨"ti\\tle", "string"⟩, ⟨"body", "text"⟩] := by decide
  have hread := (rules_read_back_iff hparse .update).2.2 (by decide)
  exact ⟨hparse, hread⟩

/-- A quote in the name of a field is escaped in the model and not in the form requests, whose rules cannot be read
back. -/
theorem not_rules_read_back : parseFields (some "it's:string") = .ok [⟨"it's", "string"⟩] ∧
    readNames (fillableList [⟨"it's", "string"⟩]) = some ["it's"] ∧
    readRules (RuleSet.ofFields .creation [⟨"it's", "string"⟩]).text ≠ some [("it's", "required|string")] := by
  refine ⟨by decide, readNames_fillableList _, fun h => ?_⟩
  have hverbatim := (readRules_iff (RuleSet.ofFields .creation [⟨"it's", "string"⟩])).1 h
  exact absurd (hverbatim ("it's", "required|string") (by decide)).1 (by decide)

end CrudScaffold.Code
