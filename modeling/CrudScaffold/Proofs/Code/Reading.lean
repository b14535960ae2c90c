import CrudScaffold.Code.Fragments
import CrudScaffold.Proofs.Code.Literals

/-!
# CrudScaffold.Proofs.Code.Reading — lists of literals read back

A `Reader` takes an item off the front of a text.  What it leaves is shorter, so that reading one item after the other
comes to an end: `Reader.items` reads items up to the end of the text, with a separator between any two neighbours.
What has been written item by item is read back so (`items_intercalate`), and if each of the two readers accepts what
was written for it whatever comes behind, nothing that an item holds can be taken for a separator.

`readNames` reads a list of literals this way.  It gives back every list of texts (`readNames_quoted`), and so the list
of fillable attributes gives back the names of the fields.
-/

namespace CrudScaffold.Code

open CrudScaffold.Spec

/-! ### Readers -/

/-- Takes an item off the front of a text, and leaves less than there was. -/
structure Reader (α : Type) where
  read : List Char → Option (α × List Char)
  shorter : ∀ {cs : List Char} {a : α} {rest : List Char}, read cs = some (a, rest) → rest.length < cs.length

namespace Reader

variable {α : Type}

/-- Reads one item after the other up to the end of the text, with a separator between any two neighbours. -/
def items (item : Reader α) (separator : Reader Unit) (cs : List Char) : Option (List α) :=
  match _hitem : item.read cs with
  | none => none
  | some (a, rest) =>
    if rest.isEmpty then some [a]
    else match _hseparator : separator.read rest with
      | none => none
      | some (_, next) => (items item separator next).map (a :: ·)
termination_by cs.length
decreasing_by exact Nat.lt_trans (separator.shorter _hseparator) (item.shorter _hitem)

/-- Reads a list of items, which may be empty. -/
def list (item : Reader α) (separator : Reader Unit) (cs : List Char) : Option (List α) :=
  if cs.isEmpty then some [] else item.items separator cs

/-- Reads the text that begins with `c` and goes on with `cs`. -/
def exactly (c : Char) (cs : List Char) : Reader Unit where
  read text := if (c :: cs).isPrefixOf text then some ((), text.drop (c :: cs).length) else none
  shorter h := by
    split at h
    · rename_i hfront
      obtain ⟨rest, rfl⟩ := List.isPrefixOf_iff_prefix.1 hfront
      cases h
      rw [List.drop_left, List.length_append, List.length_cons]
      omega
    · cases h

variable {item : Reader α} {separator : Reader Unit} {cs rest : List Char} {a : α}

theorem read_exactly (c : Char) (cs rest : List Char) : (exactly c cs).read (c :: cs ++ rest) = some ((), rest) := by
  have hfront : (c :: cs).isPrefixOf (c :: cs ++ rest) = true :=
    List.isPrefixOf_iff_prefix.2 (List.prefix_append _ _)
  show (if _ then _ else _) = _
  rw [if_pos hfront, List.drop_left]

theorem items_last (h : item.read cs = some (a, [])) : item.items separator cs = some [a] := by
  rw [items]
  split
  · rename_i hnone
    cases hnone.symm.trans h
  · rename_i hsome
    cases hsome.symm.trans h
    rfl

theorem items_next {next : List Char} (h : item.read cs = some (a, rest)) (hrest : rest ≠ [])
    (hseparator : separator.read rest = some ((), next)) :
    item.items separator cs = (item.items separator next).map (a :: ·) := by
  rw [items]
  split
  · rename_i hnone
    cases hnone.symm.trans h
  · rename_i hsome
    cases hsome.symm.trans h
    rw [if_neg (by simpa using hrest)]
    split
    · rename_i hnone
      cases hnone.symm.trans hseparator
    · rename_i hsome
      cases hsome.symm.trans hseparator
      rfl

/-- Items that have been read are a first one and what has been read behind it. -/
theorem exists_of_items {as : List α} (h : item.items separator cs = some as) :
    ∃ a rest, item.read cs = some (a, rest) ∧ (rest = [] ∧ as = [a] ∨ ∃ next more,
      separator.read rest = some ((), next) ∧ item.items separator next = some more ∧ as = a :: more) := by
  rw [items] at h
  split at h
  · cases h
  · rename_i a rest hitem
    refine ⟨a, rest, hitem, ?_⟩
    split at h
    · rename_i hrest
      exact Or.inl ⟨List.isEmpty_iff.1 hrest, (Option.some.inj h).symm⟩
    · split at h
      · cases h
      · rename_i next hseparator
        obtain ⟨more, hmore, rfl⟩ := Option.map_eq_some_iff.1 h
        exact Or.inr ⟨next, more, hseparator, hmore, rfl⟩

/-- What has been written item by item is read back, if each item and each separator is accepted whatever comes
behind it. -/
theorem items_intercalate {written : α → List Char} {sep : List Char} {as : List α} (hne : as ≠ []) (hsep : sep ≠ [])
    (hitem : ∀ a ∈ as, ∀ rest, item.read (written a ++ rest) = some (a, rest))
    (hseparator : ∀ a ∈ as, ∀ rest, separator.read (sep ++ (written a ++ rest)) = some ((), written a ++ rest)) :
    item.items separator (sep.intercalate (as.map written)) = some as := by
  induction as with
  | nil => exact absurd rfl hne
  | cons a as ih =>
    obtain ⟨hfirst, hitem⟩ := List.forall_mem_cons.1 hitem
    obtain ⟨-, hseparator⟩ := List.forall_mem_cons.1 hseparator
    cases as with
    | nil =>
      have hlast := hfirst []
      rw [List.append_nil] at hlast
      rw [List.map_singleton, List.intercalate_singleton, items_last hlast]
    | cons b as =>
      -- the item behind the separator is where the rest begins
      have hbehind : ∃ rest, sep.intercalate ((b :: as).map written) = written b ++ rest := by
        cases as with
        | nil => exact ⟨[], by simp⟩
        | cons c as => exact ⟨sep ++ sep.intercalate ((c :: as).map written), by simp⟩
      have ih := ih (List.cons_ne_nil _ _) hitem hseparator
      obtain ⟨rest, hrest⟩ := hbehind
      rw [hrest] at ih
      rw [List.map_cons, List.intercalate_cons_of_ne_nil (by simp), List.append_assoc, hrest,
        items_next (hfirst _) (by simp [hsep]) (hseparator b List.mem_cons_self rest), ih, Option.map_some]

end Reader

/-! ### Literals -/

theorem length_lt_of_readBody {delimiter : Char} {cs text rest : List Char}
    (h : readBody delimiter cs = some (text, rest)) : rest.length < cs.length := by
  -- each branch of the reader takes at least the character it looks at
  induction cs using readBody.induct delimiter generalizing text rest with
  | case1 => cases h
  | case2 c cs hc ih =>
    rw [readBody, if_pos hc] at h
    obtain ⟨⟨text', rest'⟩, hrest, h⟩ := Option.map_eq_some_iff.1 h
    cases h
    have := ih hrest
    simp only [List.length_cons]
    omega
  | case3 c cs hc ih =>
    rw [readBody, if_neg hc] at h
    obtain ⟨⟨text', rest'⟩, hrest, h⟩ := Option.map_eq_some_iff.1 h
    cases h
    have := ih hrest
    simp only [List.length_cons] at this ⊢
    omega
  | case4 cs hcs =>
    rw [readBody, if_pos rfl] at h
    · cases h
      exact Nat.lt_succ_self _
    · exact hcs
  | case5 c cs hcs hc ih =>
    rw [readBody, if_neg hc] at h
    · obtain ⟨⟨text', rest'⟩, hrest, h⟩ := Option.map_eq_some_iff.1 h
      cases h
      exact Nat.lt_trans (ih hrest) (Nat.lt_succ_self _)
    · exact hcs

/-- Reads a literal with the delimiter. -/
def literal (delimiter : Char) : Reader String where
  read cs := (readLiteral delimiter cs).map fun (text, rest) => (String.ofList text, rest)
  shorter {cs a rest} h := by
    obtain ⟨⟨text, rest'⟩, hread, h⟩ := Option.map_eq_some_iff.1 h
    cases h
    cases cs with
    | nil => cases hread
    | cons c cs =>
      rw [readLiteral] at hread
      split at hread
      · exact Nat.lt_trans (length_lt_of_readBody hread) (Nat.lt_succ_self _)
      · cases hread

theorem read_literal_quote (value : String) (rest : List Char) :
    (literal '\'').read ((quote value).toList ++ rest) = some (value, rest) := by
  have hquote : '\'' ≠ '\\' := by decide
  have hread := readLiteral_literalWith hquote value.toList rest
  rw [quote, quoteWith, String.toList_ofList]
  show (readLiteral '\'' (literalWith ['\''] value.toList ++ rest)).map _ = _
  rw [hread, Option.map_some]
  simp only [String.ofList_toList]

/-- Reads a list of single-quoted literals, with a comma and a space between any two. -/
def readNames (text : String) : Option (List String) := (literal '\'').list (.exactly ',' [' ']) text.toList

/-- A list of literals gives back its texts. -/
theorem readNames_quoted (values : List String) : readNames (", ".intercalate (values.map quote)) = some values := by
  cases values with
  | nil => rfl
  | cons value values =>
    have hwritten : (", ".intercalate ((value :: values).map quote)).toList =
        [',', ' '].intercalate ((value :: values).map fun value => (quote value).toList) := by
      rw [String.toList_intercalate, List.map_map]
      rfl
    have hquoted : (quote value).toList ≠ [] := by simp [quote, quoteWith, literalWith]
    have hne : ¬ [',', ' '].intercalate ((value :: values).map fun value => (quote value).toList) = [] := by
      cases values <;> simp [hquoted]
    rw [readNames, hwritten, Reader.list, if_neg (by simpa using hne)]
    exact Reader.items_intercalate (List.cons_ne_nil _ _) (List.cons_ne_nil _ _)
      (fun value _ rest => read_literal_quote value rest) fun value _ rest => Reader.read_exactly ',' [' '] _

theorem fillableList_eq (fields : List Field) :
    fillableList fields = ", ".intercalate ((fields.map Field.name).map quote) := by
  rw [fillableList, List.map_map]
  rfl

theorem readNames_fillableList (fields : List Field) :
    readNames (fillableList fields) = some (fields.map Field.name) := by
  rw [fillableList_eq, readNames_quoted]

/-! ### Everything that is quoted -/

/-- Quoting can be undone.  A literal with any delimiter but the backslash is read to its end and gives back its text.
The list of fillable attributes is read as a list of literals and gives back the names of the fields, so that two lists
of fields have the same text only if they have the same names. -/
theorem quoted_read_back :
    (∀ (delimiter : Char) (value : String), delimiter ≠ '\\' →
      readLiteral delimiter (quoteWith (String.singleton delimiter) value).toList = some (value.toList, [])) ∧
    (∀ fields, readNames (fillableList fields) = some (fields.map Field.name)) ∧
    ∀ fields fields', fillableList fields = fillableList fields' ↔ fields.map Field.name = fields'.map Field.name := by
  refine ⟨fun delimiter value hdelimiter => ?_, readNames_fillableList, fun fields fields' =>
    ⟨fun h => ?_, fun h => ?_⟩⟩
  · have hread := readLiteral_literalWith hdelimiter value.toList []
    rw [List.append_nil] at hread
    rw [quoteWith, String.toList_ofList, String.toList_singleton, hread]
  · have hnames := readNames_fillableList fields
    rw [h, readNames_fillableList] at hnames
    exact (Option.some.inj hnames).symm
  · rw [fillableList_eq, fillableList_eq, h]

/-- A text that ends in a backslash and has the delimiter and the text of a separator in it. -/
theorem quoted_read_back_backslash : '"' ≠ '\\' ∧
    readLiteral '"' (quoteWith (String.singleton '"') "a\", \"b\\").toList = some ("a\", \"b\\".toList, []) ∧
    readNames (fillableList [⟨"a', 'b\\", "string"⟩, ⟨"\\'", "text"⟩]) = some ["a', 'b\\", "\\'"] := by
  obtain ⟨hliteral, hlist, -⟩ := quoted_read_back
  exact ⟨by decide, hliteral '"' _ (by decide), hlist _⟩

end CrudScaffold.Code
