import CrudScaffold.Code.Fragments

/-!
# CrudScaffold.Proofs.Code.Literals — literals read back

`readLiteral` reads a literal the way the generated code is read: a backslash stands for itself, except before a
backslash or the delimiter, where it makes that character a part of the text.  Writing a literal puts a backslash in
front of exactly these two (`literalWith_eq`), so reading gives the text back and stops at the end of the literal
(`readLiteral_literalWith`).
-/

namespace CrudScaffold.Code

/-! ### Reading -/

/-- Reads the rest of a literal: gives its text, and what stands behind its closing delimiter. -/
def readBody (delimiter : Char) : List Char → Option (List Char × List Char)
  | [] => none
  | '\\' :: c :: cs =>
    if c = '\\' ∨ c = delimiter then (readBody delimiter cs).map fun (text, rest) => (c :: text, rest)
    else (readBody delimiter (c :: cs)).map fun (text, rest) => ('\\' :: text, rest)
  | c :: cs =>
    if c = delimiter then some ([], cs)
    else (readBody delimiter cs).map fun (text, rest) => (c :: text, rest)

/-- Reads a literal with the delimiter. -/
def readLiteral (delimiter : Char) : List Char → Option (List Char × List Char)
  | [] => none
  | c :: cs => if c = delimiter then readBody delimiter cs else none

/-- The text is a single-quoted literal of the value, from its first character to its last. -/
def Denotes (literal value : String) : Prop := readLiteral '\'' literal.toList = some (value.toList, [])

instance (literal value : String) : Decidable (Denotes literal value) :=
  inferInstanceAs (Decidable (readLiteral '\'' literal.toList = some (value.toList, [])))

/-! ### Writing -/

/-- Replacing a single character treats each character on its own. -/
theorem replaceAll_singleton (c : Char) (by_ cs : List Char) :
    replaceAll [c] by_ cs = cs.flatMap fun d => if d = c then by_ else [d] := by
  show replaceFrom [c] by_ 0 cs = _
  induction cs with
  | nil => rfl
  | cons d cs ih =>
    rw [replaceFrom, List.flatMap_cons, List.length_singleton, ih]
    by_cases hd : d = c
    · simp [hd]
    · simp [hd, Ne.symm hd]

/-- A character as a literal has it. -/
def escaped (delimiter c : Char) : List Char := if c = '\\' ∨ c = delimiter then ['\\', c] else [c]

/-- A literal has a backslash in front of each backslash and each delimiter of its text. -/
theorem literalWith_eq {delimiter : Char} (h : delimiter ≠ '\\') (value : List Char) :
    literalWith [delimiter] value = delimiter :: (value.flatMap (escaped delimiter) ++ [delimiter]) := by
  have hescaped : replaceAll [delimiter] ['\\', delimiter] (replaceAll ['\\'] ['\\', '\\'] value) =
      value.flatMap (escaped delimiter) := by
    rw [replaceAll_singleton, replaceAll_singleton, List.flatMap_assoc]
    congr 1
    funext c
    by_cases hbackslash : c = '\\'
    · simp [escaped, hbackslash, h.symm]
    · by_cases hdelimiter : c = delimiter
      · simp [escaped, hdelimiter, h]
      · simp [escaped, hbackslash, hdelimiter]
  rw [literalWith, hescaped]
  rfl

theorem readBody_escaped {delimiter : Char} (h : delimiter ≠ '\\') (value rest : List Char) :
    readBody delimiter (value.flatMap (escaped delimiter) ++ delimiter :: rest) = some (value, rest) := by
  induction value with
  | nil => simp [readBody, h]
  | cons c value ih =>
    rw [List.flatMap_cons, List.append_assoc, escaped]
    by_cases hspecial : c = '\\' ∨ c = delimiter
    · simp [hspecial, readBody, ih]
    · obtain ⟨hbackslash, hdelimiter⟩ := not_or.1 hspecial
      simp [readBody, ih, hbackslash, hdelimiter]

/-- Reading a literal gives its text and what stands behind it. -/
theorem readLiteral_literalWith {delimiter : Char} (h : delimiter ≠ '\\') (value rest : List Char) :
    readLiteral delimiter (literalWith [delimiter] value ++ rest) = some (value, rest) := by
  rw [literalWith_eq h, List.cons_append, List.append_assoc, List.singleton_append, readLiteral, if_pos rfl,
    readBody_escaped h]

theorem denotes_quote (value : String) : Denotes (quote value) value := by
  have hquote : '\'' ≠ '\\' := by decide
  have hread := readLiteral_literalWith hquote value.toList []
  rw [List.append_nil] at hread
  rw [Denotes, quote, quoteWith, String.toList_ofList]
  exact hread

end CrudScaffold.Code
