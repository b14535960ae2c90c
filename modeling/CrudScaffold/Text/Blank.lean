/-!
# CrudScaffold.Text.Blank — blank characters, cutting at a separator, and lines

* `isBlank`: the white space of the Unicode standard together with the four information separators.
* `trim` / `strip`: a text without the blanks at its two ends.
* `cutAll` / `cutFirst`: the pieces between the occurrences of a separator, or around its first occurrence.
* `lineCount`, `unifyLineEnds`: the number of lines, and one kind of line end for all.

The functions on `List Char` do the work; those on `String` only wrap them.
-/

namespace CrudScaffold.Text

/-- A blank is a character that trimming removes and that may stand inside a template marker. -/
def isBlank (c : Char) : Bool :=
  let n := c.toNat
  (9 ≤ n && n ≤ 13) || (28 ≤ n && n ≤ 32) || n == 0x85 || n == 0xa0 || n == 0x1680 ||
    (0x2000 ≤ n && n ≤ 0x200a) || n == 0x2028 || n == 0x2029 || n == 0x202f || n == 0x205f || n == 0x3000

/-- The text without its trailing blanks. -/
def trimEnd (cs : List Char) : List Char := (cs.reverse.dropWhile isBlank).reverse

/-- The text without the blanks at its two ends. -/
def trim (cs : List Char) : List Char := trimEnd (cs.dropWhile isBlank)

/-- The text without the blanks at its two ends. -/
def strip (s : String) : String := String.ofList (trim s.toList)

/-- A text of blanks only, the empty one included. -/
def isAllBlank (s : String) : Bool := s.toList.all isBlank

/-- The pieces between the occurrences of `sep`: one more than there are occurrences. -/
def cutAll (sep : Char) : List Char → List (List Char)
  | [] => [[]]
  | c :: cs =>
    if c = sep then [] :: cutAll sep cs
    else match cutAll sep cs with
      | [] => [[c]]
      | piece :: rest => (c :: piece) :: rest

theorem cutAll_ne_nil (sep : Char) (cs : List Char) : cutAll sep cs ≠ [] := by
  induction cs with
  | nil => simp [cutAll]
  | cons c cs ih =>
    unfold cutAll
    split
    · simp
    · split <;> simp

/-- The pieces of a text between the occurrences of `sep`. -/
def splitAll (sep : Char) (s : String) : List String := (cutAll sep s.toList).map String.ofList

/-- What stands before and after the first `sep`, if there is one. -/
def cutFirst (sep : Char) : List Char → Option (List Char × List Char)
  | [] => none
  | c :: cs => if c = sep then some ([], cs) else (cutFirst sep cs).map fun p => (c :: p.1, p.2)

/-- `inner` occurs in the text as a block. -/
def contains (inner : List Char) : List Char → Bool
  | [] => inner.isEmpty
  | c :: cs => inner.isPrefixOf (c :: cs) || contains inner cs

/-- `inner` occurs in the text as a block. -/
def hasPart (inner s : String) : Bool := contains inner.toList s.toList

/-- The text begins with `start`. -/
def beginsWith (start s : String) : Bool := start.toList.isPrefixOf s.toList

/-- Every occurrence of the character `a` is written as `b`. -/
def replaceChar (a : Char) (b : List Char) (s : String) : String :=
  String.ofList (s.toList.flatMap fun c => if c = a then b else [c])

/-- The number of bytes of a text in UTF-8. -/
def byteCount (s : String) : Nat := s.utf8ByteSize

/-! ### Lines -/

/-- The number of lines of a text: a last line without a line feed counts, the empty text has none. -/
def lineCount (s : String) : Nat :=
  let cs := s.toList
  match cs.getLast? with
  | none => 0
  | some last => cs.count '\n' + if last = '\n' then 0 else 1

/-- Every `CR LF` and every lone `CR` becomes `LF`. -/
def unifyLineEnds : List Char → List Char
  | [] => []
  | '\r' :: '\n' :: rest => '\n' :: unifyLineEnds rest
  | c :: rest => (if c = '\r' then '\n' else c) :: unifyLineEnds rest

end CrudScaffold.Text
