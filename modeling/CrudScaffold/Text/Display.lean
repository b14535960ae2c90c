import CrudScaffold.Text.CharTable

/-!
# CrudScaffold.Text.Display — a text as messages show it

Messages show a text between quotes: single ones, or double ones when the text has a single quote and no double
one.  A backslash and the quote in use are escaped by a backslash; a character without a visible form is shown by
its code point, with two, four or eight hexadecimal digits.
-/

namespace CrudScaffold.Text

/-- A character that is shown as it stands. -/
def isVisible (c : Char) : Bool :=
  if c.toNat < 127 then 32 ≤ c.toNat
  else !(hiddenRanges.any fun (first, last) => first ≤ c.toNat && c.toNat ≤ last)

/-- The lowercase hexadecimal digits of `n`, filled with zeros to `width`. -/
def hexDigits (width n : Nat) : List Char :=
  let digits := Nat.toDigits 16 n
  List.replicate (width - digits.length) '0' ++ digits

/-- One character inside quotes `q`. -/
def displayChar (q c : Char) : List Char :=
  if c = q ∨ c = '\\' then ['\\', c]
  else if c = '\n' then ['\\', 'n']
  else if c = '\r' then ['\\', 'r']
  else if c = '\t' then ['\\', 't']
  else if isVisible c then [c]
  else if c.toNat < 0x100 then '\\' :: 'x' :: hexDigits 2 c.toNat
  else if c.toNat < 0x10000 then '\\' :: 'u' :: hexDigits 4 c.toNat
  else '\\' :: 'U' :: hexDigits 8 c.toNat

/-- The quote that a text is shown in. -/
def displayQuote (cs : List Char) : Char := if cs.contains '\'' && !cs.contains '"' then '"' else '\''

/-- A text as messages show it. -/
def display (s : String) : String :=
  let q := displayQuote s.toList
  String.ofList (q :: s.toList.flatMap (displayChar q) ++ [q])

/-- Bytes as messages show them: those of ASCII like a text, the others by their numbers. -/
def displayBytes (content : ByteArray) : String :=
  let cs := content.data.toList.map fun b => Char.ofNat b.toNat
  let q := displayQuote cs
  let shown := cs.flatMap fun c => if c.toNat < 128 then displayChar q c else '\\' :: 'x' :: hexDigits 2 c.toNat
  String.ofList ('b' :: q :: shown ++ [q])

/-- A list of texts as messages show it. -/
def displayList (items : List String) : String := "[" ++ ", ".intercalate (items.map display) ++ "]"

end CrudScaffold.Text
