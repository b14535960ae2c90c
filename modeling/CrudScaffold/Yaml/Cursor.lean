/-!
# CrudScaffold.Yaml.Cursor — places in a YAML text, and the classes of its characters
-/

namespace CrudScaffold.Yaml

/-- A line break. -/
def isBreak (c : Char) : Bool := c == '\n' || c.toNat == 0x85 || c.toNat == 0x2028 || c.toNat == 0x2029

/-- The text of a line break: the separators of lines and of paragraphs stay what they are. -/
def breakChar (c : Char) : Char := if c.toNat = 0x2028 ∨ c.toNat = 0x2029 then c else '\n'

/-- A space, a tab or a line break. -/
def isGap (c : Char) : Bool := c == ' ' || c == '\t' || isBreak c

/-- A word ends here: the text is over, or a gap follows. -/
def endsWord : List Char → Bool
  | [] => true
  | c :: _ => isGap c

/-- A line ends here. -/
def endsLine : List Char → Bool
  | [] => true
  | c :: _ => isBreak c

/-- A character that may stand in a YAML text. -/
def isAllowed (c : Char) : Bool :=
  let n := c.toNat
  n == 9 || n == 10 || n == 13 || (0x20 ≤ n && n ≤ 0x7e) || n == 0x85 || (0xa0 ≤ n && n ≤ 0xd7ff) ||
    (0xe000 ≤ n && n ≤ 0xfffd) || 0x10000 ≤ n

/-- The text goes on with a mark between documents. -/
def atDocumentMark : List Char → Bool
  | '-' :: '-' :: '-' :: r => endsWord r
  | '.' :: '.' :: '.' :: r => endsWord r
  | _ => false

/-- A place in a text: what follows it, its line and column, and the number of characters before it. -/
structure Cursor where
  rest : List Char
  line : Nat
  column : Nat
  index : Nat
  deriving DecidableEq, Repr

namespace Cursor

/-- The start of a text. -/
def start (cs : List Char) : Cursor := ⟨cs, 0, 0, 0⟩

/-- The place after the next character. -/
def next (c : Cursor) : Cursor :=
  match c.rest with
  | [] => c
  | a :: r =>
    if isBreak a then ⟨r, c.line + 1, 0, c.index + 1⟩
    else if a.toNat = 0xfeff then ⟨r, c.line, c.column, c.index + 1⟩
    else ⟨r, c.line, c.column + 1, c.index + 1⟩

/-- The place after the next `n` characters. -/
def skip : Nat → Cursor → Cursor
  | 0, c => c
  | n + 1, c => skip n c.next

/-- The place from which `rest` follows. -/
def reach (c : Cursor) (rest : List Char) : Cursor := c.skip (c.rest.length - rest.length)

/-- The next character. -/
def head? (c : Cursor) : Option Char := c.rest.head?

end Cursor

end CrudScaffold.Yaml
