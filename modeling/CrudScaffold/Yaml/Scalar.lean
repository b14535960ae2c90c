import CrudScaffold.Data.Value
import CrudScaffold.Text.Utf8
import CrudScaffold.Yaml.Cursor

/-!
# CrudScaffold.Yaml.Scalar — the text of YAML scalars

A scalar may run over several lines.  In a plain or quoted scalar one line break counts as a space, and each further
one as a line break; blanks around a line break do not count.  A block scalar keeps its lines; a folded block joins
lines that start with text.  The separators of lines and of paragraphs break lines too, but are never dropped.

* `quotedText`: what stands between two quotes.
* `plainText`: a scalar without quotes.
* `blockText`: the indented lines after `|` or `>`.
-/

namespace CrudScaffold.Yaml

open CrudScaffold.Data CrudScaffold.Text

/-- The text of a gap in which the line breaks `further` follow the line break `first`. -/
def foldedBreaks (first : Char) (further : List Char) : List Char :=
  if first ≠ '\n' then first :: further else if further.isEmpty then [' '] else further

/-! ### Quoted scalars -/

/-- The character that an escape of one letter stands for. -/
def escapedChar (c : Char) : Option Char :=
  [('0', Char.ofNat 0), ('a', Char.ofNat 7), ('b', Char.ofNat 8), ('t', '\t'), ('\t', '\t'), ('n', '\n'),
    ('v', Char.ofNat 11), ('f', Char.ofNat 12), ('r', '\r'), ('e', Char.ofNat 27), (' ', ' '), ('"', '"'),
    ('\\', '\\'), ('/', '/'), ('N', Char.ofNat 0x85), ('_', Char.ofNat 0xa0), ('L', Char.ofNat 0x2028),
    ('P', Char.ofNat 0x2029)].lookup c

/-- The number of hexadecimal digits after an escape letter. -/
def escapeWidth (c : Char) : Option Nat := [('x', 2), ('u', 4), ('U', 8)].lookup c

/-- The value of a hexadecimal digit. -/
def hexDigit (c : Char) : Option Nat :=
  if c.isDigit then some (c.toNat - 48)
  else if 'a' ≤ c ∧ c ≤ 'f' then some (c.toNat - 87)
  else if 'A' ≤ c ∧ c ≤ 'F' then some (c.toNat - 55)
  else none

/-- The number that is written in the first `width` hexadecimal digits, and what follows them. -/
def hexNumber (width : Nat) (cs : List Char) : Option (Nat × List Char) := do
  let digits := cs.take width
  if digits.length < width then none
  else
    let values ← digits.mapM hexDigit
    return (values.foldl (fun n d => 16 * n + d) 0, cs.drop width)

/-- The second half of a character in an escape at the head of a text, and what follows the escape. -/
def lowHalf : List Char → Option (Nat × List Char)
  | '\\' :: e :: r => do
    let (n, rest) ← hexNumber (← escapeWidth e) r
    if isLowSurrogate n then some (n, rest) else none
  | _ => none

/-- The character whose number is written in `width` hexadecimal digits, and what follows.  The first half of a
character takes the second one from the escape behind it. -/
def hexChar (width : Nat) (cs : List Char) : Except ReadError (Char × List Char) :=
  match hexNumber width cs with
  | none => .error .malformed
  | some (n, rest) =>
    if 0x7fffffff < n then .error (.value .hugeCharacter)
    else if 0x10ffff < n then .error (.value .noCharacter)
    else match if isHighSurrogate n then lowHalf rest else none with
      | some (low, after) => .ok (joinSurrogates n low, after)
      | none => .ok (charOfNumber n, rest)

/-- Where the reading of a quoted scalar stands. -/
inductive QuotedState where
  /-- Within a line, after blanks that count only if text follows. -/
  | within (blanks : List Char)
  /-- After a line break and further ones. -/
  | broken (first : Char) (further : List Char)
  /-- After an escaped line break and further ones. -/
  | joined (further : List Char)

/-- What comes before the next piece of text. -/
def QuotedState.gap : QuotedState → List Char
  | .within blanks => blanks
  | .broken first further => foldedBreaks first further
  | .joined further => further

/-- The state after a line break. -/
def QuotedState.lineBreak (c : Char) : QuotedState → QuotedState
  | .within _ => .broken c []
  | .broken first further => .broken first (further ++ [c])
  | .joined further => .joined (further ++ [c])

/-- The state after a blank. -/
def QuotedState.blank (c : Char) : QuotedState → QuotedState
  | .within blanks => .within (blanks ++ [c])
  | s => s

/-- Reads a quoted scalar up to its closing quote: its text, and what follows the quote.  Each call hands on a smaller
`fuel`, of which the length of the text is enough. -/
def readQuoted (double : Bool) : Nat → QuotedState → List Char → Except ReadError (List Char × List Char)
  | 0, _, _ => .error .malformed
  | _, _, [] => .error .malformed
  | fuel + 1, state, c :: r =>
    let text (piece rest : List Char) : Except ReadError (List Char × List Char) :=
      (readQuoted double fuel (.within []) rest).map fun (tail, after) => (state.gap ++ piece ++ tail, after)
    if isBreak c then
      if atDocumentMark r then .error .malformed else readQuoted double fuel (state.lineBreak (breakChar c)) r
    else if c = ' ' ∨ c = '\t' then readQuoted double fuel (state.blank c) r
    else if double then
      if c = '"' then .ok (state.gap, r)
      else if c = '\\' then
        match r with
        | [] => .error .malformed
        | e :: r =>
          if isBreak e then
            if atDocumentMark r then .error .malformed
            else (readQuoted double fuel (.joined []) r).map fun (tail, after) => (state.gap ++ tail, after)
          else match escapedChar e, escapeWidth e with
            | some d, _ => text [d] r
            | none, some width => (hexChar width r).bind fun (d, rest) => text [d] rest
            | none, none => .error .malformed
      else text [c] r
    else if c = '\'' then
      match r with
      | '\'' :: r => text [c] r
      | _ => .ok (state.gap, r)
    else text [c] r

/-- The text of the quoted scalar whose opening quote has been read, and what follows it. -/
def quotedText (double : Bool) (cs : List Char) : Except ReadError (List Char × List Char) :=
  readQuoted double (cs.length + 1) (.within []) cs

/-! ### Plain scalars -/

/-- A colon that ends a plain scalar: a gap follows, or in a flow collection one of its marks. -/
def colonEnds (flow : Bool) : List Char → Bool
  | [] => true
  | c :: _ => isGap c || (flow && ",[]\x7b\x7d".toList.contains c)

/-- The characters of a plain scalar up to the next gap. -/
def plainRun (flow : Bool) : List Char → List Char
  | [] => []
  | c :: r =>
    if isGap c || (c == ':' && colonEnds flow r) || (flow && ",?[]\x7b\x7d".toList.contains c) then []
    else c :: plainRun flow r

/-- Skips the empty lines in a plain scalar: their line breaks, and what follows; none if a mark between documents
follows. -/
def emptyLines (breaks : List Char) : List Char → Option (List Char) × List Char
  | [] => (some breaks, [])
  | c :: r =>
    if c = ' ' then emptyLines breaks r
    else if isBreak c then
      if atDocumentMark r then (none, r) else emptyLines (breaks ++ [breakChar c]) r
    else (some breaks, c :: r)

/-- The gap after a piece of a plain scalar: its text, the place after it, and whether it holds a line break.  A gap
without text ends the scalar. -/
def plainGap (c : Cursor) : List Char × Cursor × Bool :=
  let blanks := c.rest.takeWhile (· == ' ')
  let c := c.skip blanks.length
  match c.rest with
  | [] => (blanks, c, false)
  | b :: r =>
    if isBreak b then
      if atDocumentMark r then ([], c.next, true)
      else match emptyLines [] r with
        | (some further, rest) => (foldedBreaks (breakChar b) further, c.reach rest, true)
        | (none, rest) => ([], c.reach rest, true)
    else (blanks, c, false)

/-- A plain scalar as far as it is read. -/
structure PlainText where
  text : List Char
  after : Cursor
  /-- A line break stands between the scalar and the place after it. -/
  broken : Bool

/-- Reads the remaining pieces of a plain scalar, which goes on in lines that are indented by `indent` at least. -/
def readPlain (flow : Bool) (indent : Int) : Nat → PlainText → List Char → PlainText
  | 0, p, _ => p
  | fuel + 1, p, gap =>
    let run := plainRun flow p.after.rest
    if run.isEmpty || p.after.head? == some '#' then p
    else
      let (nextGap, after, broken) := plainGap (p.after.skip run.length)
      let p := ⟨p.text ++ gap ++ run, after, broken⟩
      if nextGap.isEmpty || after.head? == some '#' || (!flow && after.column < indent) then p
      else readPlain flow indent fuel p nextGap

/-- The plain scalar at a place. -/
def plainText (flow : Bool) (indent : Int) (c : Cursor) : PlainText :=
  readPlain flow indent (c.rest.length + 1) ⟨[], c, false⟩ []

/-! ### Block scalars -/

/-- What happens to the line breaks at the end of a block scalar. -/
inductive Chomping where
  | strip
  | clip
  | keep
  deriving DecidableEq, Repr

/-- The chomping that a mark asks for. -/
def Chomping.ofMark? : Char → Option Chomping
  | '-' => some .strip
  | '+' => some .keep
  | _ => none

/-- An indentation that a mark asks for. -/
def indentMark? (c : Char) : Option Nat := if c.isDigit then some (c.toNat - 48) else none

/-- The marks after `|` or `>`, in any order, and what follows them. -/
def blockMarks (cs : List Char) : Option (Chomping × Option Nat × List Char) :=
  let chomp (cs : List Char) : Chomping × List Char := match cs with
    | c :: r => match Chomping.ofMark? c with
      | some k => (k, r)
      | none => (.clip, cs)
    | [] => (.clip, [])
  let deepen (cs : List Char) : Option Nat × List Char := match cs with
    | c :: r => match indentMark? c with
      | some n => (some n, r)
      | none => (none, cs)
    | [] => (none, [])
  let (chomping, indentation, rest) :=
    match deepen cs with
    | (some n, r) => ((chomp r).1, some n, (chomp r).2)
    | (none, _) => ((chomp cs).1, (deepen (chomp cs).2).1, (deepen (chomp cs).2).2)
  if indentation = some 0 ∨ !(endsWord rest && rest.head? != some '\t') then none
  else some (chomping, indentation, rest)

/-- The rest of the line after the marks may only hold a comment. -/
def afterMarks (c : Cursor) : Option Cursor :=
  let c := c.skip (c.rest.takeWhile (· == ' ')).length
  let c := if c.head? == some '#' then c.skip (c.rest.takeWhile fun a => !isBreak a).length else c
  if endsLine c.rest then some c.next else none

/-- Skips blank lines and leading spaces: the line breaks and the greatest column. -/
def leadingLines : Nat → List Char → Nat → Cursor → List Char × Nat × Cursor
  | 0, breaks, widest, c => (breaks, widest, c)
  | fuel + 1, breaks, widest, c =>
    match c.head? with
    | none => (breaks, widest, c)
    | some a =>
      if a = ' ' then leadingLines fuel breaks (max widest c.next.column) c.next
      else if isBreak a then leadingLines fuel (breaks ++ [breakChar a]) widest c.next
      else (breaks, widest, c)

/-- Skips blank lines and as many leading spaces as the indentation has: the line breaks. -/
def blankLines (indent : Nat) : Nat → List Char → Cursor → List Char × Cursor
  | 0, breaks, c => (breaks, c)
  | fuel + 1, breaks, c =>
    match c.head? with
    | none => (breaks, c)
    | some a =>
      if a = ' ' ∧ c.column < indent then blankLines indent fuel breaks c.next
      else if isBreak a then blankLines indent fuel (breaks ++ [breakChar a]) c.next
      else (breaks, c)

/-- The line break at a place, if there is one. -/
def lineBreakText (c : Cursor) : List Char := (c.rest.take 1).map breakChar

/-- Reads the lines of a block scalar, before which the blank lines `breaks` stand. -/
def readBlock (folded : Bool) (chomping : Chomping) (indent : Nat) : Nat → List Char → Cursor → List Char × Cursor
  | 0, _, c => ([], c)
  | fuel + 1, breaks, c =>
    if c.column ≠ indent ∨ c.rest.isEmpty then
      (if chomping = .keep then breaks else [], c)
    else
      let line := c.rest.takeWhile fun a => !isBreak a
      let atEnd := c.skip line.length
      let ending := lineBreakText atEnd
      let (further, after) := blankLines indent (atEnd.rest.length + 1) [] atEnd.next
      let body := breaks ++ line
      let isText (a : Option Char) : Bool := a != some ' ' && a != some '\t'
      if after.column = indent ∧ !after.rest.isEmpty then
        let joint :=
          if folded && ending == ['\n'] && isText line.head? && isText after.head? then
            if further.isEmpty then [' '] else []
          else ending
        let (tail, last) := readBlock folded chomping indent fuel further after
        (body ++ joint ++ tail, last)
      else
        let close := if chomping = .strip then [] else ending
        let blank := if chomping = .keep then further else []
        (body ++ close ++ blank, after)

/-- The text of the block scalar whose `|` or `>` has been read, and the place after it; `indent` is the indentation
of the collection in which it stands. -/
def blockText (folded : Bool) (indent : Int) (c : Cursor) : Option (List Char × Cursor) := do
  let (chomping, deeper, rest) ← blockMarks c.rest
  let c ← afterMarks (c.reach rest)
  let least := max 1 (indent + 1).toNat
  let fuel := c.rest.length + 1
  return match deeper with
    | some n =>
      let width := least + n - 1
      let (breaks, c) := blankLines width fuel [] c
      readBlock folded chomping width fuel breaks c
    | none =>
      let (breaks, widest, c) := leadingLines fuel [] 0 c
      readBlock folded chomping (max least widest) fuel breaks c

end CrudScaffold.Yaml
