import CrudScaffold.Yaml.Scalar

/-!
# CrudScaffold.Yaml.Token — the tokens of a YAML text

Block collections are marked by indentation.  `tokensOf` makes their beginnings and ends explicit, and puts a `key` in
front of every node that turns out to be one when its colon follows: until then the node is a candidate.  A candidate
must be followed by its colon on the same line.  A text that breaks off with a fault still has the tokens in front of
the fault.
-/

namespace CrudScaffold.Yaml

open CrudScaffold.Data

/-- A token. -/
inductive Token where
  | documentStart
  | documentEnd
  | blockList
  | blockMap
  | blockEnd
  | listOpen
  | listClose
  | mapOpen
  | mapClose
  | comma
  | entry
  | key
  | value
  | alias (name : String)
  | anchor (name : String)
  | plain (text : String)
  | quoted (text : String)
  deriving DecidableEq, Repr

/-- Tokens, and the fault that keeps what follows them from being read. -/
structure Tokens where
  items : List Token
  fault? : Option ReadError
  deriving DecidableEq, Repr

/-- A node that is a key if a colon follows. -/
structure Candidate where
  /-- The number of flow collections around it. -/
  depth : Nat
  /-- The number of tokens before it. -/
  position : Nat
  /-- Nothing but a key may stand here. -/
  required : Bool
  at_ : Cursor

/-- How far a text has been turned into tokens. -/
structure Scan where
  at_ : Cursor
  /-- The tokens so far, the latest one first. -/
  back : List Token
  /-- The number of flow collections around the place. -/
  depth : Nat
  /-- The indentation of the innermost block collection, and those of the ones around it. -/
  indent : Int
  outer : List Int
  /-- A key may begin here. -/
  keyAllowed : Bool
  candidates : List Candidate

namespace Scan

/-- The start of a text. -/
def start (cs : List Char) : Scan := ⟨.start cs, [], 0, -1, [], true, []⟩

/-- Adds a token. -/
def push (t : Token) (s : Scan) : Scan := { s with back := t :: s.back }

/-- Skips characters. -/
def skip (n : Nat) (s : Scan) : Scan := { s with at_ := s.at_.skip n }

/-- Allows or forbids a key at the place. -/
def allowKey (allowed : Bool) (s : Scan) : Scan := { s with keyAllowed := allowed }

/-- The place is outside of all flow collections. -/
def isBlock (s : Scan) : Bool := s.depth = 0

/-- Skips spaces, comments and line breaks; tells whether there was a line break. -/
def skipGap (comment broken : Bool) : List Char → List Char × Bool
  | [] => ([], broken)
  | c :: r =>
    if isBreak c then skipGap false true r
    else if comment then skipGap true broken r
    else if c = ' ' then skipGap false broken r
    else if c = '#' then skipGap true broken r
    else (c :: r, broken)

/-- Goes to the next token.  A new line outside of flow collections may begin with a key. -/
def toToken (s : Scan) : Scan :=
  let here := if s.at_.index = 0 ∧ s.at_.rest.head? = some (Char.ofNat 0xfeff) then s.at_.next else s.at_
  let (rest, broken) := skipGap false false here.rest
  { s with at_ := here.reach rest, keyAllowed := s.keyAllowed || (broken && s.isBlock) }

/-- The longest text that a candidate may have. -/
def keyLimit : Nat := 1024

/-- The candidate can no longer be followed by its colon. -/
def isStale (s : Scan) (c : Candidate) : Bool :=
  c.at_.line ≠ s.at_.line || c.at_.index + keyLimit < s.at_.index

/-- Drops the candidates that are stale; fails if one of them had to be a key. -/
def dropStale (s : Scan) : Except ReadError Scan :=
  if s.candidates.any fun c => s.isStale c && c.required then throw .malformed
  else return { s with candidates := s.candidates.filter fun c => !s.isStale c }

/-- Drops the candidate at the present depth; fails if it had to be a key. -/
def dropCandidate (s : Scan) : Except ReadError Scan :=
  if s.candidates.any fun c => c.depth = s.depth && c.required then throw .malformed
  else return { s with candidates := s.candidates.filter fun c => c.depth ≠ s.depth }

/-- Makes the next node a candidate if a key may begin here. -/
def addCandidate (s : Scan) : Except ReadError Scan := do
  if s.keyAllowed then
    let s ← s.dropCandidate
    let required := s.isBlock && s.indent = s.at_.column
    return { s with candidates := ⟨s.depth, s.back.length, required, s.at_⟩ :: s.candidates }
  else return s

/-- Ends the block collections that are indented deeper than `column`. -/
def unwind (column : Int) : Nat → Scan → Scan
  | 0, s => s
  | n + 1, s =>
    if s.isBlock ∧ column < s.indent then
      match s.outer with
      | [] => s
      | i :: rest => unwind column n { s with indent := i, outer := rest, back := .blockEnd :: s.back }
    else s

/-- Ends the block collections that are indented deeper than `column`. -/
def unwindTo (column : Int) (s : Scan) : Scan := unwind column s.outer.length s

/-- Begins a block collection at a column, unless the innermost one is indented as deep; `position` is the number of
tokens in front of it. -/
def beginBlock (t : Token) (column : Int) (position : Nat) (s : Scan) : Scan :=
  if s.isBlock ∧ s.indent < column then
    let later := s.back.length - position
    { s with
      indent := column
      outer := s.indent :: s.outer
      back := s.back.take later ++ t :: s.back.drop later }
  else s

/-- Ends all block collections at a mark between documents, or at the end. -/
def endBlocks (s : Scan) : Except ReadError Scan := do
  let s ← (s.unwindTo (-1)).dropCandidate
  return s.allowKey false

/-- A mark between documents. -/
def documentMark (t : Token) (s : Scan) : Except ReadError Scan := do
  let s ← s.endBlocks
  return (s.push t).skip 3

/-- The beginning of a flow collection. -/
def openFlow (t : Token) (s : Scan) : Except ReadError Scan := do
  let s ← s.addCandidate
  return (({ s with depth := s.depth + 1 }.allowKey true).push t).skip 1

/-- The end of a flow collection. -/
def closeFlow (t : Token) (s : Scan) : Except ReadError Scan := do
  if s.isBlock then throw .malformed
  else
    let s ← s.dropCandidate
    return (({ s with depth := s.depth - 1 }.allowKey false).push t).skip 1

/-- The comma between two elements of a flow collection. -/
def flowComma (s : Scan) : Except ReadError Scan := do
  let s ← (s.allowKey true).dropCandidate
  return (s.push .comma).skip 1

/-- The dash before an element of a block list. -/
def dash (s : Scan) : Except ReadError Scan := do
  if s.isBlock ∧ !s.keyAllowed then throw .malformed
  else
    let s ← ((s.beginBlock .blockList s.at_.column s.back.length).allowKey true).dropCandidate
    return (s.push .entry).skip 1

/-- The question mark before a key. -/
def questionMark (s : Scan) : Except ReadError Scan := do
  if s.isBlock ∧ !s.keyAllowed then throw .malformed
  else
    let s ← ((s.beginBlock .blockMap s.at_.column s.back.length).allowKey s.isBlock).dropCandidate
    return (s.push .key).skip 1

/-- The colon before a value.  It makes the candidate before it a key. -/
def colon (s : Scan) : Except ReadError Scan := do
  match s.candidates.find? (·.depth = s.depth) with
  | some c =>
    let later := s.back.length - c.position
    let keyed := { s with
      back := s.back.take later ++ Token.key :: s.back.drop later
      candidates := s.candidates.filter (·.depth ≠ s.depth) }
    return (((keyed.beginBlock .blockMap c.at_.column c.position).allowKey false).push .value).skip 1
  | none =>
    if s.isBlock ∧ !s.keyAllowed then throw .malformed
    else
      let s ← ((s.beginBlock .blockMap s.at_.column s.back.length).allowKey s.isBlock).dropCandidate
      return (s.push .value).skip 1

/-- A character of an anchor's name. -/
def isNameChar (c : Char) : Bool := c.isAlphanum || c == '-' || c == '_'

/-- An anchor or an alias. -/
def named (make : String → Token) (s : Scan) : Except ReadError Scan := do
  let s := (← s.addCandidate).allowKey false
  let name := (s.at_.rest.drop 1).takeWhile isNameChar
  let s := s.skip (1 + name.length)
  let ends := match s.at_.rest with
    | [] => true
    | c :: _ => isGap c || "?:,]\x7d%@`".toList.contains c
  if name.isEmpty || !ends then throw .malformed else return s.push (make (String.ofList name))

/-- A quoted scalar. -/
def quotedScalar (double : Bool) (s : Scan) : Except ReadError Scan := do
  let s := (← s.addCandidate).allowKey false
  let (text, rest) ← quotedText double (s.at_.rest.drop 1)
  return { s with at_ := s.at_.reach rest }.push (.quoted (String.ofList text))

/-- A plain scalar. -/
def plainScalar (s : Scan) : Except ReadError Scan := do
  let s ← s.addCandidate
  let p := plainText (!s.isBlock) (s.indent + 1) s.at_
  return ({ s with at_ := p.after }.allowKey p.broken).push (.plain (String.ofList p.text))

/-- A block scalar. -/
def blockScalar (folded : Bool) (s : Scan) : Except ReadError Scan := do
  let s ← (s.allowKey true).dropCandidate
  match blockText folded s.indent (s.at_.skip 1) with
  | some (text, after) => return { s with at_ := after }.push (.quoted (String.ofList text))
  | none => throw .malformed

/-- A character that may begin a plain scalar. -/
def beginsPlain (block : Bool) (c : Char) (r : List Char) : Bool :=
  if isGap c then false
  else if "-?:,[]\x7b\x7d#&*!|>\'\"%@`".toList.contains c then
    !endsWord r && (c == '-' || (block && (c == '?' || c == ':')))
  else true

/-- Reads the token at the place. -/
def token (s : Scan) : Except ReadError Scan :=
  match s.at_.rest with
  | [] => return s
  | c :: r =>
    let here := s.at_
    if here.column = 0 ∧ c = '-' ∧ atDocumentMark here.rest then s.documentMark .documentStart
    else if here.column = 0 ∧ c = '.' ∧ atDocumentMark here.rest then s.documentMark .documentEnd
    else if c = '[' then s.openFlow .listOpen
    else if c = '\x7b' then s.openFlow .mapOpen
    else if c = ']' then s.closeFlow .listClose
    else if c = '\x7d' then s.closeFlow .mapClose
    else if c = ',' then s.flowComma
    else if c = '-' ∧ endsWord r then s.dash
    else if c = '?' ∧ (!s.isBlock || endsWord r) then s.questionMark
    else if c = ':' ∧ (!s.isBlock || endsWord r) then s.colon
    else if c = '*' then s.named .alias
    else if c = '&' then s.named .anchor
    else if c = '|' ∧ s.isBlock then s.blockScalar false
    else if c = '>' ∧ s.isBlock then s.blockScalar true
    else if c = '\'' then s.quotedScalar false
    else if c = '"' then s.quotedScalar true
    else if beginsPlain s.isBlock c r then s.plainScalar
    else throw .malformed

/-- The number of tokens that no colon can change any more: those in front of the first candidate. -/
def settledCount (s : Scan) : Nat :=
  (s.candidates.filter fun c => !s.isStale c).foldr (fun c n => min c.position n) s.back.length

/-- Reads one more token; tells whether the text is over. -/
def step (s : Scan) : Except ReadError (Scan × Bool) := do
  let s ← s.toToken.dropStale
  let s := s.unwindTo s.at_.column
  if s.at_.rest.isEmpty then return (← s.endBlocks, true) else return (← s.token, false)

/-- Reads the remaining tokens.  Each token takes at least one character, so the length of the text is enough
`fuel`. -/
def run : Nat → Scan → Tokens
  | 0, s => ⟨s.back.reverse, some .malformed⟩
  | fuel + 1, s =>
    match s.step with
    | .error e => ⟨s.back.reverse.take s.settledCount, some e⟩
    | .ok (s, true) => ⟨s.back.reverse, none⟩
    | .ok (s, false) => run fuel s

end Scan

/-- The tokens of a text. -/
def tokensOf (cs : List Char) : Tokens :=
  if cs.all isAllowed then Scan.run (cs.length + 1) (.start cs) else ⟨[], some .malformed⟩

end CrudScaffold.Yaml
