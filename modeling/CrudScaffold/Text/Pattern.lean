/-!
# CrudScaffold.Text.Pattern — blocks of a text that follow a pattern

A pattern may be followed in several ways from one place of a text.  `Pattern.reaches` lists the places where it may
end, the preferred one first: of two alternatives the first is tried first, and a repetition takes as many characters
as it can before it gives some of them back.  The match at a place is the first way (`Pattern.first`).

A text is searched from left to right, and the search goes on behind each match (`Pattern.pieces`).  `Pattern.replace`
puts something else in the place of the matches, `Pattern.findAll` lists them.
-/

namespace CrudScaffold.Text

/-- A pattern that a block of a text may follow. -/
inductive Pattern where
  /-- One character of a class. -/
  | one (keep : Char → Bool)
  /-- Characters of a class, as many as there are at first. -/
  | many (keep : Char → Bool)
  | empty
  | seq (first second : Pattern)
  /-- The first pattern, or else the second. -/
  | either (first second : Pattern)
  /-- A part that is remembered. -/
  | group (inner : Pattern)
  /-- The pattern is followed from here on, but nothing is taken. -/
  | ahead (inner : Pattern)
  /-- A word begins or ends here. -/
  | edge (isWord : Char → Bool)
  /-- The start of the text. -/
  | start
  /-- The end of the text, or the place in front of its last line break. -/
  | finish

/-- A place in a text: the characters before it, the last one first, those behind it, and the parts that are
remembered. -/
structure Spot where
  back : List Char
  rest : List Char
  groups : List (List Char)
  deriving DecidableEq, Repr

/-- The places that characters of a class lead to, the farthest first. -/
def runs (keep : Char → Bool) (groups : List (List Char)) : List Char → List Char → List Spot
  | back, [] => [⟨back, [], groups⟩]
  | back, c :: cs =>
    if keep c then runs keep groups (c :: back) cs ++ [⟨back, c :: cs, groups⟩] else [⟨back, c :: cs, groups⟩]

namespace Pattern

/-- One character of a class and more of them. -/
def plus (keep : Char → Bool) : Pattern := .seq (.one keep) (.many keep)

/-- What follows the pattern, or nothing. -/
def maybe (inner : Pattern) : Pattern := .either inner .empty

/-- The places where a pattern may end that is followed from a place, the preferred one first. -/
def reaches : Pattern → Spot → List Spot
  | .one keep, s => match s.rest with
    | [] => []
    | c :: cs => if keep c then [⟨c :: s.back, cs, s.groups⟩] else []
  | .many keep, s => runs keep s.groups s.back s.rest
  | .empty, s => [s]
  | .seq p q, s => (reaches p s).flatMap fun t => reaches q t
  | .either p q, s => reaches p s ++ reaches q s
  | .group p, s =>
    (reaches p s).map fun t => { t with groups := t.groups ++ [s.rest.take (s.rest.length - t.rest.length)] }
  | .ahead p, s => if (reaches p s).isEmpty then [] else [s]
  | .edge isWord, s => if s.back.head?.any isWord = s.rest.head?.any isWord then [] else [s]
  | .start, s => if s.back.isEmpty then [s] else []
  | .finish, s => if s.rest = [] ∨ s.rest = ['\n'] then [s] else []

/-- Where the match at a place ends, if there is one. -/
def first (p : Pattern) (back rest : List Char) : Option Spot := (p.reaches ⟨back, rest, []⟩).head?

/-- A piece of a text that is searched: a character in no match, or a match with its remembered parts. -/
inductive Piece where
  | plain (c : Char)
  | hit (text : List Char) (groups : List (List Char))
  deriving DecidableEq, Repr

/-- The pieces of a text behind `back`, whose first `skip` characters are in the latest match.  A match must take a
character at least. -/
def pieces (p : Pattern) : Nat → List Char → List Char → List Piece
  | _, _, [] => []
  | skip + 1, back, c :: cs => pieces p skip (c :: back) cs
  | 0, back, c :: cs =>
    match (p.first back (c :: cs)).map fun s => (cs.length + 1 - s.rest.length, s.groups) with
    | some (n + 1, groups) => .hit (c :: cs.take n) groups :: pieces p n (c :: back) cs
    | _ => .plain c :: pieces p 0 (c :: back) cs

/-- A piece, with something else in the place of a match. -/
def Piece.written (write : List (List Char) → List Char) : Piece → List Char
  | .plain c => [c]
  | .hit _ groups => write groups

/-- A piece, if it is a match. -/
def Piece.found : Piece → List (List Char)
  | .plain _ => []
  | .hit text _ => [text]

/-- The text with something else in the place of each match, made of its remembered parts. -/
def replace (p : Pattern) (write : List (List Char) → List Char) (cs : List Char) : List Char :=
  (p.pieces 0 [] cs).flatMap (Piece.written write)

/-- The matches in a text. -/
def findAll (p : Pattern) (cs : List Char) : List (List Char) := (p.pieces 0 [] cs).flatMap Piece.found

end Pattern

end CrudScaffold.Text
