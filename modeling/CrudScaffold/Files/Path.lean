import CrudScaffold.Text.Blank

/-!
# CrudScaffold.Files.Path — paths as text

A path is a root and a list of names.  Reading a path drops empty names and `.`; `..` is kept, since what it leads to
depends on the tree.  A path that starts with exactly two slashes keeps both.
-/

namespace CrudScaffold.Files

open CrudScaffold.Text

/-- Where a path starts. -/
inductive Anchor where
  | here
  | top
  | doubleTop
  deriving DecidableEq, Repr

/-- The text of an anchor. -/
def Anchor.text : Anchor → String
  | .here => ""
  | .top => "/"
  | .doubleTop => "//"

/-- A path in normal form. -/
structure Path where
  anchor : Anchor
  names : List String
  deriving DecidableEq, Repr

namespace Path

/-- The names between the slashes of a text, without empty ones and `.`. -/
def namesOf (s : String) : List String := (splitAll '/' s).filter fun n => n ≠ "" && n ≠ "."

/-- Reads a path. -/
def ofString (s : String) : Path where
  anchor :=
    match s.toList with
    | '/' :: '/' :: '/' :: _ => .top
    | '/' :: '/' :: _ => .doubleTop
    | '/' :: _ => .top
    | _ => .here
  names := namesOf s

/-- The path as text; the empty relative path is `.`. -/
def toString (p : Path) : String :=
  if p.anchor = .here ∧ p.names = [] then "." else p.anchor.text ++ "/".intercalate p.names

instance : ToString Path := ⟨toString⟩

/-- A path that does not depend on the working directory. -/
def isAbsolute (p : Path) : Bool := p.anchor ≠ .here

/-- `q` as seen from `p`: an absolute `q` replaces `p`. -/
def join (p q : Path) : Path := if q.isAbsolute then q else { p with names := p.names ++ q.names }

/-- The path of an entry of the directory `p`. -/
def child (p : Path) (name : String) : Path := p.join (ofString name)

/-- The last name, empty if there is none. -/
def name (p : Path) : String := p.names.getLast?.getD ""

/-- The path without its last name. -/
def parent (p : Path) : Path := { p with names := p.names.dropLast }

/-- The ending of the last name from its last point on, if something stands before and after the point. -/
def suffix (p : Path) : String :=
  let back := p.name.toList.reverse
  let ending := back.takeWhile (· ≠ '.')
  if ending.length + 1 < back.length ∧ 0 < ending.length then String.ofList ('.' :: ending.reverse) else ""

/-- What remains of `p` below `base`. -/
def below? (base p : Path) : Option Path :=
  if p.anchor = base.anchor ∧ base.names.isPrefixOf p.names then
    some ⟨.here, p.names.drop base.names.length⟩
  else none

/-- `p` as seen from `base` if it lies below it, else `p` itself. -/
def shownFrom (base p : Path) : String := ((base.below? p).getD p).toString

/-- Adds names to a location; `..` goes back to the directory above. -/
def walkNames (start : List String) (names : List String) : List String :=
  names.foldl (fun at_ n => if n = ".." then at_.dropLast else at_ ++ [n]) start

/-- The location that a path names when it is seen from `start`, without looking at the tree. -/
def locationFrom (start : List String) (p : Path) : List String :=
  walkNames (if p.isAbsolute then [] else start) p.names

/-- The absolute path of a location. -/
def ofLocation (names : List String) : Path := ⟨.top, names⟩

/-- The absolute path without `..` that names the same place as `p` does from `start`. -/
def resolve (start : List String) (p : Path) : Path := ofLocation (p.locationFrom start)

/-- The path holds the character that no path may hold. -/
def hasNul (p : Path) : Bool := p.names.any fun n => n.toList.any (·.toNat = 0)

end Path

end CrudScaffold.Files
