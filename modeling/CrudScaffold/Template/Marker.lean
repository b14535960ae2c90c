import CrudScaffold.Text.Blank

/-!
# CrudScaffold.Template.Marker — cutting a template into literals and markers

A marker is a name between double braces, with optional blanks on both sides of the name.  `segments` cuts a text
from the left: wherever a marker starts it is taken as a whole, and any other character is a literal.
-/

namespace CrudScaffold.Template

open CrudScaffold.Text

/-- A marker, with the blanks that stand before and after its name. -/
structure Marker where
  before : List Char
  name : List Char
  after : List Char
  deriving DecidableEq, Repr

/-- A marker as it stands in the text. -/
def Marker.written (m : Marker) : List Char :=
  '\x7b' :: '\x7b' :: m.before ++ m.name ++ m.after ++ ['\x7d', '\x7d']

/-- A character that may start the name of a placeholder. -/
def startsName (c : Char) : Bool := c.isAlpha || c == '_'

/-- A character that may continue the name of a placeholder. -/
def continuesName (c : Char) : Bool := c.isAlphanum || c == '_'

/-- The marker at the head of a text. -/
def marker? (cs : List Char) : Option Marker :=
  match cs with
  | '\x7b' :: '\x7b' :: rest =>
    let before := rest.takeWhile isBlank
    let rest := rest.dropWhile isBlank
    let name := rest.takeWhile continuesName
    let rest := rest.dropWhile continuesName
    let after := rest.takeWhile isBlank
    match name, rest.dropWhile isBlank with
    | c :: _, '\x7d' :: '\x7d' :: _ => if startsName c then some ⟨before, name, after⟩ else none
    | _, _ => none
  | _ => none

/-- A piece of a template. -/
inductive Segment where
  | literal (c : Char)
  | marker (m : Marker)
  deriving DecidableEq, Repr

/-- A piece as it stands in the text. -/
def Segment.written : Segment → List Char
  | .literal c => [c]
  | .marker m => m.written

/-- Cuts a text into pieces, first passing over `skip` characters. -/
def segmentsFrom : Nat → List Char → List Segment
  | _, [] => []
  | skip + 1, _ :: cs => segmentsFrom skip cs
  | 0, c :: cs =>
    match marker? (c :: cs) with
    | some m => .marker m :: segmentsFrom (m.written.length - 1) cs
    | none => .literal c :: segmentsFrom 0 cs

/-- Cuts a text into pieces. -/
def segments (cs : List Char) : List Segment := segmentsFrom 0 cs

/-- The name of the placeholder of a piece. -/
def Segment.name? : Segment → Option String
  | .literal _ => none
  | .marker m => some (String.ofList m.name)

/-- The texts of a list, each once, in the order of first appearance. -/
def distinct (items : List String) : List String :=
  items.foldl (fun seen s => if seen.contains s then seen else seen ++ [s]) []

/-- The names of the placeholders of a text, each once, in the order of first appearance. -/
def placeholdersOf (text : String) : List String := distinct ((segments text.toList).filterMap Segment.name?)

end CrudScaffold.Template
