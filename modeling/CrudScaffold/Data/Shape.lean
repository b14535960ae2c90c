import CrudScaffold.Data.Value
import CrudScaffold.Json.Reader
import CrudScaffold.Number.Written
import CrudScaffold.Text.Display
import CrudScaffold.Text.Utf8

/-!
# CrudScaffold.Data.Shape — reading a record from loosely typed values

A `Shape` lists the fields of a record in their order, each with the rule that turns a value into a new record.
`Shape.read` reads a whole map and reports every rejection: the declared fields first, in their order, then the
keys that the record does not know, in the order of the map.  `Shape.assign` sets one field of a record.

The rules for single values are those of pydantic in its lax mode, as its documentation has them: a switch may be given
as zero, one or a word for either, a duration as a text that holds a number, and bytes count as the text that they encode
(`Value.decoded`).  What a rule complains about has pydantic's identifier (`Complaint.label`).
-/

namespace CrudScaffold.Data

open CrudScaffold.Number

/-- What is wrong with a value. -/
inductive Complaint where
  | missing
  | notText
  /-- Bytes that encode no text. -/
  | notUnicode
  | emptyText
  | unknownKey
  | keyNotText
  | notAChoice
  | notASwitch
  | unknownSwitchWord
  | notANumber
  | unreadableNumber
  | notPositive
  | refused
  | unknownAttribute
  deriving DecidableEq, Repr

/-- The identifier of a complaint. -/
def Complaint.label : Complaint → String
  | .missing => "missing"
  | .notText => "string_type"
  | .notUnicode => "string_unicode"
  | .emptyText => "string_too_short"
  | .unknownKey => "extra_forbidden"
  | .keyNotText => "invalid_key"
  | .notAChoice => "enum"
  | .notASwitch => "bool_type"
  | .unknownSwitchWord => "bool_parsing"
  | .notANumber => "float_type"
  | .unreadableNumber => "float_parsing"
  | .notPositive => "greater_than"
  | .refused => "value_error"
  | .unknownAttribute => "no_such_attribute"

/-- A complaint about the value of a key. -/
structure Rejection where
  key : String
  complaint : Complaint
  deriving DecidableEq, Repr

/-- Rejections in one line. -/
def Rejection.listing (rejections : List Rejection) : String :=
  ", ".intercalate (rejections.map fun r => r.key ++ " (" ++ r.complaint.label ++ ")")

/-! ### Rules for single values -/

/-- A value as the rules see it: bytes are the text that they encode, if there is one. -/
def Value.decoded : Value → Value
  | .bytes content => match Text.Utf8.decode content with
    | .ok s => .text s
    | .error _ => .bytes content
  | v => v

/-- Any text. -/
def anyText : Value → Except Complaint String
  | .text s => .ok s
  | .bytes _ => .error .notUnicode
  | _ => .error .notText

/-- A text with at least one character. -/
def someText : Value → Except Complaint String
  | .text s => if s.isEmpty then .error .emptyText else .ok s
  | .bytes _ => .error .notUnicode
  | _ => .error .notText

/-- A text, or nothing. -/
def optionalText : Value → Except Complaint (Option String)
  | .null => .ok none
  | .text s => .ok (some s)
  | .bytes _ => .error .notUnicode
  | _ => .error .notText

/-- The switch position that a word names, in any letter case. -/
def switchWord (s : String) : Option Bool :=
  let word := String.ofList (s.toList.map Char.toLower)
  if ["true", "t", "yes", "y", "on", "1"].contains word then some true
  else if ["false", "f", "no", "n", "off", "0"].contains word then some false
  else none

/-- A whole number that fits into a machine word. -/
def isMachineWord (n : Int) : Bool := -(twoTo 63 : Int) ≤ n && n < twoTo 63

/-- A switch: a truth value, zero or one, or a word for either. -/
def switch : Value → Except Complaint Bool
  | .bool b => .ok b
  | .int n =>
    if n = 0 then .ok false
    else if n = 1 then .ok true
    else .error (if isMachineWord n then .unknownSwitchWord else .notASwitch)
  | .float x => if x == 0.0 then .ok false else if x == 1.0 then .ok true else .error .notASwitch
  | .text s => match switchWord s with
    | some b => .ok b
    | none => .error .unknownSwitchWord
  | .bytes _ => .error .unknownSwitchWord
  | _ => .error .notASwitch

/-- White space around a number in a text. -/
def isNumberSpace (c : Char) : Bool :=
  let n := c.toNat
  (9 ≤ n && n ≤ 13) || n == 32 || n == 0x85 || n == 0xa0 || n == 0x1680 || (0x2000 ≤ n && n ≤ 0x200a) ||
    n == 0x2028 || n == 0x2029 || n == 0x202f || n == 0x205f || n == 0x3000

/-- A decimal number without its sign: digits with an optional point among or beside them, and an exponent. -/
def readDecimal (negative : Bool) (cs : List Char) : Option Float :=
  let whole := cs.takeWhile Char.isDigit
  let rest := cs.dropWhile Char.isDigit
  let (places, rest) := match rest with
    | '.' :: r => (r.takeWhile Char.isDigit, r.dropWhile Char.isDigit)
    | r => ([], r)
  if whole.isEmpty && places.isEmpty then none
  else
    let value (power : Int) := ofDecimal negative (Json.digitsValue (whole ++ places)) (power - places.length)
    match rest with
    | [] => some (value 0)
    | _ => match Json.readExponent rest with
      | some (power, []) => some (value power)
      | _ => none

/-- A number in a text: a decimal number, or a word for infinity or for no number. -/
def readNumberText (cs : List Char) : Option Float :=
  let (negative, body) := match cs with
    | '-' :: r => (true, r)
    | '+' :: r => (false, r)
    | r => (false, r)
  let word := String.ofList (body.map Char.toLower)
  if word = "inf" ∨ word = "infinity" then some (if negative then -infinity else infinity)
  else if word = "nan" then some Number.notANumber
  else readDecimal negative body

/-- A text without the underscores between its characters; none if there is nothing to take out, or if an underscore
stands at an end or beside another. -/
def withoutUnderscores (cs : List Char) : Option (List Char) :=
  let doubled := (cs.zip (cs.drop 1)).any fun (a, b) => a == '_' && b == '_'
  if cs.head? = some '_' ∨ cs.getLast? = some '_' ∨ !cs.contains '_' ∨ doubled then none
  else some (cs.filter (· != '_'))

/-- A number given as a number, a truth value or a text. -/
def number : Value → Except Complaint Float
  | .bool b => .ok (if b then 1.0 else 0.0)
  | .float x => .ok x
  | .int n =>
    let x := ofWhole n
    if Reading.of x = .infinite (n < 0) then .error .notANumber else .ok x
  | .text s =>
    let cs := s.toList
    let trimmed := ((cs.dropWhile isNumberSpace).reverse.dropWhile isNumberSpace).reverse
    match (readNumberText trimmed).or ((withoutUnderscores cs).bind readNumberText) with
    | some x => .ok x
    | none => .error .unreadableNumber
  | .bytes _ => .error .unreadableNumber
  | _ => .error .notANumber

/-- A number above zero. -/
def positiveNumber (v : Value) : Except Complaint Float := do
  let x ← number v
  if 0.0 < x then return x else throw .notPositive

/-- One of the listed choices, by its exact label. -/
def oneOf {α : Type} (choices : List (String × α)) : Value → Except Complaint α
  | .text s => match choices.lookup s with
    | some a => .ok a
    | none => .error .notAChoice
  | _ => .error .notAChoice

/-! ### Records -/

/-- A field of a record of type `α`. -/
structure FieldRule (α : Type) where
  key : String
  required : Bool
  set : Value → α → Except Complaint α

/-- A record type as a list of field rules, and the record with all defaults. -/
structure Shape (α : Type) where
  start : α
  fields : List (FieldRule α)

namespace Shape

variable {α : Type}

/-- Reads one field of a map into a record; a rejection leaves the record as it is. -/
def readField (entries : List (Value × Value)) (state : α × List Rejection) (rule : FieldRule α) :
    α × List Rejection :=
  match Value.entry? entries rule.key with
  | none => if rule.required then (state.1, state.2 ++ [⟨rule.key, .missing⟩]) else state
  | some v => match rule.set v.decoded state.1 with
    | .ok a => (a, state.2)
    | .error c => (state.1, state.2 ++ [⟨rule.key, c⟩])

/-- How a key that is no text is shown. -/
def shownKey : Value → String
  | .text s => s
  | .null => "None"
  | .bool b => if b then "1" else "0"
  | .int n => toString n
  | .float x => shortest x
  | .timestamp t => t.display
  | .bytes content => Text.displayBytes content
  | .list _ => "[]"
  | .map _ => "\x7b\x7d"
  | .foreign kind => kind

/-- The complaint about a key that the record does not have. -/
def strangerRejection (shape : Shape α) (key : Value) : Option Rejection :=
  match key with
  | .text s => if shape.fields.any (·.key = s) then none else some ⟨s, .unknownKey⟩
  | other => some ⟨shownKey other, .keyNotText⟩

/-- Reads a whole map. -/
def read (shape : Shape α) (entries : List (Value × Value)) : Except (List Rejection) α :=
  let (a, rejections) := shape.fields.foldl (readField entries) (shape.start, [])
  match rejections ++ entries.filterMap fun e => shape.strangerRejection e.1 with
  | [] => .ok a
  | all => .error all

/-- Sets one field of a record. -/
def assign (shape : Shape α) (key : String) (v : Value) (a : α) : Except Rejection α :=
  match shape.fields.find? (·.key = key) with
  | none => .error ⟨key, .unknownAttribute⟩
  | some rule => match rule.set v.decoded a with
    | .ok b => .ok b
    | .error c => .error ⟨key, c⟩

end Shape

end CrudScaffold.Data
