import CrudScaffold.Data.Value
import CrudScaffold.Number.Written

/-!
# CrudScaffold.Json.Printer — writing JSON

A value is written on one line, or with each element on a line of its own, indented by its depth.
-/

namespace CrudScaffold.Json

open CrudScaffold.Data

/-- How JSON is written: the indentation of one level (one line if there is none), and whether characters beyond
ASCII are escaped. -/
structure Style where
  indent : Option Nat
  asciiOnly : Bool

/-- Four lowercase hexadecimal digits. -/
def hexUnit (n : Nat) : List Char :=
  let digits := Nat.toDigits 16 n
  '\\' :: 'u' :: List.replicate (4 - digits.length) '0' ++ digits

/-- One character inside a text. -/
def escapeChar (asciiOnly : Bool) (c : Char) : List Char :=
  if c = '"' then ['\\', '"']
  else if c = '\\' then ['\\', '\\']
  else if c = '\n' then ['\\', 'n']
  else if c = '\r' then ['\\', 'r']
  else if c = '\t' then ['\\', 't']
  else if c.toNat = 8 then ['\\', 'b']
  else if c.toNat = 12 then ['\\', 'f']
  else if c.toNat < 32 then hexUnit c.toNat
  else if asciiOnly && 126 < c.toNat then
    if c.toNat < 0x10000 then hexUnit c.toNat
    else
      let n := c.toNat - 0x10000
      hexUnit (0xd800 + n / 0x400) ++ hexUnit (0xdc00 + n % 0x400)
  else [c]

/-- A text between quotes. -/
def quoted (asciiOnly : Bool) (s : String) : String :=
  String.ofList ('"' :: s.toList.flatMap (escapeChar asciiOnly) ++ ['"'])

/-- A floating-point number. -/
def numberText (x : Float) : String :=
  match Number.Reading.of x with
  | .nan => "NaN"
  | .infinite negative => if negative then "-Infinity" else "Infinity"
  | .finite .. => Number.shortest x

/-- The line break and indentation in front of an element at `depth`, nothing on one line. -/
def Style.lead (style : Style) (depth : Nat) : String :=
  match style.indent with
  | none => ""
  | some width => "\n" ++ String.ofList (List.replicate (width * depth) ' ')

/-- What separates two elements, before the lead of the second. -/
def Style.separator (style : Style) : String := if style.indent.isSome then "," else ", "

mutual

/-- A value whose elements stand at `depth`. -/
def writeAt (style : Style) (depth : Nat) : Value → String
  | .null => "null"
  | .bool b => if b then "true" else "false"
  | .int n => toString n
  | .float x => numberText x
  | .timestamp t => quoted style.asciiOnly t.text
  | .text s => quoted style.asciiOnly s
  -- JSON has nothing for the values of other kinds
  | .bytes _ => "null"
  | .foreign _ => "null"
  | .list [] => "[]"
  | .list (v :: vs) =>
    "[" ++ style.lead depth ++ writeAt style (depth + 1) v ++ writeItems style depth vs ++ style.lead (depth - 1) ++ "]"
  | .map [] => "\x7b\x7d"
  | .map ((k, v) :: es) =>
    "\x7b" ++ style.lead depth ++ writeKey style k ++ ": " ++ writeAt style (depth + 1) v ++
      writeEntries style depth es ++ style.lead (depth - 1) ++ "\x7d"

/-- The elements of a list after the first. -/
def writeItems (style : Style) (depth : Nat) : List Value → String
  | [] => ""
  | v :: vs => style.separator ++ style.lead depth ++ writeAt style (depth + 1) v ++ writeItems style depth vs

/-- The entries of a map after the first. -/
def writeEntries (style : Style) (depth : Nat) : List (Value × Value) → String
  | [] => ""
  | (k, v) :: es =>
    style.separator ++ style.lead depth ++ writeKey style k ++ ": " ++ writeAt style (depth + 1) v ++
      writeEntries style depth es

/-- A key is written as a text. -/
def writeKey (style : Style) : Value → String
  | .text s => quoted style.asciiOnly s
  | .bool b => if b then "\"true\"" else "\"false\""
  | .int n => quoted style.asciiOnly (toString n)
  | .float x => quoted style.asciiOnly (numberText x)
  | .timestamp t => quoted style.asciiOnly t.text
  | _ => "\"null\""

end

/-- Writes a value as JSON. -/
def write (style : Style) (v : Value) : String := writeAt style 1 v

end CrudScaffold.Json
