import CrudScaffold.Data.Shape
import CrudScaffold.Text.Blank

/-!
# CrudScaffold.Yaml.PlainValue — what a plain scalar means

A scalar without quotes is a truth value, nothing, a number or a date if it is written like one, and a text otherwise.

* Whole numbers: decimal, `0b` binary, `0x` hexadecimal, octal after a leading `0`, and parts of sixty after colons.
* Floating-point numbers need a point, and a sign in the exponent: `1e3` is a text.
* Underscores between digits do not count.
* A day is written `year-month-day`; a time of day may follow, with its zone.
-/

namespace CrudScaffold.Yaml

open CrudScaffold.Data CrudScaffold.Number

/-- The words for truth values. -/
def switchWords : List (String × Bool) :=
  (["yes", "Yes", "YES", "true", "True", "TRUE", "on", "On", "ON"].map (·, true)) ++
    (["no", "No", "NO", "false", "False", "FALSE", "off", "Off", "OFF"].map (·, false))

/-- The words for nothing. -/
def nullWords : List String := ["", "~", "null", "Null", "NULL"]

/-- A sign in front of a number, and what follows it. -/
def splitSign : List Char → Bool × List Char
  | '-' :: r => (true, r)
  | '+' :: r => (false, r)
  | r => (false, r)

/-- A digit or an underscore. -/
def isDigitMark (c : Char) : Bool := c.isDigit || c == '_'

/-- The characters without underscores. -/
def withoutMarks (cs : List Char) : List Char := cs.filter (· != '_')

/-- The value of digits in a base. -/
def valueIn (base : Nat) (cs : List Char) : Nat :=
  cs.foldl (fun n c => base * n + (if c.isDigit then c.toNat - 48 else c.toLower.toNat - 87)) 0

/-- A hexadecimal digit. -/
def isHex (c : Char) : Bool := c.isDigit || ('a' ≤ c.toLower && c.toLower ≤ 'f')

/-- One or two digits that count up to 59. -/
def isSixtieth : List Char → Bool
  | [a] => a.isDigit
  | [a, b] => '0' ≤ a && a ≤ '5' && b.isDigit
  | _ => false

/-- Digits that begin with another digit than zero. -/
def isCounting : List Char → Bool
  | c :: r => c.isDigit && c != '0' && r.all isDigitMark
  | [] => false

/-- The value of decimal digits, of which there must not be too many. -/
def decimal (digits : List Char) : Except ValueFault Nat :=
  if digitLimit < digits.length then .error (.tooManyDigits digits.length) else .ok (Json.digitsValue digits)

/-- The value of digits in a base, of which there must be one at least. -/
def natIn (base : Nat) (digits : List Char) : Except ValueFault Nat :=
  if digits.isEmpty then .error (.noDigits base) else .ok (valueIn base digits)

/-- The value of parts, each of which counts a sixtieth of the one before it. -/
def sixties (parts : List (List Char)) : Except ValueFault Nat :=
  parts.foldlM (fun n p => return 60 * n + (← decimal (withoutMarks p))) 0

/-- A whole number without its sign. -/
def natural (cs : List Char) : Option (Except ValueFault Nat) :=
  match cs with
  | ['0'] => some (.ok 0)
  | '0' :: 'b' :: r =>
    if !r.isEmpty && r.all (fun c => c == '0' || c == '1' || c == '_') then some (natIn 2 (withoutMarks r)) else none
  | '0' :: 'x' :: r =>
    if !r.isEmpty && r.all (fun c => isHex c || c == '_') then some (natIn 16 (withoutMarks r)) else none
  | '0' :: r =>
    if r.all (fun c => ('0' ≤ c && c ≤ '7') || c == '_') then some (.ok (valueIn 8 (withoutMarks r))) else none
  | _ =>
    if isCounting cs then some (decimal (withoutMarks cs))
    else match Text.cutAll ':' cs with
      | first :: second :: more =>
        if isCounting first && (second :: more).all isSixtieth then some (sixties (first :: second :: more)) else none
      | _ => none

/-- The exponent of a floating-point number, whose sign must be written. -/
def signedExponent : List Char → Option Int
  | [] => some 0
  | e :: s :: r =>
    if (e = 'e' ∨ e = 'E') ∧ (s = '+' ∨ s = '-') ∧ !r.isEmpty ∧ r.all Char.isDigit then
      let n : Int := Json.digitsValue r
      some (if s = '-' then -n else n)
    else none
  | _ => none

/-- Adds up parts, the last one first, each of which counts sixty times as much as the one before it; `unit` is what
the first of them counts.  Every step is rounded. -/
def sixtiesFrom (unit : Nat) (sum : Float) : List Float → Except ValueFault Float
  | [] => .ok sum
  | part :: parts =>
    let factor := ofWhole unit
    if factor.isInf then .error .tooLarge else sixtiesFrom (60 * unit) (sum + part * factor) parts

/-- A floating-point number in parts of sixty, without its sign. -/
def fractionInSixties (parts : List (List Char)) : Option (Except ValueFault Float) :=
  match parts.head?, parts.getLast? with
  | some first, some last =>
    let lastWhole := last.takeWhile Char.isDigit
    match last.dropWhile Char.isDigit with
    | '.' :: places =>
      if (first.head?.map Char.isDigit).getD false && first.all isDigitMark &&
          (parts.drop 1).dropLast.all isSixtieth && isSixtieth lastWhole && places.all isDigitMark then
        let digits := withoutMarks places
        let wholes := parts.dropLast.map fun p => ofDecimal false (Json.digitsValue (withoutMarks p)) 0
        some (sixtiesFrom 1 0.0
          (ofDecimal false (Json.digitsValue (lastWhole ++ digits)) (-digits.length) :: wholes.reverse))
      else none
    | _ => none
  | _, _ => none

/-- A floating-point number without its sign. -/
def fraction (signWritten : Bool) (cs : List Char) : Option (Except ValueFault Float) :=
  let whole := cs.takeWhile isDigitMark
  match cs.dropWhile isDigitMark with
  | '.' :: r =>
    let places := r.takeWhile isDigitMark
    let wellFormed := match whole with
      | [] => !signWritten && (places.head?.map Char.isDigit).getD false
      | c :: _ => c.isDigit
    if wellFormed then do
      let power ← signedExponent (r.dropWhile isDigitMark)
      let digits := withoutMarks places
      return .ok (ofDecimal false (Json.digitsValue (withoutMarks whole ++ digits)) (power - digits.length))
    else none
  | ':' :: _ => match Text.cutAll ':' cs with
    | first :: second :: more => fractionInSixties (first :: second :: more)
    | _ => none
  | _ => none

/-- A floating-point number. -/
def floating (cs : List Char) : Option (Except ValueFault Float) :=
  let (negative, body) := splitSign cs
  let signWritten := body.length < cs.length
  let word := String.ofList body
  let unsigned : Option (Except ValueFault Float) :=
    if [".inf", ".Inf", ".INF"].contains word then some (.ok infinity)
    else if [".nan", ".NaN", ".NAN"].contains word then if signWritten then none else some (.ok Number.notANumber)
    else fraction signWritten body
  unsigned.map fun r => r.map fun x => if negative then -x else x

/-- A number whose count of digits is among the allowed ones, and what follows it. -/
def digitsOf (least most : Nat) (cs : List Char) : Option (Nat × List Char) :=
  let run := (cs.take most).takeWhile Char.isDigit
  if least ≤ run.length then some (Json.digitsValue run, cs.drop run.length) else none

/-- What follows a fixed character. -/
def past (c : Char) : List Char → Option (List Char)
  | a :: r => if a = c then some r else none
  | [] => none

/-- A day, and what follows it; `strict` asks for two digits of month and day. -/
def dayOf (strict : Bool) (cs : List Char) : Option (Timestamp × List Char) := do
  let least := if strict then 2 else 1
  let (year, r) ← digitsOf 4 4 cs
  let (month, r) ← digitsOf least 2 (← past '-' r)
  let (day, r) ← digitsOf least 2 (← past '-' r)
  return (⟨year, month, day, none⟩, r)

/-- A space or a tab. -/
def isBlank (c : Char) : Bool := c == ' ' || c == '\t'

/-- The zone at the end of a moment, after optional blanks: nothing, a `Z`, or a distance in hours and minutes. -/
def zoneOf (cs : List Char) : Option (Option Int) :=
  match cs, cs.dropWhile isBlank with
  | [], _ => some none
  | _, ['Z'] => some (some 0)
  | _, s :: zone =>
    if s = '+' ∨ s = '-' then do
      let (hours, r) ← digitsOf 1 2 zone
      let minutes ← match r with
        | [] => some 0
        | ':' :: r => match ← digitsOf 2 2 r with
          | (minutes, []) => some minutes
          | _ => none
        | _ => none
      let distance : Int := hours * 60 + minutes
      return some (if s = '-' then -distance else distance)
    else none
  | _, [] => none

/-- A time of day with an optional zone.  Six places of a second count. -/
def timeOf (cs : List Char) : Option ClockTime := do
  let (hour, r) ← digitsOf 1 2 cs
  let (minute, r) ← digitsOf 2 2 (← past ':' r)
  let (second, r) ← digitsOf 2 2 (← past ':' r)
  let (places, r) := match r with
    | '.' :: r => (r.takeWhile Char.isDigit, r.dropWhile Char.isDigit)
    | r => ([], r)
  let micro := Json.digitsValue ((places ++ List.replicate 6 '0').take 6)
  return ⟨hour, minute, second, micro, ← zoneOf r⟩

/-- What follows the mark between a day and a time: a `T`, or blanks. -/
def pastDayMark : List Char → Option (List Char)
  | c :: r => if c = 'T' ∨ c = 't' then some r else if isBlank c then some (r.dropWhile isBlank) else none
  | [] => none

/-- A day, or a moment of a day. -/
def timestampOf (cs : List Char) : Option Timestamp :=
  match dayOf true cs with
  | some (day, []) => some day
  | _ => do
    let (day, r) ← dayOf false cs
    return { day with time := some (← timeOf (← pastDayMark r)) }

/-- The key under which the entries of other maps are taken over. -/
def mergeKey : String := "<<"

/-- A mark that is a text as a key. -/
def valueKey : String := "="

/-- Plain scalars that are no values. -/
def marks : List String := [mergeKey, valueKey]

/-- The value of a number or a timestamp. -/
def writtenValue (s : String) : Option (Except ValueFault Value) :=
  let cs := s.toList
  let (negative, body) := splitSign cs
  let float := (floating cs).map fun r => r.map Value.float
  let int := (natural body).map fun r => r.map fun n => Value.int (if negative then -(n : Int) else n)
  let timestamp := (timestampOf cs).map fun t => match t.fault? with
    | some f => .error (.timestamp f)
    | none => .ok (.timestamp t)
  float.or (int.or timestamp)

/-- The value of a plain scalar. -/
def plainValue (s : String) : Except ReadError Value :=
  match switchWords.lookup s with
  | some b => .ok (.bool b)
  | none =>
    if nullWords.contains s then .ok .null
    else if marks.contains s then .error .malformed
    else match writtenValue s with
      | some (.ok v) => .ok v
      | some (.error f) => .error (.value f)
      | none => .ok (.text s)

end CrudScaffold.Yaml
