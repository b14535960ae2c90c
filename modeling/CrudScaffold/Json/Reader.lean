import CrudScaffold.Data.Value
import CrudScaffold.Number.Binary
import CrudScaffold.Text.Utf8

/-!
# CrudScaffold.Json.Reader — reading JSON

The grammar of JSON with three additions: `NaN`, `Infinity` and `-Infinity` are numbers.  A number with a point
or an exponent is a floating-point number, any other is a whole number of any size up to the digit limit.  Lists and maps
are read one inside the other as deep as `nesting` allows.
-/

namespace CrudScaffold.Json

open CrudScaffold.Data CrudScaffold.Number CrudScaffold.Text

/-- A value, and what follows it. -/
abbrev Read (α : Type) := Except ReadError (α × List Char)

/-- White space between tokens. -/
def isSpace (c : Char) : Bool := c == ' ' || c == '\t' || c == '\n' || c == '\r'

/-- What follows the white space. -/
def skipSpace (cs : List Char) : List Char := cs.dropWhile isSpace

/-- The value of a hexadecimal digit. -/
def hexValue (c : Char) : Option Nat :=
  if c.isDigit then some (c.toNat - 48)
  else if 'a' ≤ c ∧ c ≤ 'f' then some (c.toNat - 87)
  else if 'A' ≤ c ∧ c ≤ 'F' then some (c.toNat - 55)
  else none

/-- The value of four hexadecimal digits. -/
def hex4 (a b c d : Char) : Option Nat := do
  return (((← hexValue a) * 16 + (← hexValue b)) * 16 + (← hexValue c)) * 16 + (← hexValue d)

/-- The character that a one-letter escape stands for. -/
def simpleEscape : Char → Option Char
  | '"' => some '"'
  | '\\' => some '\\'
  | '/' => some '/'
  | 'b' => some (Char.ofNat 8)
  | 'f' => some (Char.ofNat 12)
  | 'n' => some '\n'
  | 'r' => some '\r'
  | 't' => some '\t'
  | _ => none

/-- The rest of a text after its opening quote; `pending` is a high surrogate that waits for its other half. -/
def readText (pending : Option Nat) : List Char → Read (List Char)
  | [] => .error .malformed
  | '"' :: rest => .ok (flush pending [], rest)
  | '\\' :: 'u' :: a :: b :: c :: d :: rest =>
    match hex4 a b c d with
    | none => .error .malformed
    | some n =>
      match pending with
      | some high =>
        if isLowSurrogate n then (readText none rest).map fun (cs, r) => (joinSurrogates high n :: cs, r)
        else if isHighSurrogate n then (readText (some n) rest).map fun (cs, r) => (flush pending cs, r)
        else (readText none rest).map fun (cs, r) => (flush pending (charOfNumber n :: cs), r)
      | none =>
        if isHighSurrogate n then readText (some n) rest
        else (readText none rest).map fun (cs, r) => (charOfNumber n :: cs, r)
  | '\\' :: c :: rest =>
    match simpleEscape c with
    | none => .error .malformed
    | some e => (readText none rest).map fun (cs, r) => (flush pending (e :: cs), r)
  | c :: rest =>
    if c.toNat < 32 ∨ c = '\\' then .error .malformed
    else (readText none rest).map fun (cs, r) => (flush pending (c :: cs), r)
where
  /-- A high surrogate without its other half is written as the replacement character. -/
  flush : Option Nat → List Char → List Char
    | none, cs => cs
    | some _, cs => replacement :: cs

/-- The value of decimal digits. -/
def digitsValue (cs : List Char) : Nat := cs.foldl (fun n c => 10 * n + (c.toNat - 48)) 0

/-- The fraction of a number: a point and at least one digit. -/
def readFraction : List Char → Option (List Char × List Char)
  | '.' :: rest =>
    let digits := rest.takeWhile Char.isDigit
    if digits.isEmpty then none else some (digits, rest.dropWhile Char.isDigit)
  | _ => none

/-- The exponent of a number: the letter, an optional sign and at least one digit. -/
def readExponent : List Char → Option (Int × List Char)
  | e :: rest =>
    if e = 'e' ∨ e = 'E' then
      let (negative, body) := match rest with
        | '-' :: r => (true, r)
        | '+' :: r => (false, r)
        | r => (false, r)
      let digits := body.takeWhile Char.isDigit
      if digits.isEmpty then none
      else
        let n : Int := digitsValue digits
        some (if negative then -n else n, body.dropWhile Char.isDigit)
    else none
  | [] => none

/-- A number, `negative` telling whether a minus sign came before it. -/
def readNumber (negative : Bool) (cs : List Char) : Read Value :=
  let digits := cs.takeWhile Char.isDigit
  let whole := if digits.head? = some '0' then ['0'] else digits
  if whole.isEmpty then .error .malformed
  else
    let rest := cs.drop whole.length
    let fraction := readFraction rest
    let afterFraction := (fraction.map (·.2)).getD rest
    let exponent := readExponent afterFraction
    let afterExponent := (exponent.map (·.2)).getD afterFraction
    if fraction.isNone && exponent.isNone then
      if digitLimit < whole.length then .error (.value (.tooManyDigits whole.length))
      else
        let n : Int := digitsValue whole
        .ok (.int (if negative then -n else n), rest)
    else
      let places := (fraction.map (·.1)).getD []
      let power := (exponent.map (·.1)).getD 0
      .ok (.float (ofDecimal negative (digitsValue (whole ++ places)) (power - places.length)), afterExponent)

/-- What follows a fixed word. -/
def expect (word : List Char) (cs : List Char) : Option (List Char) :=
  if word.isPrefixOf cs then some (cs.drop word.length) else none

/-- A value without parts. -/
def readScalar (cs : List Char) : Read Value :=
  let words : List (String × Value) := [("null", .null), ("true", .bool true), ("false", .bool false),
    ("NaN", .float notANumber), ("Infinity", .float infinity), ("-Infinity", .float (-infinity))]
  match words.findSome? fun (w, v) => (expect w.toList cs).map (v, ·) with
  | some r => .ok r
  | none => match cs with
    | '-' :: rest => readNumber true rest
    | _ => readNumber false cs

mutual

/-- A value at the head of a text, whose lists and maps may be nested `nesting` deep.  Each call hands a smaller `depth`
on; a depth above the length of the text is never reached. -/
def readValue (nesting depth : Nat) (cs : List Char) : Read Value :=
  match depth with
  | 0 => .error .malformed
  | depth + 1 =>
    match cs with
    | '"' :: rest => (readText none rest).map fun (s, r) => (.text (String.ofList s), r)
    | '[' :: rest =>
      match nesting with
      | 0 => .error (.value (.tooDeep "array"))
      | nesting + 1 =>
        match skipSpace rest with
        | ']' :: r => .ok (.list [], r)
        | r => (readItems nesting depth r).map fun (items, r) => (.list items, r)
    | '\x7b' :: rest =>
      match nesting with
      | 0 => .error (.value (.tooDeep "object"))
      | nesting + 1 =>
        match skipSpace rest with
        | '\x7d' :: r => .ok (.map [], r)
        | r => (readEntries nesting depth r).map fun (entries, r) => (Value.mapOf entries, r)
    | _ => readScalar cs

/-- The elements of a list up to its closing bracket. -/
def readItems (nesting depth : Nat) (cs : List Char) : Read (List Value) :=
  match depth with
  | 0 => .error .malformed
  | depth + 1 =>
    (readValue nesting depth cs).bind fun (v, r) =>
      match skipSpace r with
      | ',' :: r => (readItems nesting depth (skipSpace r)).map fun (vs, r) => (v :: vs, r)
      | ']' :: r => .ok ([v], r)
      | _ => .error .malformed

/-- The entries of a map up to its closing brace. -/
def readEntries (nesting depth : Nat) (cs : List Char) : Read (List (Value × Value)) :=
  match depth with
  | 0 => .error .malformed
  | depth + 1 =>
    match cs with
    | '"' :: rest =>
      (readText none rest).bind fun (key, r) =>
        match skipSpace r with
        | ':' :: r =>
          (readValue nesting depth (skipSpace r)).bind fun (v, r) =>
            let e := (Value.text (String.ofList key), v)
            match skipSpace r with
            | ',' :: r => (readEntries nesting depth (skipSpace r)).map fun (es, r) => (e :: es, r)
            | '\x7d' :: r => .ok ([e], r)
            | _ => .error .malformed
        | _ => .error .malformed
    | _ => .error .malformed

end

/-- Reads a JSON text that holds one value and nothing else. -/
def read (nesting : Nat) (s : String) : Except ReadError Value :=
  let cs := s.toList
  match readValue nesting (cs.length + 2) (skipSpace cs) with
  | .error e => .error e
  | .ok (v, rest) => if (skipSpace rest).isEmpty then .ok v else .error .malformed

theorem read_ofList {nesting : Nat} {cs r : List Char} {v : Value}
    (h : readValue nesting (cs.length + 2) (skipSpace cs) = .ok (v, r)) (hend : skipSpace r = []) :
    read nesting (String.ofList cs) = .ok v := by
  simp [read, h, hend]

end CrudScaffold.Json
