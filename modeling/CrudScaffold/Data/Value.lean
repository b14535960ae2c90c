import CrudScaffold.Data.Timestamp
import CrudScaffold.Number.Binary

/-!
# CrudScaffold.Data.Value — the values that a settings file can hold

A settings file, in JSON or in YAML, is read as a `Value`.  A map keeps its entries in the order in which their keys
first appear; a key that is given again takes the later value at its first place.  A reader may also refuse a text as
malformed, find something in it that stands for no value, or stop for another reason (`ReadError`).
-/

namespace CrudScaffold.Data

/-- The largest number of digits of a whole number. -/
def digitLimit : Nat := 4300

/-- Why a well-formed text stands for no value. -/
inductive ValueFault where
  | tooManyDigits (count : Nat)
  /-- A whole number in a base, without digits. -/
  | noDigits (base : Nat)
  /-- A whole number beyond all floating-point numbers. -/
  | tooLarge
  | timestamp (fault : TimestampFault)
  /-- The number of a character is beyond the last character. -/
  | noCharacter
  /-- The number of a character does not even fit into a machine word. -/
  | hugeCharacter
  /-- A list or a map, as `container` says, is nested too deep. -/
  | tooDeep (container : String)
  deriving DecidableEq, Repr

/-- The wording of a fault. -/
def ValueFault.message : ValueFault → String
  | .tooManyDigits n => s!"Exceeds the limit ({digitLimit} digits) for integer string conversion: value has {n} digits"
  | .noDigits base => s!"invalid literal for int() with base {base}: ''"
  | .tooLarge => "int too large to convert to float"
  | .timestamp f => f.message
  | .noCharacter => "chr() arg not in range(0x110000)"
  | .hugeCharacter => "int too large to convert to a character"
  | .tooDeep container => s!"maximum recursion depth exceeded while decoding a JSON {container} from a unicode string"

/-- What code from elsewhere raises: its kind and its text. -/
structure Raised where
  kind : String
  text : String
  deriving DecidableEq, Repr

/-- Why a text is not read as a value. -/
inductive ReadError where
  | malformed
  | value (fault : ValueFault)
  /-- The reader stops with something that is not an error of its own. -/
  | raised (x : Raised)
  deriving DecidableEq, Repr

/-- A value of a settings file. -/
inductive Value where
  | null
  | bool (b : Bool)
  | int (n : Int)
  | float (x : Float)
  | timestamp (t : Timestamp)
  | text (s : String)
  | bytes (content : ByteArray)
  | list (items : List Value)
  | map (entries : List (Value × Value))
  /-- A value of another kind, such as a set, or one that holds itself. -/
  | foreign (kind : String)

namespace Value

/-- The whole number that a value is equal to as a key. -/
def whole? : Value → Option Int
  | .int n => some n
  | .bool b => some (if b then 1 else 0)
  | _ => none

/-- Two keys of a map are the same key.  Whole numbers, truth values and floating-point numbers are compared by their
exact numeric value, and what is no number is the same as itself; lists, maps and values of other kinds are no keys. -/
def sameKey (a b : Value) : Bool :=
  match a, b with
  | .null, .null => true
  | .text s, .text t => s == t
  | .timestamp s, .timestamp t => s.same t
  | .bytes s, .bytes t => s.data == t.data
  | .float x, .float y => x == y || (x.isNaN && y.isNaN)
  | .float x, other => other.whole?.any (Number.isWhole x)
  | other, .float y => other.whole?.any (Number.isWhole y)
  | _, _ => match a.whole?, b.whole? with
    | some m, some n => m == n
    | _, _ => false

/-- Gives `key` the value `v`: in its place if it is there already, else at the end. -/
def putEntry (entries : List (Value × Value)) (key v : Value) : List (Value × Value) :=
  if entries.any fun e => sameKey e.1 key then
    entries.map fun e => if sameKey e.1 key then (e.1, v) else e
  else entries ++ [(key, v)]

/-- The value of a text key. -/
def entry? (entries : List (Value × Value)) (key : String) : Option Value :=
  (entries.find? fun e => sameKey e.1 (.text key)).map (·.2)

/-- The map with these entries, later ones overriding earlier ones. -/
def mapOf (entries : List (Value × Value)) : Value := .map (entries.foldl (fun m e => putEntry m e.1 e.2) [])

/-- A map from texts to values. -/
def record (fields : List (String × Value)) : Value := .map (fields.map fun (k, v) => (.text k, v))

/-- A list of texts. -/
def texts (items : List String) : Value := .list (items.map .text)

/-- The name of a value's kind in messages. -/
def kindName : Value → String
  | .null => "NoneType"
  | .bool _ => "bool"
  | .int _ => "int"
  | .float _ => "float"
  | .timestamp t => if t.time.isSome then "datetime" else "date"
  | .text _ => "str"
  | .bytes _ => "bytes"
  | .list _ => "list"
  | .map _ => "dict"
  | .foreign kind => kind

end Value

end CrudScaffold.Data
