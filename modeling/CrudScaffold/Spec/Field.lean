import CrudScaffold.Data.Shape
import CrudScaffold.Text.Blank
import CrudScaffold.Text.Display

/-!
# CrudScaffold.Spec.Field — the fields of an entity

A field spec is a comma-separated list of `name:type` tokens.  The first colon of a token ends the name; blanks around
a token, a name or a type do not count.  `parseFields` gives the fields in order, or the first token that breaks a
rule together with its position.
-/

namespace CrudScaffold.Spec

open CrudScaffold.Data CrudScaffold.Text

/-- One attribute of the entity. -/
structure Field where
  name : String
  type : String
  deriving DecidableEq, Repr

/-- A field as messages show it. -/
def Field.display (f : Field) : String := s!"<Field {f.name}:{f.type}>"

/-- A field given as a record. -/
def Field.shape : Shape Field where
  start := ⟨"", ""⟩
  fields := [
    ⟨"name", true, fun v f => return { f with name := ← someText v }⟩,
    ⟨"type", true, fun v f => return { f with type := ← someText v }⟩]

/-- Why a field spec is not read. -/
inductive FieldFault where
  /-- Nothing but blanks. -/
  | emptySpec (spec : String)
  | missingColon (position : Nat) (token : String)
  | emptyName (position : Nat) (token : String)
  | emptyType (position : Nat) (token : String)
  /-- The name of an earlier field, at position `first`. -/
  | duplicate (position : Nat) (token name : String) (first : Nat)
  deriving DecidableEq, Repr

/-- The token at fault. -/
def FieldFault.token : FieldFault → String
  | .emptySpec spec => spec
  | .missingColon _ t => t
  | .emptyName _ t => t
  | .emptyType _ t => t
  | .duplicate _ t _ _ => t

/-- The position of the token at fault, counted from one. -/
def FieldFault.position? : FieldFault → Option Nat
  | .emptySpec _ => none
  | .missingColon p _ => some p
  | .emptyName p _ => some p
  | .emptyType p _ => some p
  | .duplicate p _ _ _ => some p

/-- The wording of a fault. -/
def FieldFault.message : FieldFault → String
  | .emptySpec _ => "Field spec is empty; expected 'name:type[,name:type...]'."
  | .missingColon p t => s!"Field #{p} {Text.display t} is missing the ':' separator (expected 'name:type')."
  | .emptyName p t => s!"Field #{p} {Text.display t} has an empty name."
  | .emptyType p t => s!"Field #{p} {Text.display t} has an empty type."
  | .duplicate p _ name first => s!"Field #{p} {Text.display name} is already declared as field #{first}."

/-- The comma-separated tokens of a spec, without the blanks around each. -/
def tokens (spec : String) : List String := (cutAll ',' spec.toList).map fun t => String.ofList (trim t)

/-- Reads the token at `position`, where `earlier` are the fields before it. -/
def readField (earlier : List Field) (position : Nat) (token : String) : Except FieldFault Field :=
  match cutFirst ':' token.toList with
  | none => .error (.missingColon position token)
  | some (before, after) =>
    let name := String.ofList (trim before)
    let type := String.ofList (trim after)
    if name.isEmpty then .error (.emptyName position token)
    else if type.isEmpty then .error (.emptyType position token)
    else match earlier.findIdx? (·.name = name) with
      | some i => .error (.duplicate position token name (i + 1))
      | none => .ok ⟨name, type⟩

/-- Reads the remaining tokens of a spec. -/
def readFields (earlier : List Field) : List String → Except FieldFault (List Field)
  | [] => .ok earlier
  | t :: ts => do
    let f ← readField earlier (earlier.length + 1) t
    readFields (earlier ++ [f]) ts

/-- Reads a field spec; no spec at all counts as an empty one. -/
def parseFields (spec : Option String) : Except FieldFault (List Field) :=
  let text := spec.getD ""
  if isAllBlank text then .error (.emptySpec text) else readFields [] (tokens text)

end CrudScaffold.Spec
