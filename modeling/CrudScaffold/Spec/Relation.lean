import CrudScaffold.Journal
import CrudScaffold.Naming.Name
import CrudScaffold.Spec.Field

/-!
# CrudScaffold.Spec.Relation — the relations of an entity

A relation spec is a comma-separated list of `kind:related:foreignKey:localKey` tokens.  A token of an unknown kind is
left out with a warning, or is a fault when reading is strict.  The related entity must have a name from which an
accessor can be formed.
-/

namespace CrudScaffold.Spec

open CrudScaffold.Data CrudScaffold.Text CrudScaffold.Naming

/-- The kinds of relations. -/
inductive RelationKind where
  | hasMany
  | belongsTo
  | belongsToMany
  | hasOne
  deriving DecidableEq, Repr

namespace RelationKind

/-- All kinds, in the order in which messages list them. -/
def all : List RelationKind := [hasMany, belongsTo, belongsToMany, hasOne]

/-- The kind as it is written in specs and in the generated code. -/
def label : RelationKind → String
  | hasMany => "hasMany"
  | belongsTo => "belongsTo"
  | belongsToMany => "belongsToMany"
  | hasOne => "hasOne"

/-- A relation to several entities; its accessor has a plural name. -/
def isPlural : RelationKind → Bool
  | hasMany => true
  | belongsToMany => true
  | _ => false

/-- A relation that needs a join table. -/
def needsPivot : RelationKind → Bool
  | belongsToMany => true
  | _ => false

/-- The kind that a token names, in any letter case. -/
def ofToken? (token : String) : Option RelationKind :=
  let word := lower (strip token)
  all.find? fun k => lower k.label = word

/-- The labels of all kinds, as messages list them. -/
def labels : String := ", ".intercalate (all.map label)

end RelationKind

/-- An association of the entity with another one. -/
structure Relation where
  kind : RelationKind
  related : String
  foreignKey : String
  localKey : String
  deriving DecidableEq, Repr

namespace Relation

/-- A relation as messages show it. -/
def display (r : Relation) : String :=
  s!"<Relation {r.kind.label} {r.related} ({r.foreignKey}, {r.localKey})>"

/-- The method of the model that follows the relation: `user`, or `tags` if it leads to several. -/
def accessor (r : Relation) : Except NameFault String := do
  let base ← baseName r.related
  if r.kind.isPlural then pluralCamel base else camelCase base

/-- The class of the related entity in the generated code. -/
def relatedClass (r : Relation) : String := replaceChar '/' ['\\'] r.related

/-- A relation given as a record. -/
def shape : Shape Relation where
  start := ⟨.hasMany, "", "", ""⟩
  fields := [
    ⟨"kind", true, fun v r => return { r with kind := ← oneOf (RelationKind.all.map fun k => (k.label, k)) v }⟩,
    ⟨"related_entity", true, fun v r => return { r with related := ← someText v }⟩,
    ⟨"foreign_key", true, fun v r => return { r with foreignKey := ← someText v }⟩,
    ⟨"local_key", true, fun v r => return { r with localKey := ← someText v }⟩]

end Relation

/-- Why a relation spec is not read. -/
inductive RelationFault where
  | wrongCount (position : Nat) (token : String) (count : Nat)
  | emptyParts (position : Nat) (token : String) (parts : List String)
  | unknownKind (position : Nat) (token kind : String)
  | unusableName (position : Nat) (token related : String)
  deriving DecidableEq, Repr

/-- The token at fault. -/
def RelationFault.token : RelationFault → String
  | .wrongCount _ t _ => t
  | .emptyParts _ t _ => t
  | .unknownKind _ t _ => t
  | .unusableName _ t _ => t

/-- The position of the token at fault, counted from one. -/
def RelationFault.position : RelationFault → Nat
  | .wrongCount p _ _ => p
  | .emptyParts p _ _ => p
  | .unknownKind p _ _ => p
  | .unusableName p _ _ => p

/-- The wording of a fault. -/
def RelationFault.message : RelationFault → String
  | .wrongCount p t n =>
    s!"Relation #{p} {Text.display t} has {n} part(s); expected 4 ('kind:related:foreignKey:localKey')."
  | .emptyParts p t parts =>
    let list := ", ".intercalate parts
    s!"Relation #{p} {Text.display t} has an empty {list}."
  | .unknownKind p t kind =>
    s!"Relation #{p} {Text.display t} has unknown kind {Text.display kind}; expected one of: {RelationKind.labels}."
  | .unusableName p t related =>
    s!"Relation #{p} {Text.display t} names an unusable related entity {Text.display related}."

/-- What a token of a relation spec gives. -/
inductive RelationEntry where
  | relation (r : Relation)
  | skipped (token : String)
  deriving DecidableEq, Repr

/-- The relations of a spec, and the tokens left out for their unknown kind. -/
structure RelationList where
  relations : List Relation
  skipped : List String
  deriving DecidableEq, Repr

/-- The parts of a token, without the blanks around each. -/
def tokenParts (token : String) : List String := (cutAll ':' token.toList).map fun p => String.ofList (trim p)

/-- The names of the parts that are empty. -/
def emptyPartNames (parts : List String) : List String :=
  ((["kind", "related entity", "foreign key", "local key"].zip parts).filter (·.2.isEmpty)).map (·.1)

/-- An accessor can be formed from the last segment of this name. -/
def isUsable (related : String) : Bool :=
  match (baseName related).bind camelCase with
  | .ok _ => true
  | .error _ => false

/-- Reads the token at `position`. -/
def readRelation (strict : Bool) (position : Nat) (token : String) : Logged RelationFault RelationEntry :=
  let parts := tokenParts token
  match parts with
  | [kindToken, related, foreignKey, localKey] =>
    if (emptyPartNames parts).isEmpty then
      match RelationKind.ofToken? kindToken with
      | none =>
        if strict then throw (.unknownKind position token kindToken)
        else do
          note .warning .specs (s!"Skipping relation #{position} {Text.display token}: unknown kind " ++
            s!"{Text.display kindToken} (expected one of: {RelationKind.labels}).")
          return .skipped token
      | some kind =>
        if isUsable related then return .relation ⟨kind, related, foreignKey, localKey⟩
        else throw (.unusableName position token related)
    else throw (.emptyParts position token (emptyPartNames parts))
  | _ => throw (.wrongCount position token parts.length)

/-- Reads the tokens from `position` on. -/
def readRelations (strict : Bool) (position : Nat) : List String → Logged RelationFault (List RelationEntry)
  | [] => return []
  | t :: ts => do
    let e ← readRelation strict position t
    let es ← readRelations strict (position + 1) ts
    return e :: es

/-- Sorts the entries of a spec by what they give. -/
def RelationList.ofEntries (entries : List RelationEntry) : RelationList where
  relations := entries.filterMap fun
    | .relation r => some r
    | .skipped _ => none
  skipped := entries.filterMap fun
    | .relation _ => none
    | .skipped t => some t

/-- Reads a relation spec; no spec and a blank one have no relations. -/
def parseRelations (strict : Bool) (spec : Option String) : Logged RelationFault RelationList :=
  let text := spec.getD ""
  if isAllBlank text then return ⟨[], []⟩
  else do return RelationList.ofEntries (← readRelations strict 1 (tokens text))

end CrudScaffold.Spec
