import CrudScaffold.Spec.Relation

/-!
# CrudScaffold.Spec.Pivot — join tables

A `belongsToMany` relation needs a join table.  Its name depends only on the two entities, whichever of them is named
first, in the singular or in the plural, and with whatever qualifiers.  Two relations that need the same table share
it: the first one gives the keys.
-/

namespace CrudScaffold.Spec

open CrudScaffold.Naming

/-- A join table. -/
structure PivotTable where
  name : String
  foreignKey : String
  relatedKey : String
  related : String
  deriving DecidableEq, Repr

/-- The name of the migration that creates a table. -/
def creationName (table : String) : String := s!"create_{table}_table"

/-- The name of the migration that creates the join table. -/
def PivotTable.migrationName (p : PivotTable) : String := creationName p.name

/-- The singular snake-case form of an entity's base name. -/
def pivotPart (name : String) : Except NameFault String := do snakeCase (← singular (← baseName name))

/-- The name of the join table of two entities: their parts in ascending order. -/
def pivotName (entity related : String) : Except NameFault String := do
  let a ← pivotPart entity
  let b ← pivotPart related
  return if b < a then b ++ "_" ++ a else a ++ "_" ++ b

/-- Collects the join tables of the remaining relations; `known` are the tables so far. -/
def collectFrom (entity : String) (known : List PivotTable) : List Relation → Logged NameFault (List PivotTable)
  | [] => return known
  | r :: rs =>
    if r.kind.needsPivot then do
      let name ← pivotName entity r.related
      if known.any (·.name = name) then do
        note .warning .specs s!"Pivot table '{name}' already scheduled; ignoring duplicate from {r.display}."
        collectFrom entity known rs
      else collectFrom entity (known ++ [⟨name, r.foreignKey, r.localKey, r.related⟩]) rs
    else collectFrom entity known rs

/-- The join tables that the relations of an entity need, each once. -/
def collectPivots (entity : String) (relations : List Relation) : Logged NameFault (List PivotTable) :=
  collectFrom entity [] relations

end CrudScaffold.Spec
