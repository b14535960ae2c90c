import CrudScaffold.Checks.Issue
import CrudScaffold.Spec.Relation

/-!
# CrudScaffold.Checks.Review — what may go wrong with a request that reads well

Four reviews look at the fields and relations of a request.  Each gives warnings only: the code is generated all the
same.

* `reviewTypes`: types that the schema builder has no column method for.
* `reviewIdentifiers`: names that cannot stand in the generated code as they are.
* `reviewSkipped`: relations left out for their unknown kind.
* `reviewAccessors`: accessors that share a name with a field or with another accessor.
-/

namespace CrudScaffold.Checks

open CrudScaffold.Data CrudScaffold.Naming CrudScaffold.Spec

/-- The column methods of the schema builder. -/
def columnTypes : List String := [
  "bigIncrements", "bigInteger", "binary", "boolean", "char", "date", "dateTime", "dateTimeTz", "decimal", "double",
  "enum", "float", "foreignId", "foreignUlid", "foreignUuid", "geometry", "increments", "integer", "ipAddress",
  "json", "jsonb", "longText", "macAddress", "mediumIncrements", "mediumInteger", "mediumText", "morphs", "set",
  "smallIncrements", "smallInteger", "softDeletes", "string", "text", "time", "timeTz", "timestamp", "timestampTz",
  "tinyIncrements", "tinyInteger", "tinyText", "ulid", "unsignedBigInteger", "unsignedInteger",
  "unsignedMediumInteger", "unsignedSmallInteger", "unsignedTinyInteger", "uuid", "year"]

/-- A letter or an underscore. -/
def startsIdentifier (c : Char) : Bool := c.isAlpha || c == '_'

/-- A letter, a digit or an underscore. -/
def continuesIdentifier (c : Char) : Bool := c.isAlphanum || c == '_'

/-- A text that can stand in the code as a name.  One line feed at its end is let pass. -/
def isIdentifier (s : String) : Bool :=
  let cs := s.toList
  let body := if cs.getLast? = some '\n' then cs.dropLast else cs
  match body with
  | [] => false
  | c :: rest => startsIdentifier c && rest.all continuesIdentifier

/-- Warns of types without a column method. -/
def reviewTypes (fields : List Field) : Findings :=
  (fields.filter fun f => !columnTypes.contains f.type).map fun f =>
    warning "W_FIELD_TYPE"
      (s!"Field '{f.name}' uses type '{f.type}', which is not a known schema builder column method; " ++
        "the migration may not run.")
      [("field", .text f.name), ("type", .text f.type)]

/-- Warns of a key of a relation that is no name. -/
def reviewKey (r : Relation) (label key : String) : Findings :=
  if isIdentifier key then []
  else [warning "W_IDENTIFIER"
    s!"Relation to '{r.related}' has {label} '{key}', which is not a valid column identifier."
    [("relation", .text r.related), (label, .text key)]]

/-- Warns of fields and keys that are no names. -/
def reviewIdentifiers (fields : List Field) (relations : List Relation) : Findings :=
  ((fields.filter fun f => !isIdentifier f.name).map fun f =>
    warning "W_IDENTIFIER" s!"Field name '{f.name}' is not a valid PHP identifier." [("field", .text f.name)]) ++
  relations.flatMap fun r => reviewKey r "foreign key" r.foreignKey ++ reviewKey r "local key" r.localKey

/-- Warns of relations that were left out. -/
def reviewSkipped (skipped : List String) : Findings :=
  skipped.map fun t =>
    warning "W_RELATION_KIND" s!"Relation '{t}' was skipped: unknown relation kind." [("token", .text t)]

/-- Warns of the accessor of a relation, where `earlier` are the accessors before it. -/
def reviewAccessor (fields : List Field) (earlier : List String) (accessor : String) : Findings :=
  let context := [("accessor", Value.text accessor)]
  (if fields.any (·.name = accessor) then
    [warning "W_ACCESSOR_CLASH"
      s!"Relation accessor '{accessor}()' has the same name as field '{accessor}'." context]
  else []) ++
  if earlier.contains accessor then
    [warning "W_ACCESSOR_CLASH"
      s!"Relation accessor '{accessor}()' is generated twice; PHP will reject the duplicate method." context]
  else []

/-- Warns of clashes among the remaining accessors. -/
def reviewAccessorsAfter (fields : List Field) (earlier : List String) : List String → Findings
  | [] => []
  | a :: rest => reviewAccessor fields earlier a ++ reviewAccessorsAfter fields (earlier ++ [a]) rest

/-- Warns of accessors that share a name with a field or with another accessor. -/
def reviewAccessors (fields : List Field) (relations : List Relation) : Except NameFault Findings := do
  return reviewAccessorsAfter fields [] (← relations.mapM Relation.accessor)

/-- All reviews, one after the other. -/
def reviewAll (fields : List Field) (relations : List Relation) (skipped : List String) :
    Except NameFault Findings := do
  return reviewTypes fields ++ reviewIdentifiers fields relations ++ reviewSkipped skipped ++
    (← reviewAccessors fields relations)

/-- All reviews; each warning goes to the journal. -/
def reviewRequest (fields : List Field) (relations : List Relation) (skipped : List String) :
    Logged NameFault Findings := do
  let findings ← (reviewAll fields relations skipped : Except NameFault Findings)
  findings.warnings.forM fun i => note .warning .checks i.text
  return findings

end CrudScaffold.Checks
