import CrudScaffold.Spec.Pivot

/-!
# CrudScaffold.Code.Fragments — the pieces of generated code that depend on the specs

* `quoteWith`, `quote`: a text as a literal.  A literal stands between two delimiters; inside, every backslash is doubled,
  and then every occurrence of the delimiter gets a backslash in front.
* `fillableNames`, `fillableList`: the names of the fields, and the same as literals, for the model.
* `columnCalls`: one schema call per field, for the table migration.
* `relationMethods`: one method per relation, for the model.
-/

namespace CrudScaffold.Code

open CrudScaffold.Spec CrudScaffold.Naming

/-! ### Literals -/

/-- Replaces `part` by `by_` from left to right, first passing over `skip` characters without writing them. -/
def replaceFrom (part by_ : List Char) : Nat → List Char → List Char
  | _, [] => []
  | skip + 1, _ :: cs => replaceFrom part by_ skip cs
  | 0, c :: cs =>
    if part.isPrefixOf (c :: cs) then by_ ++ replaceFrom part by_ (part.length - 1) cs
    else c :: replaceFrom part by_ 0 cs

/-- Replaces every occurrence of `part` by `by_`.  The empty part occurs before every character and at the end. -/
def replaceAll (part by_ cs : List Char) : List Char :=
  if part.isEmpty then by_ ++ cs.flatMap (· :: by_) else replaceFrom part by_ 0 cs

/-- A literal with the given delimiter. -/
def literalWith (delimiter : List Char) (value : List Char) : List Char :=
  delimiter ++ replaceAll delimiter ('\\' :: delimiter) (replaceAll ['\\'] ['\\', '\\'] value) ++ delimiter

/-- A literal with the given delimiter. -/
def quoteWith (delimiter value : String) : String := String.ofList (literalWith delimiter.toList value.toList)

/-- A single-quoted literal. -/
def quote (value : String) : String := quoteWith "'" value

/-! ### Attributes, columns and relations -/

/-- The names of the attributes that the model lets be filled. -/
def fillableNames (fields : List Field) : List String := fields.map (·.name)

/-- The body of the model's list of fillable attributes. -/
def fillableList (fields : List Field) : String := ", ".intercalate (fields.map fun f => quote f.name)

/-- The line break inside a block that stands three levels deep. -/
def blockBreak : String := "\n            "

/-- The schema call that adds the column of a field. -/
def columnCall (f : Field) : String := "$table->" ++ f.type ++ "(" ++ quote f.name ++ ");"

/-- The schema calls of all fields. -/
def columnCalls (fields : List Field) : String := blockBreak.intercalate (fields.map columnCall)

/-- The arguments of the call that declares a relation. -/
def relationArguments (entity : String) (r : Relation) : Except NameFault (List String) := do
  let keys := [quote r.foreignKey, quote r.localKey]
  if r.kind.needsPivot then
    return (r.relatedClass ++ "::class") :: quote (← pivotName entity r.related) :: keys
  else return (r.relatedClass ++ "::class") :: keys

/-- The method of the model that declares a relation. -/
def relationMethod (entity : String) (r : Relation) : Except NameFault String := do
  let arguments := ", ".intercalate (← relationArguments entity r)
  let accessor ← r.accessor
  return "\n    public function " ++ accessor ++ "()\n    \x7b\n        return $this->" ++ r.kind.label ++ "(" ++
    arguments ++ ");\n    \x7d\n"

/-- The methods of all relations, one after the other. -/
def relationMethods (entity : String) (relations : List Relation) : Except NameFault String := do
  return String.join (← relations.mapM (relationMethod entity))

end CrudScaffold.Code
