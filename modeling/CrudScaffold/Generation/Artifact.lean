import CrudScaffold.Backend.Layout
import CrudScaffold.Code.Rules
import CrudScaffold.Digest.Sha256
import CrudScaffold.Generation.EntityNames
import CrudScaffold.Template.Renderer
import CrudScaffold.Text.Blank

/-!
# CrudScaffold.Generation.Artifact — what is generated for an entity

A `Draft` says what an artifact is made from: a template, the values of its placeholders, and where it is to go.
`draftsOf` lists the drafts of an entity in their order: model, table migration, one migration per join table,
controller, store request, update request.  Rendering a draft gives an `Artifact`.
-/

namespace CrudScaffold.Generation

open CrudScaffold.Backend CrudScaffold.Code CrudScaffold.Naming CrudScaffold.Spec CrudScaffold.Template

/-- An artifact before it is rendered. -/
structure Draft where
  kind : ArtifactKind
  template : TemplateName
  target : String
  context : Context
  deriving DecidableEq, Repr

/-- A rendered artifact. -/
structure Artifact where
  kind : ArtifactKind
  template : TemplateName
  target : String
  content : String
  deriving DecidableEq, Repr

namespace Artifact

/-- The number of lines of the text. -/
def lines (a : Artifact) : Nat := Text.lineCount a.content

/-- The digest of the text. -/
def checksum (a : Artifact) : String := Digest.sha256Hex a.content

/-- An artifact as messages show it. -/
def display (a : Artifact) : String := s!"<Artifact {a.kind.label}:{a.target} ({a.lines} lines)>"

end Artifact

/-- The draft of the model. -/
def modelDraft (n : EntityNames) (fields : List Field) (methods : String) : Draft where
  kind := .model
  template := .model
  target := n.modelTarget
  context := [
    ("modelNamespace", n.modelNamespace), ("modelName", n.modelName), ("tableName", n.tableName),
    ("fillable", fillableList fields), ("relations", methods)]

/-- The draft of the migration that creates the entity's table. -/
def tableDraft (n : EntityNames) (fields : List Field) : Draft where
  kind := .migration
  template := .migration
  target := n.migrationName
  context := [("tableName", n.tableName), ("fields", columnCalls fields)]

/-- The draft of the migration that creates a join table. -/
def pivotDraft (p : PivotTable) : Draft where
  kind := .migration
  template := .pivotMigration
  target := p.migrationName
  context := [("pivotTableName", p.name), ("foreignKey", p.foreignKey), ("relatedKey", p.relatedKey)]

/-- The draft of the controller. -/
def controllerDraft (n : EntityNames) : Draft where
  kind := .controller
  template := .controller
  target := n.controllerName
  context := [
    ("controllerName", n.controllerName), ("modelName", n.modelName), ("modelNamespace", n.modelNamespace),
    ("modelVariable", n.modelVariable), ("storeRequestName", n.storeRequestName),
    ("updateRequestName", n.updateRequestName)]

/-- The draft of a form request. -/
def requestDraft (template : TemplateName) (name : String) (rules : RuleSet) : Draft where
  kind := .request
  template := template
  target := name
  context := [("formRequestName", name), ("rules", rules.text)]

/-- The drafts of an entity, in order. -/
def draftsOf (n : EntityNames) (fields : List Field) (relations : List Relation) (pivots : List PivotTable)
    (creation update : RuleSet) : Except NameFault (List Draft) := do
  let methods ← relationMethods n.entity relations
  return [modelDraft n fields methods, tableDraft n fields] ++ pivots.map pivotDraft ++
    [controllerDraft n, requestDraft .storeRequest n.storeRequestName creation,
      requestDraft .updateRequest n.updateRequestName update]

/-- Renders a draft. -/
def Draft.render (r : Renderer) (v : View) (d : Draft) : Logged Fault Artifact := do
  let content ← r.render v d.template.label d.context
  return ⟨d.kind, d.template, d.target, content⟩

end CrudScaffold.Generation
