import CrudScaffold.Naming.Name
import CrudScaffold.Spec.Pivot

/-!
# CrudScaffold.Generation.EntityNames — the names that follow from an entity's name

`Post` gives the model `Post`, the table `posts`, the controller `PostController` and so on.  A qualified name such
as `Admin/Post` keeps `Post` as the class; the qualifier becomes part of the model's namespace and directory.
-/

namespace CrudScaffold.Generation

open CrudScaffold.Naming

/-- The names of everything that is generated for an entity. -/
structure EntityNames where
  entity : String
  modelName : String
  /-- The qualified model, with slashes: the place of its file. -/
  modelTarget : String
  modelNamespace : String
  modelVariable : String
  tableName : String
  controllerName : String
  storeRequestName : String
  updateRequestName : String
  deriving DecidableEq, Repr

namespace EntityNames

/-- The name of the migration that creates the entity's table. -/
def migrationName (n : EntityNames) : String := Spec.creationName n.tableName

/-- The names of an entity whose model lies in the namespace `root`. -/
def ofEntity (entity root : String) : Except NameFault EntityNames := do
  let entity ← require entity
  let model ← baseName entity
  let qualifiers ← qualifier entity
  let table ← pluralSnake model
  let instanceName ← camelCase model
  return {
    entity := entity
    modelName := model
    modelTarget := "/".intercalate (qualifiers ++ [model])
    modelNamespace := "\\".intercalate (root :: qualifiers)
    modelVariable := instanceName
    tableName := table
    controllerName := model ++ "Controller"
    storeRequestName := model ++ "StoreRequest"
    updateRequestName := model ++ "UpdateRequest" }

end EntityNames

end CrudScaffold.Generation
