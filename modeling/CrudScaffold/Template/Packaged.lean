/-!
# CrudScaffold.Template.Packaged — the templates that come with the program

A template is text with slots, written as a name between double braces.  The packaged templates are given line by
line; `slot` writes a slot.
-/

namespace CrudScaffold.Template

/-- The templates that a run needs. -/
inductive TemplateName where
  | model
  | migration
  | pivotMigration
  | controller
  | storeRequest
  | updateRequest
  deriving DecidableEq, Repr

namespace TemplateName

/-- All templates, in the order in which a run uses them. -/
def all : List TemplateName := [model, migration, pivotMigration, controller, storeRequest, updateRequest]

/-- The name under which stores supply a template. -/
def label : TemplateName → String
  | model => "model"
  | migration => "migration"
  | pivotMigration => "pivotMigration"
  | controller => "controller"
  | storeRequest => "storeRequest"
  | updateRequest => "updateRequest"

/-- The name of the file that holds the template in a template directory. -/
def fileName : TemplateName → String
  | model => "model.stub"
  | migration => "migration.stub"
  | pivotMigration => "pivot_migration.stub"
  | controller => "controller.stub"
  | storeRequest => "StoreRequest.stub"
  | updateRequest => "UpdateRequest.stub"

/-- The placeholders for which a value must be given. -/
def placeholders : TemplateName → List String
  | model => ["modelNamespace", "modelName", "tableName", "fillable", "relations"]
  | migration => ["tableName", "fields"]
  | pivotMigration => ["pivotTableName", "foreignKey", "relatedKey"]
  | controller =>
    ["controllerName", "modelName", "modelNamespace", "modelVariable", "storeRequestName", "updateRequestName"]
  | storeRequest => ["formRequestName", "rules"]
  | updateRequest => ["formRequestName", "rules"]

end TemplateName

/-- A slot for the value of a placeholder. -/
def slot (name : String) : String := "\x7b\x7b" ++ name ++ "\x7d\x7d"

/-- Lines, each ended by a line feed. -/
def textOfLines (lines : List String) : String := String.join (lines.map (· ++ "\n"))

/-- The packaged template of the model. -/
def modelText : String := textOfLines [
  "<?php",
  "",
  "namespace " ++ slot "modelNamespace" ++ ";",
  "",
  "use Illuminate\\Database\\Eloquent\\Factories\\HasFactory;",
  "use Illuminate\\Database\\Eloquent\\Model;",
  "",
  "class " ++ slot "modelName" ++ " extends Model",
  "\x7b",
  "    use HasFactory;",
  "",
  "    protected $table = '" ++ slot "tableName" ++ "';",
  "",
  "    protected $fillable = [" ++ slot "fillable" ++ "];",
  slot "relations" ++ "\x7d"]

/-- The packaged template of the table migration. -/
def migrationText : String := textOfLines [
  "<?php",
  "",
  "use Illuminate\\Database\\Migrations\\Migration;",
  "use Illuminate\\Database\\Schema\\Blueprint;",
  "use Illuminate\\Support\\Facades\\Schema;",
  "",
  "return new class extends Migration",
  "\x7b",
  "    public function up(): void",
  "    \x7b",
  "        Schema::create('" ++ slot "tableName" ++ "', function (Blueprint $table) \x7b",
  "            $table->id();",
  "            " ++ slot "fields",
  "            $table->timestamps();",
  "        \x7d);",
  "    \x7d",
  "",
  "    public function down(): void",
  "    \x7b",
  "        Schema::dropIfExists('" ++ slot "tableName" ++ "');",
  "    \x7d",
  "\x7d;"]

/-- The packaged template of a join table migration. -/
def pivotMigrationText : String := textOfLines [
  "<?php",
  "",
  "use Illuminate\\Database\\Migrations\\Migration;",
  "use Illuminate\\Database\\Schema\\Blueprint;",
  "use Illuminate\\Support\\Facades\\Schema;",
  "",
  "return new class extends Migration",
  "\x7b",
  "    public function up(): void",
  "    \x7b",
  "        Schema::create('" ++ slot "pivotTableName" ++ "', function (Blueprint $table) \x7b",
  "            $table->foreignId('" ++ slot "foreignKey" ++ "');",
  "            $table->foreignId('" ++ slot "relatedKey" ++ "');",
  "            $table->primary(['" ++ slot "foreignKey" ++ "', '" ++ slot "relatedKey" ++ "']);",
  "        \x7d);",
  "    \x7d",
  "",
  "    public function down(): void",
  "    \x7b",
  "        Schema::dropIfExists('" ++ slot "pivotTableName" ++ "');",
  "    \x7d",
  "\x7d;"]

/-- The packaged template of the controller. -/
def controllerText : String := textOfLines [
  "<?php",
  "",
  "namespace App\\Http\\Controllers;",
  "",
  "use App\\Http\\Requests\\" ++ slot "storeRequestName" ++ ";",
  "use App\\Http\\Requests\\" ++ slot "updateRequestName" ++ ";",
  "use " ++ slot "modelNamespace" ++ "\\" ++ slot "modelName" ++ ";",
  "",
  "class " ++ slot "controllerName" ++ " extends Controller",
  "\x7b",
  "    public function index()",
  "    \x7b",
  "        return " ++ slot "modelName" ++ "::paginate();",
  "    \x7d",
  "",
  "    public function store(" ++ slot "storeRequestName" ++ " $request)",
  "    \x7b",
  "        $" ++ slot "modelVariable" ++ " = " ++ slot "modelName" ++ "::create($request->validated());",
  "",
  "        return response()->json($" ++ slot "modelVariable" ++ ", 201);",
  "    \x7d",
  "",
  "    public function show(" ++ slot "modelName" ++ " $" ++ slot "modelVariable" ++ ")",
  "    \x7b",
  "        return $" ++ slot "modelVariable" ++ ";",
  "    \x7d",
  "",
  "    public function update(" ++ slot "updateRequestName" ++ " $request, " ++ slot "modelName" ++ " $" ++
    slot "modelVariable" ++ ")",
  "    \x7b",
  "        $" ++ slot "modelVariable" ++ "->update($request->validated());",
  "",
  "        return $" ++ slot "modelVariable" ++ ";",
  "    \x7d",
  "",
  "    public function destroy(" ++ slot "modelName" ++ " $" ++ slot "modelVariable" ++ ")",
  "    \x7b",
  "        $" ++ slot "modelVariable" ++ "->delete();",
  "",
  "        return response()->noContent();",
  "    \x7d",
  "\x7d"]

/-- The packaged template of both form requests. -/
def requestText : String := textOfLines [
  "<?php",
  "",
  "namespace App\\Http\\Requests;",
  "",
  "use Illuminate\\Foundation\\Http\\FormRequest;",
  "",
  "class " ++ slot "formRequestName" ++ " extends FormRequest",
  "\x7b",
  "    public function authorize(): bool",
  "    \x7b",
  "        return true;",
  "    \x7d",
  "",
  "    public function rules(): array",
  "    \x7b",
  "        return [",
  "            " ++ slot "rules",
  "        ];",
  "    \x7d",
  "\x7d"]

/-- The packaged template of each name. -/
def TemplateName.packaged : TemplateName → String
  | model => modelText
  | migration => migrationText
  | pivotMigration => pivotMigrationText
  | controller => controllerText
  | storeRequest => requestText
  | updateRequest => requestText

/-- The packaged templates by name. -/
def packagedTemplates : List (String × String) := TemplateName.all.map fun t => (t.label, t.packaged)

/-- The packaged names of the files in a template directory. -/
def packagedFileNames : List (String × String) := TemplateName.all.map fun t => (t.label, t.fileName)

/-- The placeholders that the packaged templates need. -/
def packagedPlaceholders : List (String × List String) := TemplateName.all.map fun t => (t.label, t.placeholders)

end CrudScaffold.Template
