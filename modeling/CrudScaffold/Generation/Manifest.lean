import CrudScaffold.Backend.Layout
import CrudScaffold.Calendar.Moment
import CrudScaffold.Digest.Sha256
import CrudScaffold.Json.Printer
import CrudScaffold.Text.Blank

/-!
# CrudScaffold.Generation.Manifest — the list of the files that a run has written
-/

namespace CrudScaffold.Generation

open CrudScaffold.Backend CrudScaffold.Data CrudScaffold.Files

/-- One written file. -/
structure FileRecord where
  artifact : String
  kind : ArtifactKind
  relativePath : String
  absolutePath : String
  size : Int
  lines : Nat
  sha256 : String
  deriving DecidableEq, Repr

namespace FileRecord

/-- The record of a file with the given content; `shown` is its path as seen from the project root. -/
def ofContent (artifact : String) (kind : ArtifactKind) (shown : String) (path : Path) (content : String) (size : Int) :
    FileRecord where
  artifact := artifact
  kind := kind
  relativePath := shown
  absolutePath := path.toString
  size := size
  lines := Text.lineCount content
  sha256 := Digest.sha256Hex content

/-- The record in a manifest file. -/
def toValue (r : FileRecord) : Value := Value.record [
  ("artifact", .text r.artifact),
  ("kind", .text r.kind.label),
  ("relative_path", .text r.relativePath),
  ("absolute_path", .text r.absolutePath),
  ("size_bytes", .int r.size),
  ("line_count", .int r.lines),
  ("sha256", .text r.sha256)]

end FileRecord

/-- The version of the program. -/
def version : String := "1.0.0"

/-- The files that a run has written, in order. -/
structure Manifest where
  entity : String
  exportedAt : String
  projectRoot : String
  backend : String
  files : List FileRecord
  deriving DecidableEq, Repr

namespace Manifest

/-- The number of files. -/
def fileCount (m : Manifest) : Nat := m.files.length

/-- The number of bytes of all files. -/
def byteCount (m : Manifest) : Int := m.files.foldr (fun r n => r.size + n) 0

/-- The number of lines of all files. -/
def lineCount (m : Manifest) : Nat := m.files.foldr (fun r n => r.lines + n) 0

/-- The manifest as a record. -/
def toValue (m : Manifest) : Value := Value.record [
  ("entity_name", .text m.entity),
  ("generator_version", .text version),
  ("export_timestamp", .text m.exportedAt),
  ("project_root", .text m.projectRoot),
  ("backend", .text m.backend),
  ("total_files", .int m.fileCount),
  ("total_bytes", .int m.byteCount),
  ("total_lines", .int m.lineCount),
  ("files", .list (m.files.map FileRecord.toValue))]

/-- The manifest as JSON. -/
def text (m : Manifest) (indent : Option Nat) : String := Json.write ⟨indent, false⟩ m.toValue

end Manifest

end CrudScaffold.Generation
