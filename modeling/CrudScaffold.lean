import CrudScaffold.Text.Blank
import CrudScaffold.Text.Case
import CrudScaffold.Text.Display
import CrudScaffold.Text.Utf8
import CrudScaffold.Digest.Sha256
import CrudScaffold.Number.Written
import CrudScaffold.Json.Reader
import CrudScaffold.Json.Printer
import CrudScaffold.Naming.Name
import CrudScaffold.Data.Shape
import CrudScaffold.Journal
import CrudScaffold.Code.Fragments
import CrudScaffold.Code.Rules
import CrudScaffold.Checks.Review
import CrudScaffold.Files.Access
import CrudScaffold.Calendar.Moment
import CrudScaffold.Failure
import CrudScaffold.Template.Renderer
import CrudScaffold.Template.Store
import CrudScaffold.Backend.Kinds
import CrudScaffold.Generation.Generate
import CrudScaffold.Yaml.Reader
import CrudScaffold.SettingsFile
import CrudScaffold.CommandLine.Run
import CrudScaffold.Main
import CrudScaffold.Proofs.Generation.Filing
import CrudScaffold.Proofs.Generation.Sessions
import CrudScaffold.Proofs.Generation.Transcript
import CrudScaffold.Proofs.Spec.Fields
import CrudScaffold.Proofs.Spec.RelationTokens
import CrudScaffold.Proofs.Spec.JoinTables
import CrudScaffold.Proofs.Backend.Sequence
import CrudScaffold.Proofs.Generation.Ordering
import CrudScaffold.Proofs.Code.Fragments
import CrudScaffold.Proofs.Code.Literals
import CrudScaffold.Proofs.Code.Reading
import CrudScaffold.Proofs.Code.Verbatim
import CrudScaffold.Proofs.Code.RuleTexts
import CrudScaffold.Proofs.Code.Arguments
import CrudScaffold.Proofs.Code.Views
import CrudScaffold.Proofs.Template.Packaged
import CrudScaffold.Proofs.Template.Quoted
import CrudScaffold.Proofs.Generation.Packaged
import CrudScaffold.Proofs.Generation.Coverage
import CrudScaffold.Proofs.Generation.Keys
import CrudScaffold.Proofs.Files.Lookup
import CrudScaffold.Proofs.Files.Rewriting
import CrudScaffold.Proofs.Files.Replacing
import CrudScaffold.Proofs.Template.Stability
import CrudScaffold.Proofs.Backend.Choices
import CrudScaffold.Proofs.Backend.Planning
import CrudScaffold.Proofs.Generation.Foresight
import CrudScaffold.Proofs.Backend.Escapes
import CrudScaffold.Proofs.Generation.Failing
import CrudScaffold.Proofs.Backend.Commands
import CrudScaffold.Proofs.Backend.Restoring
import CrudScaffold.Proofs.Backend.Blame
import CrudScaffold.Proofs.CommandLine.Exit
import CrudScaffold.Proofs.Generation.Repeating
import CrudScaffold.Proofs.Naming.Blocks
import CrudScaffold.Proofs.Naming.Spelling
import CrudScaffold.Proofs.Template.Grammar
import CrudScaffold.Proofs.Settings
import CrudScaffold.Proofs.Backend.Turns
import CrudScaffold.Proofs.Generation.Commanding
import CrudScaffold.Proofs.Naming.Capitals
import CrudScaffold.Proofs.Naming.LastWord
import CrudScaffold.Proofs.Generation.DerivedNames
import CrudScaffold.Proofs.Naming.Singulars
import CrudScaffold.Proofs.Spec.PivotNames
import CrudScaffold.Proofs.Generation.Nameable
import CrudScaffold.Proofs.Generation.Separators
import CrudScaffold.Proofs.Spec.Strictness
import CrudScaffold.Proofs.Checks.Clashes
import CrudScaffold.Proofs.Checks.Identifiers
import CrudScaffold.Proofs.CommandLine.Telling
import CrudScaffold.Proofs.Generation.Confinement
import CrudScaffold.Proofs.Template.Layers
import CrudScaffold.Proofs.Backend.LeastStamps
import CrudScaffold.Proofs.SettingsPrecedence
import CrudScaffold.Proofs.Naming.PluralTwice
import CrudScaffold.Proofs.Spec.PivotSpelling
