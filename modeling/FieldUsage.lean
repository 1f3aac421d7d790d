import FieldUsage.Main
import FieldUsage.Proofs.Prefilter
import FieldUsage.Proofs.Resolution
import FieldUsage.Proofs.Schema.History
import FieldUsage.Proofs.Schema.Merge
import FieldUsage.Proofs.Search
import FieldUsage.Proofs.GraphQL.Definition
import FieldUsage.Proofs.GraphQL.Name
import FieldUsage.Proofs.Target
import FieldUsage.Proofs.Schema.Listing
import FieldUsage.Proofs.Attribution
import FieldUsage.Proofs.GraphQL.Print
import FieldUsage.Proofs.Json.Print
import FieldUsage.Proofs.Schema.Description
import FieldUsage.Proofs.Schema.Agreement
import FieldUsage.Proofs.Lost
import FieldUsage.Proofs.Growth
import FieldUsage.Proofs.File.Location
import FieldUsage.Proofs.Cli.Outcome
import FieldUsage.Proofs.BaseDirectory
import FieldUsage.Proofs.File.Hidden
import FieldUsage.Proofs.Glob.Expand
import FieldUsage.Proofs.Extract
import FieldUsage.Proofs.Rewriting
import FieldUsage.Proofs.SourceOrder
import FieldUsage.Proofs.Schema.RootTypes
import FieldUsage.Proofs.Schema.Repetition
import FieldUsage.Proofs.Schema.Files
import FieldUsage.Proofs.Schema.Relocation
import FieldUsage.Proofs.Target.Suggestion
import FieldUsage.Proofs.Text.Position
import FieldUsage.Proofs.Candidates
import FieldUsage.Proofs.Config.Discovery
import FieldUsage.Proofs.Config.Projects
import FieldUsage.Proofs.Config.Validation
import FieldUsage.Proofs.Config.Selection
import FieldUsage.Proofs.Usage
import FieldUsage.Proofs.Search.Lines
