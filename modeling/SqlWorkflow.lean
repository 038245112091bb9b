import SqlWorkflow.Action.Config
import SqlWorkflow.Action.Draft
import SqlWorkflow.Action.Error
import SqlWorkflow.Action.Registration
import SqlWorkflow.CommandLine.Command
import SqlWorkflow.CommandLine.Grammar
import SqlWorkflow.CommandLine.Run
import SqlWorkflow.Compile.Basic
import SqlWorkflow.Compile.Error
import SqlWorkflow.Compile.Host
import SqlWorkflow.Compile.Request
import SqlWorkflow.Compile.Response
import SqlWorkflow.Decimal.Fixed
import SqlWorkflow.Decimal.Layout
import SqlWorkflow.Decimal.Numeral
import SqlWorkflow.Decimal.Shortest
import SqlWorkflow.Dict
import SqlWorkflow.Digest.Sha256
import SqlWorkflow.Document.Basic
import SqlWorkflow.Document.Decode
import SqlWorkflow.Document.Error
import SqlWorkflow.Document.Word
import SqlWorkflow.Evaluation.Argument
import SqlWorkflow.Evaluation.Binding
import SqlWorkflow.Evaluation.CallError
import SqlWorkflow.Evaluation.Describe
import SqlWorkflow.Evaluation.Progress
import SqlWorkflow.Evaluation.Run
import SqlWorkflow.Evaluation.Script
import SqlWorkflow.Files.Disk
import SqlWorkflow.Files.Pattern
import SqlWorkflow.Files.Tree
import SqlWorkflow.Graph.Basic
import SqlWorkflow.Graph.Dag
import SqlWorkflow.Graph.Encoding
import SqlWorkflow.Json.Basic
import SqlWorkflow.Json.Printer
import SqlWorkflow.Json.Reader
import SqlWorkflow.Json.Token
import SqlWorkflow.Main
import SqlWorkflow.Outcome
import SqlWorkflow.Path
import SqlWorkflow.Project.Config
import SqlWorkflow.Project.CoreLibrary
import SqlWorkflow.Project.Credentials
import SqlWorkflow.Project.Folder
import SqlWorkflow.Project.Index
import SqlWorkflow.Proofs.Action.Lifecycle
import SqlWorkflow.Proofs.Action.Parallel
import SqlWorkflow.Proofs.Compile.Exchange
import SqlWorkflow.Proofs.Compile.Isolation
import SqlWorkflow.Proofs.Evaluation.Environments
import SqlWorkflow.Proofs.Evaluation.Guarded
import SqlWorkflow.Proofs.Evaluation.Includes
import SqlWorkflow.Proofs.Evaluation.IncrementalQuery
import SqlWorkflow.Proofs.Evaluation.PlainSql
import SqlWorkflow.Proofs.Evaluation.Policies
import SqlWorkflow.Proofs.Evaluation.References
import SqlWorkflow.Proofs.Graph.RoundTrip
import SqlWorkflow.Proofs.Session.OrderIndependence
import SqlWorkflow.Proofs.Session.Soundness
import SqlWorkflow.Proofs.Target.Substitution
import SqlWorkflow.Proofs.Sql.Lossless
import SqlWorkflow.Schedule.Basic
import SqlWorkflow.Schedule.Cron
import SqlWorkflow.Schedule.Email
import SqlWorkflow.Session.Basic
import SqlWorkflow.Session.Entry
import SqlWorkflow.Session.Expand
import SqlWorkflow.Session.Finding
import SqlWorkflow.Session.Tests
import SqlWorkflow.Sql.Error
import SqlWorkflow.Sql.Escape
import SqlWorkflow.Sql.Lexer
import SqlWorkflow.Sql.Program
import SqlWorkflow.Sql.Sections
import SqlWorkflow.Sql.Tree
import SqlWorkflow.Target.Basic
import SqlWorkflow.Target.Deferred
import SqlWorkflow.Target.Reference
import SqlWorkflow.Template.Argument
import SqlWorkflow.Template.Arithmetic
import SqlWorkflow.Template.Check
import SqlWorkflow.Template.Closure
import SqlWorkflow.Template.Evaluate
import SqlWorkflow.Template.Fault
import SqlWorkflow.Template.Filter
import SqlWorkflow.Template.Format
import SqlWorkflow.Template.Interchange
import SqlWorkflow.Template.Machine
import SqlWorkflow.Template.Phrase
import SqlWorkflow.Template.Reader
import SqlWorkflow.Template.Token
import SqlWorkflow.Template.Tree
import SqlWorkflow.Template.Value
import SqlWorkflow.Text.Blank
import SqlWorkflow.Text.Case
import SqlWorkflow.Text.Printable
import SqlWorkflow.Text.Quoted
import SqlWorkflow.Text.Split
import SqlWorkflow.Yaml.Cursor
import SqlWorkflow.Yaml.Reader
import SqlWorkflow.Yaml.Scalar
import SqlWorkflow.Yaml.Token
import SqlWorkflow.Proofs.Graph.Construction
import SqlWorkflow.Proofs.Graph.TopologicalOrder
import SqlWorkflow.Proofs.Graph.ExactCycles
import SqlWorkflow.Proofs.Session.Inlining
import SqlWorkflow.Proofs.Session.InlineCycles
import SqlWorkflow.Proofs.Graph.Renaming
import SqlWorkflow.Proofs.Session.ErrorKinds
import SqlWorkflow.Proofs.Session.Affixes
import SqlWorkflow.Proofs.Session.GeneratedChecks
import SqlWorkflow.Proofs.Session.CheckNames
import SqlWorkflow.Proofs.Target.Markers
import SqlWorkflow.Proofs.Session.CheckQueries
import SqlWorkflow.Proofs.Session.MarkerFree
import SqlWorkflow.Proofs.Session.RuntimeTargets
import SqlWorkflow.Proofs.Session.Conservation
import SqlWorkflow.Proofs.Session.Uniqueness
import SqlWorkflow.Proofs.Sql.NormalForm
import SqlWorkflow.Proofs.Sql.Templates
import SqlWorkflow.Proofs.Project.Discovery
import SqlWorkflow.Proofs.Compile.LegacyEntryPoints
import SqlWorkflow.Proofs.Session.Filling
import SqlWorkflow.Proofs.Session.ConditionLiterals
import SqlWorkflow.Proofs.Session.Resolution
import SqlWorkflow.Proofs.Target.Spelling
import SqlWorkflow.Proofs.Session.UnitTests
import SqlWorkflow.Proofs.Session.InputNames
import SqlWorkflow.Proofs.Action.Configurations
import SqlWorkflow.Proofs.Evaluation.ConstantQueries
import SqlWorkflow.Proofs.Schedule.Addresses
import SqlWorkflow.Proofs.Schedule.Expressions
import SqlWorkflow.Proofs.Project.Confinement
import SqlWorkflow.Proofs.Project.Readability
import SqlWorkflow.Proofs.Project.FileLists
import SqlWorkflow.Proofs.Sql.Listing
import SqlWorkflow.Proofs.Sql.Positions
import SqlWorkflow.Proofs.Sql.Sections
import SqlWorkflow.Proofs.Json.Values
import SqlWorkflow.Proofs.Schedule.Validation
import SqlWorkflow.Proofs.Target.Texts
import SqlWorkflow.Proofs.Template.Interchange
import SqlWorkflow.Proofs.Evaluation.JsonFunctions
import SqlWorkflow.Proofs.Document.Objects
import SqlWorkflow.Proofs.Project.Credentials
import SqlWorkflow.Proofs.Sql.Escapes
