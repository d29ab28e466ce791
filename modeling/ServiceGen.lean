import ServiceGen.CommandLine.Command
import ServiceGen.CommandLine.Option
import ServiceGen.CommandLine.Resolve
import ServiceGen.Config.Settings
import ServiceGen.Declaration.Assembly
import ServiceGen.Declaration.Walk
import ServiceGen.Declaration.Methods
import ServiceGen.Declaration.Document
import ServiceGen.Declaration.DocumentJson
import ServiceGen.Declaration.TypeHint
import ServiceGen.Declaration.Typing
import ServiceGen.Failure
import ServiceGen.Files.Workspace
import ServiceGen.Files.Path
import ServiceGen.Files.Tree
import ServiceGen.Json.Basic
import ServiceGen.Json.Lexer
import ServiceGen.Json.Numeral
import ServiceGen.Json.Parser
import ServiceGen.Json.Reading
import ServiceGen.Json.Record
import ServiceGen.Json.Tree
import ServiceGen.Main
import ServiceGen.Message.DataClass
import ServiceGen.Message.Descriptor
import ServiceGen.Message.Container
import ServiceGen.Naming
import ServiceGen.Number.Binary64
import ServiceGen.OrderedMap
import ServiceGen.Problems
import ServiceGen.Proofs.Message.Nesting
import ServiceGen.Proofs.OrderedMap
import ServiceGen.Proofs.Problems
import ServiceGen.Proofs.Schema.Acceptance
import ServiceGen.Run.Programs
import ServiceGen.Run.Discovery
import ServiceGen.Run.Rpc
import ServiceGen.Run.Web
import ServiceGen.Schema.Check
import ServiceGen.Schema.DataType
import ServiceGen.Schema.DataTypeJson
import ServiceGen.Schema.Enumeration
import ServiceGen.Schema.Model
import ServiceGen.Schema.Operation
import ServiceGen.Schema.Scalar
import ServiceGen.Schema.Service
import ServiceGen.SortedMap
import ServiceGen.Source.Block
import ServiceGen.Source.Literal
import ServiceGen.Stub.Module
import ServiceGen.Stub.Registration
import ServiceGen.Table.Module
import ServiceGen.Text.Basic
import ServiceGen.Text.Case
import ServiceGen.Text.Cluster
import ServiceGen.Text.ClusterTable
import ServiceGen.Toml.Document
import ServiceGen.Toml.Value
import ServiceGen.Toml.Quoted
import ServiceGen.Web.EnumResource
import ServiceGen.Web.Resource
import ServiceGen.Proofs.Message.Lowering
import ServiceGen.Proofs.Message.WireClasses
import ServiceGen.Proofs.Message.WireMethods
import ServiceGen.Proofs.Message.FieldNames
import ServiceGen.Proofs.Stub.ProjectBlocks
import ServiceGen.Proofs.Stub.Registration
import ServiceGen.Proofs.Declaration.Catalogue
import ServiceGen.Proofs.Declaration.Walk
import ServiceGen.Proofs.LocatedProblems
import ServiceGen.Proofs.Schema.Violations
import ServiceGen.Proofs.Json.RoundTrip
import ServiceGen.Proofs.Json.Record
import ServiceGen.Proofs.Schema.RoundTrip
import ServiceGen.Proofs.Declaration.HintRoundTrip
import ServiceGen.Proofs.Declaration.RoundTrip
import ServiceGen.Proofs.Naming
import ServiceGen.Proofs.Files.Path
import ServiceGen.Proofs.Run.ServerFiles
import ServiceGen.Proofs.Schema.EnumSet
import ServiceGen.Proofs.Declaration.Enumerations
import ServiceGen.Proofs.Message.MessageNames
import ServiceGen.Proofs.Message.ClassNames
import ServiceGen.Proofs.Declaration.BoundedWalk
import ServiceGen.Proofs.Files.Tree
import ServiceGen.Proofs.Files.Changes
import ServiceGen.Proofs.Files.Operations
import ServiceGen.Proofs.Files.Effects
import ServiceGen.Proofs.Run.RpcEffects
import ServiceGen.Proofs.Run.Rediscovery
import ServiceGen.Proofs.Run.CompilerFailure
import ServiceGen.Proofs.Run.SecondRun
import ServiceGen.Proofs.Run.WebFailure
import ServiceGen.Proofs.Declaration.Counted
import ServiceGen.Proofs.Declaration.NameOrder
import ServiceGen.Proofs.Declaration.Typing
import ServiceGen.Proofs.Declaration.Methods
import ServiceGen.Proofs.Declaration.MissingHints
import ServiceGen.Proofs.Declaration.MergedArguments
import ServiceGen.Proofs.Declaration.Assembly
import ServiceGen.Proofs.Declaration.ParameterDefaults
import ServiceGen.Proofs.Source.Literal
import ServiceGen.Proofs.Source.Sections
import ServiceGen.Proofs.Web.Documentation
import ServiceGen.Proofs.Table.Module
import ServiceGen.Proofs.Files.Parent
import ServiceGen.Proofs.Run.WebFiles
import ServiceGen.Proofs.Fallible
import ServiceGen.Proofs.Declaration.Responses
import ServiceGen.Proofs.Number.Layout
import ServiceGen.Proofs.Source.LiteralText
import ServiceGen.Proofs.Source.Occurrences
import ServiceGen.Proofs.Web.EnumResource
import ServiceGen.Proofs.Message.Docstrings
import ServiceGen.Proofs.Declaration.Docstring
import ServiceGen.Proofs.Source.References
import ServiceGen.Proofs.Table.Imports
import ServiceGen.Proofs.Files.WellFormed
import ServiceGen.Proofs.Files.PathOrder
import ServiceGen.Proofs.Run.Loading
import ServiceGen.Proofs.Text.Lines
import ServiceGen.Proofs.Run.WebImports
import ServiceGen.Proofs.Source.Writer
import ServiceGen.Proofs.CommandLine.AbsolutePath
import ServiceGen.Proofs.CommandLine.ProjectName
import ServiceGen.Proofs.Run.DetachedServer
import ServiceGen.Proofs.Stub.Recognition
import ServiceGen.Proofs.BuiltProblems
import ServiceGen.Proofs.Repeats
import ServiceGen.Proofs.Json.EntryOrder
