import ResolverWiring.Binding
import ResolverWiring.Binding.Annotation
import ResolverWiring.Binding.LocalizedError
import ResolverWiring.Binding.Scan
import ResolverWiring.CommandLine.Command
import ResolverWiring.CommandLine.Help
import ResolverWiring.CommandLine.Options
import ResolverWiring.CommandLine.Outcome
import ResolverWiring.Configuration
import ResolverWiring.Decimal.Binary64
import ResolverWiring.Decimal.DigitLimit
import ResolverWiring.Decimal.Reading
import ResolverWiring.Decimal.Shortest
import ResolverWiring.Files.Path
import ResolverWiring.Files.Tree
import ResolverWiring.Graphql.BlockString
import ResolverWiring.Graphql.Document
import ResolverWiring.Graphql.Layout
import ResolverWiring.Graphql.Parser
import ResolverWiring.Graphql.Parser.Selection
import ResolverWiring.Graphql.Parser.TypeSystem
import ResolverWiring.Graphql.Parser.Value
import ResolverWiring.Graphql.Printer
import ResolverWiring.Graphql.Rules
import ResolverWiring.Graphql.Rules.Problem
import ResolverWiring.Graphql.Rules.Vocabulary
import ResolverWiring.Graphql.Schema
import ResolverWiring.Graphql.Schema.Check
import ResolverWiring.Graphql.Schema.Construction
import ResolverWiring.Graphql.Schema.Default
import ResolverWiring.Graphql.Schema.Place
import ResolverWiring.Graphql.Suggestion
import ResolverWiring.Graphql.Token
import ResolverWiring.Graphql.Token.Lexer
import ResolverWiring.Main
import ResolverWiring.Proofs.Annotation
import ResolverWiring.Proofs.AppSync
import ResolverWiring.Proofs.CommandLine.Command
import ResolverWiring.Proofs.CommandLine.Frame
import ResolverWiring.Proofs.CommandLine.Invocation
import ResolverWiring.Proofs.CommandLine.Outcome
import ResolverWiring.Proofs.CommandLine.Verbose
import ResolverWiring.Proofs.DistinctFields
import ResolverWiring.Proofs.Extract
import ResolverWiring.Proofs.ExtractAgain
import ResolverWiring.Proofs.Files.Below
import ResolverWiring.Proofs.Files.Directories
import ResolverWiring.Proofs.Files.Frame
import ResolverWiring.Proofs.Files.Path
import ResolverWiring.Proofs.Files.PathText
import ResolverWiring.Proofs.Files.Tree
import ResolverWiring.Proofs.FirstOfEach
import ResolverWiring.Proofs.Graphql.Absorption
import ResolverWiring.Proofs.Graphql.Balanced
import ResolverWiring.Proofs.Graphql.BlockString
import ResolverWiring.Proofs.Graphql.DirectiveUses
import ResolverWiring.Proofs.Graphql.Layout
import ResolverWiring.Proofs.Graphql.ParserInput
import ResolverWiring.Proofs.Graphql.ParserOutput
import ResolverWiring.Proofs.Graphql.ParserRun
import ResolverWiring.Proofs.Graphql.PrintedTokens
import ResolverWiring.Proofs.Graphql.Printer
import ResolverWiring.Proofs.Graphql.ReadBack
import ResolverWiring.Proofs.Graphql.Reprint
import ResolverWiring.Proofs.Graphql.RoundTrip.Document
import ResolverWiring.Proofs.Graphql.RoundTrip.Selection
import ResolverWiring.Proofs.Graphql.RoundTrip.TypeSystem
import ResolverWiring.Proofs.Graphql.RoundTrip.Value
import ResolverWiring.Proofs.Graphql.Rules
import ResolverWiring.Proofs.Graphql.Schema
import ResolverWiring.Proofs.Graphql.Spelling
import ResolverWiring.Proofs.Graphql.WellFormed
import ResolverWiring.Proofs.Merge
import ResolverWiring.Proofs.MergedSchema
import ResolverWiring.Proofs.Normalize
import ResolverWiring.Proofs.PlainResources
import ResolverWiring.Proofs.Resources
import ResolverWiring.Proofs.Results
import ResolverWiring.Proofs.Revalidation
import ResolverWiring.Proofs.Scan
import ResolverWiring.Proofs.ScanSeries
import ResolverWiring.Proofs.Service.CleanSchema
import ResolverWiring.Proofs.Service.Fragments
import ResolverWiring.Proofs.Service.Gate
import ResolverWiring.Proofs.Service.Repeat
import ResolverWiring.Proofs.Service.ResourceFile
import ResolverWiring.Proofs.Service.Run
import ResolverWiring.Proofs.Service.SettingsFile
import ResolverWiring.Proofs.Service.Source
import ResolverWiring.Proofs.Service.SourcePath
import ResolverWiring.Proofs.Service.Stops
import ResolverWiring.Proofs.Text.Lines
import ResolverWiring.Proofs.Text.Numeral
import ResolverWiring.Proofs.Validation
import ResolverWiring.Proofs.Yaml.DataTree
import ResolverWiring.Proofs.Yaml.Denoting
import ResolverWiring.Proofs.Yaml.Evaluated
import ResolverWiring.Proofs.Yaml.Integers
import ResolverWiring.Proofs.Yaml.Lexing
import ResolverWiring.Proofs.Yaml.LoadedKeys
import ResolverWiring.Proofs.Yaml.Mapping
import ResolverWiring.Proofs.Yaml.Numbering
import ResolverWiring.Proofs.Yaml.Outer
import ResolverWiring.Proofs.Yaml.Overlay
import ResolverWiring.Proofs.Yaml.Parsing
import ResolverWiring.Proofs.Yaml.Plain
import ResolverWiring.Proofs.Yaml.PlainEntries
import ResolverWiring.Proofs.Yaml.PlainLoading
import ResolverWiring.Proofs.Yaml.Quoted
import ResolverWiring.Proofs.Yaml.RoundTrip
import ResolverWiring.Proofs.Yaml.ScalarTokens
import ResolverWiring.Proofs.Yaml.ShortTags
import ResolverWiring.Proofs.Yaml.TreeTokens
import ResolverWiring.Proofs.Yaml.Written
import ResolverWiring.Resources
import ResolverWiring.Schema.AppSync
import ResolverWiring.Schema.Extract
import ResolverWiring.Schema.Merge
import ResolverWiring.Schema.Normalize
import ResolverWiring.Schema.Validation
import ResolverWiring.Service.CleanSchema
import ResolverWiring.Service.Log
import ResolverWiring.Service.ResourceFile
import ResolverWiring.Service.Run
import ResolverWiring.Service.SettingsFile
import ResolverWiring.Service.Source
import ResolverWiring.Service.Validity
import ResolverWiring.Text.Base64
import ResolverWiring.Text.Blank
import ResolverWiring.Text.CaseContext
import ResolverWiring.Text.CodeRange
import ResolverWiring.Text.Digit
import ResolverWiring.Text.Excerpt
import ResolverWiring.Text.Hex
import ResolverWiring.Text.Lines
import ResolverWiring.Text.LowerCase
import ResolverWiring.Text.Paragraph
import ResolverWiring.Text.Printable
import ResolverWiring.Text.Quoted
import ResolverWiring.Text.TerminalCode
import ResolverWiring.Text.Utf8
import ResolverWiring.Yaml.Error
import ResolverWiring.Yaml.Load
import ResolverWiring.Yaml.Mark
import ResolverWiring.Yaml.Node
import ResolverWiring.Yaml.Node.Merge
import ResolverWiring.Yaml.Node.Outer
import ResolverWiring.Yaml.Node.Parser
import ResolverWiring.Yaml.Printer
import ResolverWiring.Yaml.Printer.Scalar
import ResolverWiring.Yaml.Printer.Style
import ResolverWiring.Yaml.Printer.Tree
import ResolverWiring.Yaml.Tag
import ResolverWiring.Yaml.Tag.Resolution
import ResolverWiring.Yaml.Timestamp
import ResolverWiring.Yaml.Token
import ResolverWiring.Yaml.Token.Block
import ResolverWiring.Yaml.Token.Lexer
import ResolverWiring.Yaml.Token.Plain
import ResolverWiring.Yaml.Token.Quoted
import ResolverWiring.Yaml.Token.Tag
import ResolverWiring.Yaml.Value
import ResolverWiring.Yaml.Value.DigitLimit
import ResolverWiring.Yaml.Value.Evaluation
import ResolverWiring.Yaml.Value.KeyText
import ResolverWiring.Yaml.Value.OfNode
import ResolverWiring.Yaml.Value.Plain
import ResolverWiring.Yaml.Value.Scalar
