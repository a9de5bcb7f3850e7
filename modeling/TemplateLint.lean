import TemplateLint.CheckedFile
import TemplateLint.CommandLine.Arguments
import TemplateLint.CommandLine.Run
import TemplateLint.Config
import TemplateLint.Config.Files
import TemplateLint.Config.FromToml
import TemplateLint.Context
import TemplateLint.Diagnostic
import TemplateLint.Discovery
import TemplateLint.Dispatch
import TemplateLint.Error
import TemplateLint.Extensions
import TemplateLint.FileTree
import TemplateLint.Glob.Basic
import TemplateLint.Glob.Nesting
import TemplateLint.Glob.Parser
import TemplateLint.IgnoreFile
import TemplateLint.IgnoreLevel
import TemplateLint.IgnorePattern
import TemplateLint.Json
import TemplateLint.Lexeme
import TemplateLint.Linter
import TemplateLint.Main
import TemplateLint.Markup
import TemplateLint.Message
import TemplateLint.Path
import TemplateLint.Proofs.BreakBlindness
import TemplateLint.Proofs.BreakRewriting
import TemplateLint.Proofs.Colours
import TemplateLint.Proofs.CommentTokens
import TemplateLint.Proofs.Decimals
import TemplateLint.Proofs.DiagnosticLines
import TemplateLint.Proofs.DiagnosticLog
import TemplateLint.Proofs.DispatchOrder
import TemplateLint.Proofs.DocComments
import TemplateLint.Proofs.DottedNames
import TemplateLint.Proofs.EmptyLines
import TemplateLint.Proofs.ExtensionMatching
import TemplateLint.Proofs.FailureIsolation
import TemplateLint.Proofs.FileEndings
import TemplateLint.Proofs.FileIndependence
import TemplateLint.Proofs.Findings
import TemplateLint.Proofs.FoundFiles
import TemplateLint.Proofs.JsonGrammar
import TemplateLint.Proofs.JsonReader
import TemplateLint.Proofs.JsonReports
import TemplateLint.Proofs.LineBreaks
import TemplateLint.Proofs.LineEndingIndependence
import TemplateLint.Proofs.LineMaps
import TemplateLint.Proofs.LineNumbers
import TemplateLint.Proofs.Lines
import TemplateLint.Proofs.LinterStates
import TemplateLint.Proofs.LiteralFlag
import TemplateLint.Proofs.NestedTags
import TemplateLint.Proofs.NoAborts
import TemplateLint.Proofs.Occurrences
import TemplateLint.Proofs.OffsetScanner
import TemplateLint.Proofs.OperationLog
import TemplateLint.Proofs.OptOutLines
import TemplateLint.Proofs.PathOrder
import TemplateLint.Proofs.PatternMatching
import TemplateLint.Proofs.PatternRegex
import TemplateLint.Proofs.Placeholders
import TemplateLint.Proofs.RawLexemes
import TemplateLint.Proofs.Recording
import TemplateLint.Proofs.Registration
import TemplateLint.Proofs.RegistryContents
import TemplateLint.Proofs.Reporters
import TemplateLint.Proofs.RewrittenTokens
import TemplateLint.Proofs.RoundTrip
import TemplateLint.Proofs.RuleReports
import TemplateLint.Proofs.RunOrder
import TemplateLint.Proofs.Runs
import TemplateLint.Proofs.ScanSafety
import TemplateLint.Proofs.SegmentBoundaries
import TemplateLint.Proofs.SplitSteps
import TemplateLint.Proofs.StableSort
import TemplateLint.Proofs.Suppression
import TemplateLint.Proofs.TagSegments
import TemplateLint.Proofs.TaskLines
import TemplateLint.Proofs.TaskPattern
import TemplateLint.Proofs.TaskReports
import TemplateLint.Proofs.TextGrammar
import TemplateLint.Proofs.TokenLines
import TemplateLint.Proofs.TokenSearch
import TemplateLint.Proofs.TokenShapes
import TemplateLint.Proofs.TrailingBlanks
import TemplateLint.Proofs.Utf8Texts
import TemplateLint.Proofs.WorkflowCommands
import TemplateLint.Registry
import TemplateLint.Render.Data
import TemplateLint.Render.Listing
import TemplateLint.Render.RuleTable
import TemplateLint.Render.Style
import TemplateLint.Render.WorkflowCommands
import TemplateLint.Report
import TemplateLint.Rule
import TemplateLint.RuleId
import TemplateLint.Rules.Builtin
import TemplateLint.Rules.Commenting
import TemplateLint.Rules.Files
import TemplateLint.Rules.FirstLine
import TemplateLint.Rules.Indent
import TemplateLint.Rules.Whitespace
import TemplateLint.Scope
import TemplateLint.Segment
import TemplateLint.SortedMap
import TemplateLint.Text.Basic
import TemplateLint.Text.Blank
import TemplateLint.Text.CaseFold
import TemplateLint.Text.LineBreak
import TemplateLint.Text.Quoted
import TemplateLint.Text.Unprintable
import TemplateLint.Text.Utf8
import TemplateLint.Token.Basic
import TemplateLint.Token.Scan
import TemplateLint.Toml.Document
import TemplateLint.Toml.Parser
import TemplateLint.Toml.Scalar
import TemplateLint.Toml.Value
