import UtilityCss.Build
import UtilityCss.Command
import UtilityCss.Command.Arguments
import UtilityCss.Command.Message
import UtilityCss.Command.Outcome
import UtilityCss.Command.Reading
import UtilityCss.Config
import UtilityCss.Config.Reading
import UtilityCss.Config.Record
import UtilityCss.Content
import UtilityCss.Content.Reach
import UtilityCss.Decimal.Binary64
import UtilityCss.Decimal.Digits
import UtilityCss.Decimal.Fixed
import UtilityCss.Decimal.Reading
import UtilityCss.Decimal.Rounding
import UtilityCss.Decimal.Shortest
import UtilityCss.Diagnostic
import UtilityCss.Discovery
import UtilityCss.Error
import UtilityCss.Extractor
import UtilityCss.FileTree
import UtilityCss.FileTree.Error
import UtilityCss.FileTree.Lookup
import UtilityCss.FileTree.Path
import UtilityCss.FileTree.Walk
import UtilityCss.Findings
import UtilityCss.Glob
import UtilityCss.Glob.Parser
import UtilityCss.Grammar
import UtilityCss.Grammar.Default
import UtilityCss.Json
import UtilityCss.Main
import UtilityCss.Ordered.Map
import UtilityCss.Ordered.Set
import UtilityCss.Pattern
import UtilityCss.Pattern.Parser
import UtilityCss.Pattern.Program
import UtilityCss.Pattern.Property
import UtilityCss.Pattern.Search
import UtilityCss.Plugin
import UtilityCss.Plugin.Bundled
import UtilityCss.Plugin.Checking
import UtilityCss.Plugin.Spec
import UtilityCss.Proofs.Accounting
import UtilityCss.Proofs.Agreement
import UtilityCss.Proofs.Cascade.Generated
import UtilityCss.Proofs.Cascade.Order
import UtilityCss.Proofs.Cascade.Representative
import UtilityCss.Proofs.Cascade.Tier
import UtilityCss.Proofs.Config.Starter
import UtilityCss.Proofs.Containment.Grammar
import UtilityCss.Proofs.Containment.Plugin
import UtilityCss.Proofs.Containment.Rule
import UtilityCss.Proofs.Containment.Theme
import UtilityCss.Proofs.Containment.Value
import UtilityCss.Proofs.Content.Coverage
import UtilityCss.Proofs.Content.Directory
import UtilityCss.Proofs.Content.Everything
import UtilityCss.Proofs.Content.Excluded
import UtilityCss.Proofs.Content.Gathered
import UtilityCss.Proofs.Content.Kept
import UtilityCss.Proofs.Content.Reported
import UtilityCss.Proofs.Content.Resolved
import UtilityCss.Proofs.Content.Selected
import UtilityCss.Proofs.Content.Shape
import UtilityCss.Proofs.Content.Spelling
import UtilityCss.Proofs.Content.Success
import UtilityCss.Proofs.Decimal.Monotone
import UtilityCss.Proofs.Decimal.Representable
import UtilityCss.Proofs.Discovery.Areas
import UtilityCss.Proofs.Discovery.Pattern
import UtilityCss.Proofs.Discovery.Written
import UtilityCss.Proofs.Extraction
import UtilityCss.Proofs.FileTree.Added
import UtilityCss.Proofs.FileTree.Below
import UtilityCss.Proofs.FileTree.Growth
import UtilityCss.Proofs.FileTree.Plain
import UtilityCss.Proofs.FileTree.Proper
import UtilityCss.Proofs.FileTree.Shape
import UtilityCss.Proofs.FileTree.Way
import UtilityCss.Proofs.FileTree.Writing
import UtilityCss.Proofs.Glob.Below
import UtilityCss.Proofs.Glob.Dangling
import UtilityCss.Proofs.Glob.Depth
import UtilityCss.Proofs.Glob.End
import UtilityCss.Proofs.Glob.Parts
import UtilityCss.Proofs.Glob.Start
import UtilityCss.Proofs.Grammar.Counter
import UtilityCss.Proofs.Grammar.History
import UtilityCss.Proofs.Grammar.Locality
import UtilityCss.Proofs.Grammar.Names
import UtilityCss.Proofs.Grammar.Registration
import UtilityCss.Proofs.Listing
import UtilityCss.Proofs.Merging
import UtilityCss.Proofs.Ordered.All
import UtilityCss.Proofs.Pattern.Candidates
import UtilityCss.Proofs.Pattern.Groups
import UtilityCss.Proofs.Pattern.Invariant
import UtilityCss.Proofs.Pattern.Ways
import UtilityCss.Proofs.Plugin.Application
import UtilityCss.Proofs.Plugin.OneValue
import UtilityCss.Proofs.Regrouping
import UtilityCss.Proofs.Repetition
import UtilityCss.Proofs.Resolution
import UtilityCss.Proofs.Resolution.Factors
import UtilityCss.Proofs.Resolution.InPlace
import UtilityCss.Proofs.Resolution.Longest
import UtilityCss.Proofs.Selector
import UtilityCss.Proofs.Stylesheet.Legible
import UtilityCss.Proofs.Stylesheet.Marks
import UtilityCss.Proofs.Stylesheet.Outline
import UtilityCss.Proofs.Stylesheet.RoundTrip
import UtilityCss.Proofs.Stylesheet.Runs
import UtilityCss.Proofs.Text.Bytes
import UtilityCss.Proofs.Text.Contained
import UtilityCss.Proofs.Text.Decoding
import UtilityCss.Proofs.Text.Lenient
import UtilityCss.Proofs.Text.Nesting
import UtilityCss.Proofs.Text.Pieces
import UtilityCss.Proofs.Text.Slice
import UtilityCss.Proofs.Text.Tidy
import UtilityCss.Proofs.Text.Words
import UtilityCss.Proofs.Theme.Breakpoints
import UtilityCss.Proofs.Theme.Extension
import UtilityCss.Proofs.Theme.Flattening
import UtilityCss.Proofs.Theme.Layers
import UtilityCss.Proofs.Theme.Locality
import UtilityCss.Proofs.Theme.Width
import UtilityCss.Proofs.Token.Cuts
import UtilityCss.Proofs.Token.Escape
import UtilityCss.Proofs.Token.Form
import UtilityCss.Proofs.Token.Identifier
import UtilityCss.Proofs.Token.InPlace
import UtilityCss.Proofs.Token.Parts
import UtilityCss.Proofs.Token.Pieces
import UtilityCss.Proofs.Token.Readings
import UtilityCss.Proofs.Token.Spelling
import UtilityCss.Proofs.Tolerance
import UtilityCss.Proofs.Undecodable
import UtilityCss.Proofs.Value.Bracketed
import UtilityCss.Proofs.Value.Calls
import UtilityCss.Proofs.Value.InPlace
import UtilityCss.Proofs.Value.Numeral
import UtilityCss.Proofs.Value.Opposite
import UtilityCss.Proofs.Value.Percentage
import UtilityCss.Proofs.Value.Sniffed
import UtilityCss.Proofs.Variant
import UtilityCss.Proofs.Variant.Rank
import UtilityCss.Proofs.Yaml.Lexing
import UtilityCss.Proofs.Yaml.Parsing
import UtilityCss.Proofs.Yaml.Quoted
import UtilityCss.Report
import UtilityCss.Report.Printer
import UtilityCss.Resolution
import UtilityCss.Resolution.InPlace
import UtilityCss.Rule
import UtilityCss.Scan
import UtilityCss.Stylesheet
import UtilityCss.Stylesheet.Preflight
import UtilityCss.Stylesheet.Printer
import UtilityCss.Text.Blank
import UtilityCss.Text.CaseFold
import UtilityCss.Text.Category
import UtilityCss.Text.Cut
import UtilityCss.Text.Letter
import UtilityCss.Text.Slice
import UtilityCss.Text.Utf8
import UtilityCss.Text.Word
import UtilityCss.Theme
import UtilityCss.Theme.Default
import UtilityCss.Theme.Scale
import UtilityCss.Theme.Screen
import UtilityCss.Token
import UtilityCss.Token.InPlace
import UtilityCss.Token.Shape
import UtilityCss.Value.Arbitrary
import UtilityCss.Value.InPlace
import UtilityCss.Value.Negation
import UtilityCss.Value.Transform
import UtilityCss.Variant
import UtilityCss.Wording
import UtilityCss.Yaml.Cursor
import UtilityCss.Yaml.Node
import UtilityCss.Yaml.Scalar
import UtilityCss.Yaml.Token
import UtilityCss.Yaml.Value
