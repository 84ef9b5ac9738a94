import Aml.Command.Listing
import Aml.Command.Options
import Aml.Command.Run
import Aml.Diagnostic.Basic
import Aml.Diagnostic.Lexical
import Aml.Diagnostic.Report
import Aml.Duration
import Aml.Editor.Diagnostic
import Aml.Editor.Highlight
import Aml.Editor.Position
import Aml.Editor.Session
import Aml.Interactive
import Aml.Keyword.Config
import Aml.Keyword.Load
import Aml.Keyword.LoadError
import Aml.Keyword.Table
import Aml.Kind
import Aml.Literal
import Aml.Main
import Aml.Number.Binary64
import Aml.Number.Fixed
import Aml.Number.Integer
import Aml.Number.Real
import Aml.Number.Shortest
import Aml.Pattern.CharSet
import Aml.Pattern.Match
import Aml.Pattern.Parser
import Aml.Pattern.Program
import Aml.Pattern.Syntax
import Aml.Position
import Aml.Rule.Basic
import Aml.Rule.Default
import Aml.Rule.Registry
import Aml.Scan.Error
import Aml.Scan.Piece
import Aml.Scan.Stream
import Aml.Text.Basic
import Aml.Text.CaseFold
import Aml.Text.Category
import Aml.Text.Character
import Aml.Text.Columns
import Aml.Text.Paint
import Aml.Text.Quote
import Aml.Token
import Aml.Yaml.Cursor
import Aml.Yaml.Document
import Aml.Yaml.Node
import Aml.Yaml.Property
import Aml.Yaml.Scalar.Block
import Aml.Yaml.Scalar.Gap
import Aml.Yaml.Scalar.Plain
import Aml.Yaml.Scalar.Quoted
import Aml.Yaml.Source
import Aml.Yaml.Tag
import Aml.Yaml.Timestamp
import Aml.Yaml.Token
import Aml.Yaml.Token.Reader
import Aml.Proofs.Interactive
import Aml.Proofs.Kind
import Aml.Proofs.Position
import Aml.Proofs.Token
import Aml.Proofs.Command.Listing
import Aml.Proofs.Diagnostic.Color
import Aml.Proofs.Diagnostic.Repair
import Aml.Proofs.Diagnostic.Report
import Aml.Proofs.Diagnostic.Unclosed
import Aml.Proofs.Editor.Containment
import Aml.Proofs.Editor.Diagnostic
import Aml.Proofs.Editor.Highlight
import Aml.Proofs.Editor.Position
import Aml.Proofs.Editor.Session
import Aml.Proofs.Editor.Splice
import Aml.Proofs.Keyword.File
import Aml.Proofs.Keyword.Overlay
import Aml.Proofs.Keyword.Recognition
import Aml.Proofs.Keyword.Table
import Aml.Proofs.Number.Binary64
import Aml.Proofs.Number.Denotation
import Aml.Proofs.Number.Numeral
import Aml.Proofs.Number.Rounding
import Aml.Proofs.Number.Word
import Aml.Proofs.Pattern.Anchored
import Aml.Proofs.Pattern.Compile
import Aml.Proofs.Pattern.Counts
import Aml.Proofs.Pattern.Machine
import Aml.Proofs.Pattern.Run
import Aml.Proofs.Pattern.Semantics
import Aml.Proofs.Rule.Acceptance
import Aml.Proofs.Rule.Faithful
import Aml.Proofs.Rule.Grammar
import Aml.Proofs.Rule.Lexis
import Aml.Proofs.Rule.Priority
import Aml.Proofs.Rule.Trial
import Aml.Proofs.Scan.Concatenation
import Aml.Proofs.Scan.Emission
import Aml.Proofs.Scan.Failure
import Aml.Proofs.Scan.FixedText
import Aml.Proofs.Scan.Illegal
import Aml.Proofs.Scan.Interleaving
import Aml.Proofs.Scan.Judgment
import Aml.Proofs.Scan.Language
import Aml.Proofs.Scan.LineCounter
import Aml.Proofs.Scan.Lines
import Aml.Proofs.Scan.LogicalLine
import Aml.Proofs.Scan.LongestMatch
import Aml.Proofs.Scan.Lossless
import Aml.Proofs.Scan.Numeral
import Aml.Proofs.Scan.Placement
import Aml.Proofs.Scan.Reach
import Aml.Proofs.Scan.Resolution
import Aml.Proofs.Scan.RoundTrip
import Aml.Proofs.Scan.Sign
import Aml.Proofs.Scan.Spelling
import Aml.Proofs.Scan.Truncation
import Aml.Proofs.Scan.WellFormed
import Aml.Proofs.Text.Columns
import Aml.Proofs.Text.Decoding
import Aml.Proofs.Text.Encoding
import Aml.Proofs.Text.Graphic
import Aml.Proofs.Text.Line
import Aml.Proofs.Text.Paint
import Aml.Proofs.Text.Place
import Aml.Proofs.Text.Quote
import Aml.Proofs.Text.Utf8
import Aml.Proofs.Token.Unambiguous
import Aml.Proofs.Yaml.Document
import Aml.Proofs.Yaml.Reader
import Aml.Proofs.Yaml.Source
