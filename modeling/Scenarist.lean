import Scenarist.Config
import Scenarist.Diagnostic.Failure
import Scenarist.Diagnostic.Kind
import Scenarist.Diagnostic.Report
import Scenarist.Document.Basic
import Scenarist.Document.Load
import Scenarist.Document.OfTree
import Scenarist.Document.Table
import Scenarist.Document.Write
import Scenarist.Dump
import Scenarist.Entries
import Scenarist.Format.Fault
import Scenarist.Format.Hint
import Scenarist.Format.Lexer
import Scenarist.Format.Pattern
import Scenarist.Format.Token
import Scenarist.Gherkin.Dialect
import Scenarist.Gherkin.Grammar
import Scenarist.Gherkin.Phrase
import Scenarist.Gherkin.Tree
import Scenarist.Handler.Arguments
import Scenarist.Handler.Reply
import Scenarist.Json.Basic
import Scenarist.Json.Draft
import Scenarist.Json.Printer
import Scenarist.Json.Reader
import Scenarist.Json.Record
import Scenarist.Keyword
import Scenarist.Number.Binary
import Scenarist.Number.FloatText
import Scenarist.Number.Integer
import Scenarist.Number.Shortest
import Scenarist.Outline.Cases
import Scenarist.Outline.Expansion
import Scenarist.Outline.Substitution
import Scenarist.Parser
import Scenarist.Proofs.Diagnostic.Kinds
import Scenarist.Proofs.Diagnostic.Places
import Scenarist.Proofs.Diagnostic.Rules
import Scenarist.Proofs.Document.DocStrings
import Scenarist.Proofs.Document.Emitted
import Scenarist.Proofs.Document.Given
import Scenarist.Proofs.Document.Identifiers
import Scenarist.Proofs.Document.Labels
import Scenarist.Proofs.Document.Reload
import Scenarist.Proofs.Document.Table
import Scenarist.Proofs.Dump.Collected
import Scenarist.Proofs.Entries
import Scenarist.Proofs.Format.Bytes
import Scenarist.Proofs.Format.Capture
import Scenarist.Proofs.Format.Fragment
import Scenarist.Proofs.Format.Lexer
import Scenarist.Proofs.Format.Names
import Scenarist.Proofs.Format.Rendering
import Scenarist.Proofs.Format.Spans
import Scenarist.Proofs.Json.Record
import Scenarist.Proofs.Json.Roundtrip
import Scenarist.Proofs.Number.Decimal
import Scenarist.Proofs.Number.Floats
import Scenarist.Proofs.Number.Integers
import Scenarist.Proofs.Outline.Cases
import Scenarist.Proofs.Outline.Headers
import Scenarist.Proofs.Outline.Instances
import Scenarist.Proofs.Outline.Placeholders
import Scenarist.Proofs.Outline.Reload
import Scenarist.Proofs.Outline.Tags
import Scenarist.Proofs.Regex.Anchored
import Scenarist.Proofs.Regex.Brackets
import Scenarist.Proofs.Regex.Language
import Scenarist.Proofs.Regex.Locality
import Scenarist.Proofs.Regex.Wrapped
import Scenarist.Proofs.Run.Arguments
import Scenarist.Proofs.Run.Course
import Scenarist.Proofs.Run.Ending
import Scenarist.Proofs.Run.Events
import Scenarist.Proofs.Run.Handlers
import Scenarist.Proofs.Run.Keywords
import Scenarist.Proofs.Run.Notes
import Scenarist.Proofs.Source.Cells
import Scenarist.Proofs.Steps.Bindings
import Scenarist.Proofs.Steps.Collection
import Scenarist.Proofs.Steps.Order
import Scenarist.Proofs.Steps.Resolution
import Scenarist.Proofs.Structure.DocStrings
import Scenarist.Proofs.Structure.Expectation
import Scenarist.Proofs.Structure.Grammar
import Scenarist.Proofs.Structure.Violation
import Scenarist.Proofs.Text.Ascii
import Scenarist.Proofs.Text.Backslash
import Scenarist.Proofs.Text.Blank
import Scenarist.Proofs.Text.Dedent
import Scenarist.Proofs.Text.Lines
import Scenarist.Proofs.Text.Marker
import Scenarist.Proofs.Text.NormalForm
import Scenarist.Proofs.Text.Outdent
import Scenarist.Proofs.Text.Scan
import Scenarist.Proofs.Text.Utf8
import Scenarist.Proofs.Value.Agreement
import Scenarist.Regex.Basic
import Scenarist.Regex.Brackets
import Scenarist.Regex.CharSet
import Scenarist.Regex.Escape
import Scenarist.Regex.Match
import Scenarist.Regex.Reader
import Scenarist.Run.Fixtures
import Scenarist.Run.Outcome
import Scenarist.Run.Preparation
import Scenarist.Run.Scenario
import Scenarist.Script.Basic
import Scenarist.Source.Basic
import Scenarist.Source.Cells
import Scenarist.Source.Line
import Scenarist.Steps.Collection
import Scenarist.Steps.Definition
import Scenarist.Steps.Pattern
import Scenarist.Steps.Registry
import Scenarist.Structure.Token
import Scenarist.Structure.Walker
import Scenarist.Text.Backslash
import Scenarist.Text.Blank
import Scenarist.Text.Encoding
import Scenarist.Text.Lines
import Scenarist.Text.Margin
import Scenarist.Text.Quoted
import Scenarist.Text.Utf8
import Scenarist.Unicode.CaseFold
import Scenarist.Unicode.DecimalDigit
import Scenarist.Unicode.Hidden
import Scenarist.Unicode.Ranges
import Scenarist.Unicode.Word
import Scenarist.Value.Basic
import Scenarist.Value.Converter
import Scenarist.Proofs.Regex.Groups
import Scenarist.Proofs.Steps.Patterns
