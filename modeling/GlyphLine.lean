import GlyphLine.ByName
import GlyphLine.Command.Dispatch
import GlyphLine.Command.Lint
import GlyphLine.Command.Manual
import GlyphLine.Command.Request
import GlyphLine.Command.Stored
import GlyphLine.Command.Words
import GlyphLine.Digest.Sha256
import GlyphLine.Double.Basic
import GlyphLine.Double.Shortest
import GlyphLine.Double.Text
import GlyphLine.Explain.Layout
import GlyphLine.Explain.Registry
import GlyphLine.Field
import GlyphLine.Host.Act
import GlyphLine.Host.Basic
import GlyphLine.Host.Failure
import GlyphLine.Host.Machine
import GlyphLine.Host.Path
import GlyphLine.Host.Volume
import GlyphLine.Json.Basic
import GlyphLine.Json.Container
import GlyphLine.Json.Fault
import GlyphLine.Json.Lexeme
import GlyphLine.Json.Printer
import GlyphLine.Json.Reader
import GlyphLine.Json.Shape
import GlyphLine.Level.Pressure
import GlyphLine.Level.ReadyTier
import GlyphLine.Lint.Code
import GlyphLine.Lint.Outcome
import GlyphLine.Lint.Rules
import GlyphLine.Lint.Violation
import GlyphLine.Log.Event
import GlyphLine.Log.Filter
import GlyphLine.Main
import GlyphLine.Policy.Adoption
import GlyphLine.Policy.Basic
import GlyphLine.Policy.Document
import GlyphLine.Policy.Fault
import GlyphLine.Policy.Form
import GlyphLine.Policy.Json
import GlyphLine.Policy.Loading
import GlyphLine.Policy.Resolution
import GlyphLine.Policy.Scalar
import GlyphLine.Policy.Yaml
import GlyphLine.Proofs.ByName
import GlyphLine.Proofs.Command.Bytes
import GlyphLine.Proofs.Command.Lint
import GlyphLine.Proofs.Command.Outcome
import GlyphLine.Proofs.Command.Writing
import GlyphLine.Proofs.Compact.Basic
import GlyphLine.Proofs.Compact.Json
import GlyphLine.Proofs.Compact.Layout
import GlyphLine.Proofs.Compact.Node
import GlyphLine.Proofs.Compact.Scalar
import GlyphLine.Proofs.Double.Plain
import GlyphLine.Proofs.Double.ReadBack
import GlyphLine.Proofs.Double.Rounding
import GlyphLine.Proofs.Double.Shortest
import GlyphLine.Proofs.Explain.Examples
import GlyphLine.Proofs.Explain.Registered
import GlyphLine.Proofs.Host.Act
import GlyphLine.Proofs.Host.Directories
import GlyphLine.Proofs.Host.Path
import GlyphLine.Proofs.Json.Accepted
import GlyphLine.Proofs.Json.Canonical
import GlyphLine.Proofs.Json.Grammar
import GlyphLine.Proofs.Json.Holes
import GlyphLine.Proofs.Json.Lexeme
import GlyphLine.Proofs.Json.Members
import GlyphLine.Proofs.Json.Places
import GlyphLine.Proofs.Json.RoundTrip
import GlyphLine.Proofs.Json.Settled
import GlyphLine.Proofs.Json.Shape
import GlyphLine.Proofs.Lint.Adoption
import GlyphLine.Proofs.Lint.Clauses
import GlyphLine.Proofs.Lint.Exactness
import GlyphLine.Proofs.Lint.Findings
import GlyphLine.Proofs.Lint.Growth
import GlyphLine.Proofs.Lint.Identity
import GlyphLine.Proofs.Lint.Messages
import GlyphLine.Proofs.Lint.Obligations
import GlyphLine.Proofs.Lint.Order
import GlyphLine.Proofs.Lint.Satisfiable
import GlyphLine.Proofs.Lint.Sequence
import GlyphLine.Proofs.Lint.Strictness
import GlyphLine.Proofs.Lint.Summary
import GlyphLine.Proofs.Policy.Notations
import GlyphLine.Proofs.Policy.Resolution
import GlyphLine.Proofs.Policy.Respelling
import GlyphLine.Proofs.Policy.Scalar
import GlyphLine.Proofs.Policy.WholeScalars
import GlyphLine.Proofs.Policy.Written
import GlyphLine.Proofs.Render.Agreement
import GlyphLine.Proofs.Render.Annotations
import GlyphLine.Proofs.Render.CodeSpans
import GlyphLine.Proofs.Render.Escaping
import GlyphLine.Proofs.Render.Lines
import GlyphLine.Proofs.Render.Listing
import GlyphLine.Proofs.Report.MaskedPlaces
import GlyphLine.Proofs.Report.Masking
import GlyphLine.Proofs.Report.RoundTrip
import GlyphLine.Proofs.Report.Storable
import GlyphLine.Proofs.Text.ByteOrder
import GlyphLine.Proofs.Text.Decimal
import GlyphLine.Proofs.Text.Lines
import GlyphLine.Proofs.Text.Pieces
import GlyphLine.Proofs.Text.Trim
import GlyphLine.Proofs.Text.Utf8
import GlyphLine.Proofs.Timestamp
import GlyphLine.Proofs.Token.Draft
import GlyphLine.Proofs.Token.Extraction
import GlyphLine.Proofs.Token.Queries
import GlyphLine.Proofs.Token.Views
import GlyphLine.Proofs.Yaml.Scalar
import GlyphLine.Render.Annotation
import GlyphLine.Render.Console
import GlyphLine.Render.Markdown
import GlyphLine.Report.Basic
import GlyphLine.Report.Form
import GlyphLine.Report.Masking
import GlyphLine.Report.Reader
import GlyphLine.Report.Run
import GlyphLine.Schema.Basic
import GlyphLine.Schema.Breach
import GlyphLine.Text.Basic
import GlyphLine.Text.Blank
import GlyphLine.Text.Category
import GlyphLine.Text.Decimal
import GlyphLine.Text.Quoted
import GlyphLine.Text.Utf8
import GlyphLine.Timestamp
import GlyphLine.Token.Basic
import GlyphLine.Token.Set
import GlyphLine.Upkeep.Conformance
import GlyphLine.Upkeep.Coverage
import GlyphLine.Upkeep.Dispatch
import GlyphLine.Upkeep.Project
import GlyphLine.Upkeep.Schemas
import GlyphLine.Width
import GlyphLine.Yaml.Cursor
import GlyphLine.Yaml.Fault
import GlyphLine.Yaml.Lexeme
import GlyphLine.Yaml.Node
import GlyphLine.Yaml.Reader
import GlyphLine.Yaml.Scalar
import GlyphLine.Yaml.Token
import GlyphLine.Yaml.Tokens
