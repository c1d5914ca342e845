import ApiProjection.Api.Basic
import ApiProjection.Api.Dump
import ApiProjection.Api.Reader.Document
import ApiProjection.Api.Reader.Schema
import ApiProjection.Api.Schema
import ApiProjection.Command.Arguments
import ApiProjection.Command.Config
import ApiProjection.Command.Form
import ApiProjection.Command.Program
import ApiProjection.Command.Project
import ApiProjection.Command.Warnings
import ApiProjection.Console.Basic
import ApiProjection.Console.Flat
import ApiProjection.Console.Markup
import ApiProjection.Crash
import ApiProjection.Diagnostic.Warning
import ApiProjection.Diagnostic.Warnings
import ApiProjection.Extension
import ApiProjection.Failure
import ApiProjection.Host.Disk
import ApiProjection.Host.Draft
import ApiProjection.Host.PathName
import ApiProjection.Host.Session
import ApiProjection.Input.Content
import ApiProjection.Input.Source
import ApiProjection.Json.Basic
import ApiProjection.Json.OfValue
import ApiProjection.Json.Printer
import ApiProjection.Json.Reader
import ApiProjection.Main
import ApiProjection.Number.Binary64
import ApiProjection.Number.Shortest
import ApiProjection.Output.Node
import ApiProjection.Output.Schema
import ApiProjection.Pointer
import ApiProjection.Projection.Document
import ApiProjection.Projection.Operation
import ApiProjection.Projection.Rendering
import ApiProjection.Projection.Report
import ApiProjection.Projection.Schema
import ApiProjection.Projection.Traced
import ApiProjection.Record.Issue
import ApiProjection.Record.Reader
import ApiProjection.Record.Scalar
import ApiProjection.Regex.Basic
import ApiProjection.Regex.CharSet
import ApiProjection.Regex.Cursor
import ApiProjection.Regex.Escape
import ApiProjection.Regex.Fault
import ApiProjection.Regex.Opening
import ApiProjection.Regex.Parser
import ApiProjection.Settings.Basic
import ApiProjection.Settings.Change
import ApiProjection.Settings.Overlay
import ApiProjection.Settings.Store
import ApiProjection.Target
import ApiProjection.Text.AnyCase
import ApiProjection.Text.Blank
import ApiProjection.Text.Lower
import ApiProjection.Text.Printable
import ApiProjection.Text.Quoted
import ApiProjection.Text.Utf8
import ApiProjection.Text.WordChar
import ApiProjection.Validation.Bundled
import ApiProjection.Validation.Check
import ApiProjection.Validation.MetaSchema
import ApiProjection.Validation.Rule
import ApiProjection.Validation.Validator
import ApiProjection.Value.Basic
import ApiProjection.Value.Calendar
import ApiProjection.Value.Compare
import ApiProjection.Value.Literal
import ApiProjection.Yaml.Cursor
import ApiProjection.Yaml.Fault
import ApiProjection.Yaml.Node
import ApiProjection.Yaml.Node.Value
import ApiProjection.Yaml.Number
import ApiProjection.Yaml.Plain
import ApiProjection.Yaml.Printer
import ApiProjection.Yaml.Reader
import ApiProjection.Yaml.Token
import ApiProjection.Yaml.Token.Reader
import ApiProjection.Yaml.Token.Scalar
import ApiProjection.Yaml.Token.Tag
import ApiProjection.Proofs.Fields
import ApiProjection.Proofs.Induction
import ApiProjection.Proofs.Pointer
import ApiProjection.Proofs.Pointer.Decoding
import ApiProjection.Proofs.Agreement.Basic
import ApiProjection.Proofs.Visit.Basic
import ApiProjection.Proofs.Walk
import ApiProjection.Proofs.Acceptance.Basic
import ApiProjection.Proofs.Acceptance.Projection
import ApiProjection.Proofs.Outcome
import ApiProjection.Proofs.Resolve
import ApiProjection.Proofs.Visit.Distinct
import ApiProjection.Proofs.Visit.Location
import ApiProjection.Proofs.Visit.Loss
import ApiProjection.Proofs.Lossless
import ApiProjection.Proofs.Agreement.Common
import ApiProjection.Proofs.Agreement.Nodes
import ApiProjection.Proofs.Agreement.Document
import ApiProjection.Proofs.Reference.Bare
import ApiProjection.Proofs.Reference.Outcome
import ApiProjection.Proofs.Reference.Section
import ApiProjection.Proofs.Reference.Site
import ApiProjection.Proofs.Reference.Terminal
import ApiProjection.Proofs.Reference.Mention
import ApiProjection.Proofs.Reference.Mentioned
import ApiProjection.Proofs.Reference.Closed
import ApiProjection.Proofs.Failure.Ending
import ApiProjection.Proofs.Failure.Refusal
import ApiProjection.Proofs.RoundTrip.Decimal
import ApiProjection.Proofs.RoundTrip.JsonScalar
import ApiProjection.Proofs.RoundTrip.Json
import ApiProjection.Proofs.Validity.Prefix
import ApiProjection.Proofs.Validity.Rule
import ApiProjection.Proofs.Validity.Reading
import ApiProjection.Proofs.Validity.Outline
import ApiProjection.Proofs.Validity.Bundled
import ApiProjection.Proofs.Validity.Cancellation
import ApiProjection.Proofs.Diagnostic.Queries
import ApiProjection.Proofs.RoundTrip.Pen
import ApiProjection.Proofs.RoundTrip.Quotes
import ApiProjection.Proofs.RoundTrip.Single
import ApiProjection.Proofs.RoundTrip.Escape
import ApiProjection.Proofs.Visit.Hosts
import ApiProjection.Proofs.RoundTrip.Document
import ApiProjection.Proofs.RoundTrip.Keyed
import ApiProjection.Proofs.Extension.Bearer
import ApiProjection.Proofs.Extension.Inline
import ApiProjection.Proofs.Sketch.Basic
import ApiProjection.Proofs.Sketch.Written
import ApiProjection.Proofs.RoundTrip.Double
import ApiProjection.Proofs.RoundTrip.Plain
import ApiProjection.Proofs.RoundTrip.Key
import ApiProjection.Proofs.RoundTrip.Text
import ApiProjection.Proofs.RoundTrip.Scan
import ApiProjection.Proofs.RoundTrip.Rounding
import ApiProjection.Proofs.RoundTrip.Numeral
import ApiProjection.Proofs.RoundTrip.Layout
import ApiProjection.Proofs.RoundTrip.Nodes
import ApiProjection.Proofs.RoundTrip.Renderings
import ApiProjection.Proofs.Session
import ApiProjection.Proofs.Command.MetaSchema
import ApiProjection.Proofs.Failure.Loading
import ApiProjection.Proofs.Settings.Overlay
import ApiProjection.Proofs.Settings.RightBiased
import ApiProjection.Proofs.Settings.Members
import ApiProjection.Proofs.Settings.Layers
import ApiProjection.Proofs.Reading.Basic
import ApiProjection.Proofs.Nested
import ApiProjection.Proofs.Reading.Plain
import ApiProjection.Proofs.Reading.Model
import ApiProjection.Proofs.Reading.Respects
import ApiProjection.Proofs.Reading.Rebuilds
import ApiProjection.Proofs.Reading.Lasting
import ApiProjection.Proofs.Reading.Codec
import ApiProjection.Proofs.Reading.Schemas
import ApiProjection.Proofs.Reading.Documents
import ApiProjection.Proofs.Reading.Parsing
import ApiProjection.Proofs.Host.Disk
import ApiProjection.Proofs.Host.Heedless
import ApiProjection.Proofs.Host.Modest
import ApiProjection.Proofs.Host.Place
import ApiProjection.Proofs.Host.Draft
import ApiProjection.Proofs.Host.Replace
import ApiProjection.Proofs.Host.Atomic
import ApiProjection.Proofs.Settings.Kept
import ApiProjection.Proofs.Settings.Change
import ApiProjection.Proofs.Command.Steps
import ApiProjection.Proofs.RoundTrip.LastLine
import ApiProjection.Proofs.RoundTrip.Utf8
import ApiProjection.Proofs.RoundTrip.File
import ApiProjection.Proofs.Console.Voice
import ApiProjection.Proofs.Console.Notice
import ApiProjection.Proofs.Console.Flat
import ApiProjection.Proofs.Command.Program
import ApiProjection.Proofs.Command.Heedless
import ApiProjection.Proofs.Command.Whole
import ApiProjection.Proofs.Command.Bare
import ApiProjection.Proofs.Command.Listing
import ApiProjection.Proofs.Command.Config
import ApiProjection.Proofs.Command.Flag
import ApiProjection.Proofs.Command.Revoiced
import ApiProjection.Proofs.Command.Verbosity
