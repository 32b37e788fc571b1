import Inlay.Accessor
import Inlay.Act
import Inlay.Argument
import Inlay.CommandLine
import Inlay.Context
import Inlay.Document
import Inlay.Dump
import Inlay.Dump.Description
import Inlay.Dump.Label
import Inlay.Engine
import Inlay.Fault
import Inlay.File
import Inlay.Handle
import Inlay.Host.Recipe
import Inlay.Json.Basic
import Inlay.Json.Encoding
import Inlay.Json.Reader
import Inlay.Json.Writer
import Inlay.Lookup
import Inlay.Main
import Inlay.Message
import Inlay.Message.Complaint
import Inlay.Message.Layout
import Inlay.Message.Presentation
import Inlay.Message.Reference
import Inlay.Message.Subject
import Inlay.Message.Template
import Inlay.Number.Binary64
import Inlay.Number.Decimal
import Inlay.Number.Literal
import Inlay.Number.Shortest
import Inlay.Page
import Inlay.Path
import Inlay.Processor
import Inlay.Program
import Inlay.Registry
import Inlay.Settings
import Inlay.Table
import Inlay.Tag.Basic
import Inlay.Tag.Scan
import Inlay.Text.Blank
import Inlay.Text.Case
import Inlay.Text.CaseTable
import Inlay.Text.Digit
import Inlay.Text.Entity
import Inlay.Text.Line
import Inlay.Text.Printable
import Inlay.Text.Quoted
import Inlay.Text.Runs
import Inlay.Text.Utf8
import Inlay.Text.Width
import Inlay.TypeInfo
import Inlay.TypeInfo.Documentation
import Inlay.Value.Attribute
import Inlay.Value.Basic
import Inlay.Value.Change
import Inlay.Value.Construction
import Inlay.Value.Content
import Inlay.Value.Equality
import Inlay.Value.Literal
import Inlay.Value.Range
import Inlay.Value.Render
import Inlay.Value.Shown
import Inlay.Value.Standard
import Inlay.Walk
import Inlay.World
import Inlay.Proofs.Tag.Grammar
import Inlay.Proofs.Tag.Occurrence
import Inlay.Proofs.Page.Substitution
import Inlay.Proofs.Act
import Inlay.Proofs.Engine.Resolution
import Inlay.Proofs.Engine.Sanitizing
import Inlay.Proofs.Page.Seam
import Inlay.Proofs.World.Respect
import Inlay.Proofs.Engine.Unset
import Inlay.Proofs.Text.Entity
import Inlay.Proofs.Host.Trace
import Inlay.Proofs.Engine.Raw
import Inlay.Proofs.World.Report
import Inlay.Proofs.Path.Segment
import Inlay.Proofs.Engine.Report
import Inlay.Proofs.Act.Match
import Inlay.Proofs.Sight.Basic
import Inlay.Proofs.Sight.Content
import Inlay.Proofs.Sight.Reading
import Inlay.Proofs.Sight.Guard
import Inlay.Proofs.Sight.Handle
import Inlay.Proofs.Sight.Standard
import Inlay.Proofs.Sight.Call
import Inlay.Proofs.Sight.Shown
import Inlay.Proofs.Sight.Walk
import Inlay.Proofs.Sight.Json
import Inlay.Proofs.Sight.Dump
import Inlay.Proofs.Sight.Processor
import Inlay.Proofs.Page.Match
import Inlay.Proofs.Sight.Veil
import Inlay.Proofs.Engine.Trace
import Inlay.Proofs.Engine.Hidden
import Inlay.Proofs.Table
import Inlay.Proofs.Sight.Callee
import Inlay.Proofs.Sight.Lookup
import Inlay.Proofs.Text.Trim
import Inlay.Proofs.Path.Nesting
import Inlay.Proofs.Argument.Literal
import Inlay.Proofs.Argument.Written
import Inlay.Proofs.Tag.FreeCall
import Inlay.Proofs.Engine.Calls
import Inlay.Proofs.Engine.FreeCall
import Inlay.Proofs.Path.Cut
import Inlay.Proofs.Path.Accessor
import Inlay.Proofs.Page.Chunk
import Inlay.Proofs.Engine.Registry
import Inlay.Proofs.Number.Decimal
import Inlay.Proofs.Number.Spelling
import Inlay.Proofs.Json.Numeral
import Inlay.Proofs.Json.Reading
import Inlay.Proofs.Act.Settled
import Inlay.Proofs.Handle.Exposure
import Inlay.Proofs.Handle.Answer
import Inlay.Proofs.Handle.Unaltered
import Inlay.Proofs.Json.Document
import Inlay.Proofs.Walk.Regular
import Inlay.Proofs.Walk.Navigation
import Inlay.Proofs.Walk.Encoding
import Inlay.Proofs.Act.Return
import Inlay.Proofs.Argument.Token
import Inlay.Proofs.Walk.Return
import Inlay.Proofs.Engine.Processing
import Inlay.Proofs.Json.Alike
import Inlay.Proofs.Json.Faithful
import Inlay.Proofs.Walk.Composition
import Inlay.Proofs.Engine.Reference
import Inlay.Proofs.Json.Grammar
import Inlay.Proofs.Json.Lexeme
import Inlay.Proofs.Text.Utf8
import Inlay.Proofs.Json.Parsing
import Inlay.Proofs.Json.Lines
import Inlay.Proofs.Json.Decoding
import Inlay.Proofs.Document.Loading
import Inlay.Proofs.Walk.Quiet
import Inlay.Proofs.Text.Line
import Inlay.Proofs.Argument.Cut
import Inlay.Proofs.Value.Sequence
import Inlay.Proofs.Program.Run
import Inlay.Proofs.Argument.Number
import Inlay.Proofs.Value.Number
