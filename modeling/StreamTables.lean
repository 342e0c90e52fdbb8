import StreamTables.Codec.Format
import StreamTables.Codec.Json
import StreamTables.Codec.Payload
import StreamTables.Column
import StreamTables.Decimal.Basic
import StreamTables.Decimal.Text
import StreamTables.Diagnostic.Basic
import StreamTables.Diagnostic.Internal
import StreamTables.Diagnostic.Json
import StreamTables.Double.Basic
import StreamTables.Double.Shortest
import StreamTables.Double.Text
import StreamTables.Error
import StreamTables.Json.Basic
import StreamTables.Json.Decode
import StreamTables.Json.Numeral
import StreamTables.Json.Reader
import StreamTables.Json.Token
import StreamTables.Json.Writer
import StreamTables.PlanPath
import StreamTables.Record
import StreamTables.Schema.Basic
import StreamTables.Schema.Json
import StreamTables.Schema.Projection
import StreamTables.Schema.Rebuild
import StreamTables.Settings
import StreamTables.Source.Basic
import StreamTables.Source.Build
import StreamTables.Source.Json
import StreamTables.SqlType.Basic
import StreamTables.SqlType.Cast
import StreamTables.SqlType.Json
import StreamTables.SqlType.Parse
import StreamTables.Stage.Basic
import StreamTables.Stage.Layout
import StreamTables.Store.Basic
import StreamTables.Store.Entries
import StreamTables.Streams
import StreamTables.SystemColumn
import StreamTables.Table
import StreamTables.Text.Blank
import StreamTables.Text.Digits
import StreamTables.Text.UpperCase
import StreamTables.Value.Basic
import StreamTables.Value.Json
import StreamTables.Value.Text
import StreamTables.VersionTable
import StreamTables.Proofs.Codec.ReadBack
import StreamTables.Proofs.Codec.Request
import StreamTables.Proofs.Codec.RoundTrip
import StreamTables.Proofs.Decimal.RoundTrip
import StreamTables.Proofs.Double.Bounds
import StreamTables.Proofs.Double.Interval
import StreamTables.Proofs.Double.Nearest
import StreamTables.Proofs.Json.Decode
import StreamTables.Proofs.Json.Denotation
import StreamTables.Proofs.Json.Fields
import StreamTables.Proofs.Json.Lexing
import StreamTables.Proofs.Json.Numeral
import StreamTables.Proofs.Json.ReadBack
import StreamTables.Proofs.Json.RoundTrip
import StreamTables.Proofs.Schema.Additions
import StreamTables.Proofs.Schema.Append
import StreamTables.Proofs.Schema.Clash
import StreamTables.Proofs.Schema.ColumnList
import StreamTables.Proofs.Schema.Compatible
import StreamTables.Proofs.Schema.CompatibleRebuild
import StreamTables.Proofs.Schema.Construction
import StreamTables.Proofs.Schema.Genuine
import StreamTables.Proofs.Schema.Projection
import StreamTables.Proofs.Schema.ReadBack
import StreamTables.Proofs.Schema.Rebuild
import StreamTables.Proofs.Schema.Serving
import StreamTables.Proofs.Source.Buildable
import StreamTables.Proofs.Source.Built
import StreamTables.Proofs.Source.Depth
import StreamTables.Proofs.Source.FailedBuild
import StreamTables.Proofs.Source.Live
import StreamTables.Proofs.Source.Persisted
import StreamTables.Proofs.Source.Pipeline
import StreamTables.Proofs.Source.Process
import StreamTables.Proofs.Source.Readable
import StreamTables.Proofs.Source.Refusal
import StreamTables.Proofs.Source.Rejected
import StreamTables.Proofs.Source.Rows
import StreamTables.Proofs.Source.Served
import StreamTables.Proofs.Source.Stored
import StreamTables.Proofs.Source.Writes
import StreamTables.Proofs.SqlType.Order
import StreamTables.Proofs.SqlType.ReadBack
import StreamTables.Proofs.SqlType.Values
import StreamTables.Proofs.Stage.Layout
import StreamTables.Proofs.Stage.Merge
import StreamTables.Proofs.Store.LastWrite
import StreamTables.Proofs.Store.Pass
import StreamTables.Proofs.Streams.Isolation
import StreamTables.Proofs.Streams.Run
import StreamTables.Proofs.SystemColumn.Growth
import StreamTables.Proofs.Table.Process
import StreamTables.Proofs.Text.Digits
import StreamTables.Proofs.Traversal
import StreamTables.Proofs.Value.Atoms
import StreamTables.Proofs.Value.Identity
import StreamTables.Proofs.Value.RoundTrip
import StreamTables.Proofs.Schema.Acceptance
import StreamTables.Proofs.SqlType.Names
import StreamTables.Proofs.SqlType.Unambiguous
import StreamTables.Proofs.Schema.Unambiguous
import StreamTables.Proofs.Stage.Places
import StreamTables.Proofs.SystemColumn.Upgrade
import StreamTables.Proofs.Text.Pieces
import StreamTables.Proofs.Source.Names
import StreamTables.Proofs.SqlType.Line
import StreamTables.Proofs.Diagnostic.Outline
