import PointQuery.Aggregate
import PointQuery.Basic
import PointQuery.CommandLine.Arguments
import PointQuery.CommandLine.Options
import PointQuery.CommandLine.Run
import PointQuery.Compiler.Basic
import PointQuery.Compiler.Config
import PointQuery.Compiler.Executor
import PointQuery.Compiler.Session
import PointQuery.Dialect
import PointQuery.Event
import PointQuery.Folder
import PointQuery.Json.Record
import PointQuery.Json.Token
import PointQuery.Json.Value
import PointQuery.Json.Writer
import PointQuery.Main
import PointQuery.Number.Binary64
import PointQuery.Number.Decimal
import PointQuery.Number.Notation
import PointQuery.Number.Shortest
import PointQuery.Projection
import PointQuery.Spatial.Coordinate
import PointQuery.Spatial.Distance
import PointQuery.Spatial.DistanceUnit
import PointQuery.Spatial.Search
import PointQuery.Sql.Alias
import PointQuery.Sql.Equality
import PointQuery.Sql.Fragment
import PointQuery.Sql.Placeholder
import PointQuery.Sql.Query
import PointQuery.Sql.Render
import PointQuery.Sql.Value
import PointQuery.Table
import PointQuery.Table.Json
import PointQuery.Text.Basic
import PointQuery.Text.Word
import PointQuery.TextFile
import PointQuery.Proofs.CommandLine.Files
import PointQuery.Proofs.CommandLine.Files
import PointQuery.Proofs.CommandLine.Padding
import PointQuery.Proofs.Compiler.Scalar
import PointQuery.Proofs.Compiler.Scopes
import PointQuery.Proofs.Compiler.Source
import PointQuery.Proofs.Compiler.Spelling
import PointQuery.Proofs.Compiler.Star
import PointQuery.Proofs.Compiler.Statement
import PointQuery.Proofs.Coordinate.Reading
import PointQuery.Proofs.Coordinate.RoundTrip
import PointQuery.Proofs.Json.Grammar
import PointQuery.Proofs.Json.Presented
import PointQuery.Proofs.Json.Reading
import PointQuery.Proofs.Json.Skipping
import PointQuery.Proofs.Number.Decimal
import PointQuery.Proofs.Number.Numeral
import PointQuery.Proofs.Number.Rounding
import PointQuery.Proofs.Number.Shortest
import PointQuery.Proofs.Output.Columns
import PointQuery.Proofs.Output.Measured
import PointQuery.Proofs.Output.Names
import PointQuery.Proofs.Output.Scope
import PointQuery.Proofs.Output.Stacked
import PointQuery.Proofs.Output.Unions
import PointQuery.Proofs.Placeholder.Binding
import PointQuery.Proofs.Placeholder.Layout
import PointQuery.Proofs.Placeholder.Literal
import PointQuery.Proofs.Placeholder.Parentheses
import PointQuery.Proofs.Placeholder.Projection
import PointQuery.Proofs.Placeholder.Reading
import PointQuery.Proofs.Placeholder.Scan
import PointQuery.Proofs.Placeholder.Sound
import PointQuery.Proofs.Projection.Chain
import PointQuery.Proofs.Projection.Commutation
import PointQuery.Proofs.Projection.Coverage
import PointQuery.Proofs.Projection.Foreign
import PointQuery.Proofs.Projection.Frame
import PointQuery.Proofs.Projection.Idempotence
import PointQuery.Proofs.Projection.Names
import PointQuery.Proofs.Projection.Nesting
import PointQuery.Proofs.Projection.Select
import PointQuery.Proofs.Rendering.Conditions
import PointQuery.Proofs.Rendering.Searches
import PointQuery.Proofs.Rendering.Values
import PointQuery.Proofs.Search.Attribute
import PointQuery.Proofs.Search.Calls
import PointQuery.Proofs.Search.Outcome
import PointQuery.Proofs.Search.Sequence
import PointQuery.Proofs.Search.Stack
import PointQuery.Proofs.Search.Unions
import PointQuery.Proofs.Table.Presentation
import PointQuery.Proofs.Text.Parts
import PointQuery.Proofs.Text.Trim
import PointQuery.Proofs.Values.Arguments
import PointQuery.Proofs.Values.Query
import PointQuery.Proofs.Values.Relation
import PointQuery.Proofs.Values.Session
