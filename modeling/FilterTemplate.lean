import FilterTemplate.Text.Blank
import FilterTemplate.Text.Lines
import FilterTemplate.Text.Replace
import FilterTemplate.Text.Quoted
import FilterTemplate.Text.Printable
import FilterTemplate.Text.Diagnostic
import FilterTemplate.Number.Binary64
import FilterTemplate.Number.Rounding
import FilterTemplate.Number.Scaling
import FilterTemplate.Number.Shortest
import FilterTemplate.Number.DecimalText
import FilterTemplate.Calendar.Date
import FilterTemplate.Calendar.Instant
import FilterTemplate.Number.IntegerText
import FilterTemplate.Json.Basic
import FilterTemplate.Json.Printer
import FilterTemplate.Json.Reader
import FilterTemplate.Json.Skipping
import FilterTemplate.Json.Shape
import FilterTemplate.Value.Basic
import FilterTemplate.Value.Literal
import FilterTemplate.Value.Datum
import FilterTemplate.Table
import FilterTemplate.Value.Reading
import FilterTemplate.Params.Basic
import FilterTemplate.Substitution
import FilterTemplate.Operator
import FilterTemplate.Path
import FilterTemplate.Event
import FilterTemplate.Query.Prepared
import FilterTemplate.Query.Basic
import FilterTemplate.Query.Call
import FilterTemplate.Query.Session
import FilterTemplate.Loader.FileName
import FilterTemplate.Loader.Basic
import FilterTemplate.CommandLine.Arguments
import FilterTemplate.CommandLine.Run
import FilterTemplate.Main
import FilterTemplate.Segment
import FilterTemplate.Query.Comparisons
import FilterTemplate.Query.Inline
import FilterTemplate.Query.Desugaring
import FilterTemplate.Query.Outline
import FilterTemplate.Query.Grammar
import FilterTemplate.Query.Balance
import FilterTemplate.Value.Normal
import FilterTemplate.Query.Normal
import FilterTemplate.Json.Grammar
import FilterTemplate.Proofs.Table
import FilterTemplate.Proofs.Text.Replacement
import FilterTemplate.Proofs.Value.LiteralForm
import FilterTemplate.Proofs.Substitution
import FilterTemplate.Proofs.Query.Steps
import FilterTemplate.Proofs.Query.Stages
import FilterTemplate.Proofs.Query.Bindings
import FilterTemplate.Proofs.Query.Parts
import FilterTemplate.Proofs.Query.Names
import FilterTemplate.Proofs.Query.Rendering
import FilterTemplate.Proofs.Query.Values
import FilterTemplate.Proofs.Text.Quoting
import FilterTemplate.Proofs.Query.Containment
import FilterTemplate.Proofs.Query.Atoms
import FilterTemplate.Proofs.Query.Nesting
import FilterTemplate.Proofs.Query.Derivation
import FilterTemplate.Proofs.Query.Desugaring
import FilterTemplate.Proofs.Query.Progress
import FilterTemplate.Proofs.Query.Totals
import FilterTemplate.Proofs.Query.Balance
import FilterTemplate.Proofs.Query.Bookkeeping
import FilterTemplate.Proofs.Query.Marks
import FilterTemplate.Proofs.Query.Reading
import FilterTemplate.Proofs.Json.Scalars
import FilterTemplate.Proofs.Json.Values
import FilterTemplate.Proofs.Json.Members
import FilterTemplate.Proofs.Value.Normalization
import FilterTemplate.Proofs.Json.Printing
import FilterTemplate.Proofs.Json.Objects
import FilterTemplate.Proofs.Params.Reading
import FilterTemplate.Proofs.Query.RoundTrip
import FilterTemplate.Params.History
import FilterTemplate.Proofs.Params.History
import FilterTemplate.Proofs.Text.Trimming
import FilterTemplate.Proofs.Value.Reading
import FilterTemplate.Loader.Members
import FilterTemplate.Proofs.Loader.Members
import FilterTemplate.Proofs.Locality
import FilterTemplate.Proofs.Value.Delimiting
import FilterTemplate.Proofs.Query.Collisions
import FilterTemplate.Loader.Assignments
import FilterTemplate.Proofs.Loader.Assignments
import FilterTemplate.Proofs.Loader.Failure
import FilterTemplate.Proofs.Loader.Agreement
import FilterTemplate.Calendar.Spelling
import FilterTemplate.Proofs.Number.Comparison
import FilterTemplate.Proofs.Number.Padding
import FilterTemplate.Proofs.Calendar.Date
import FilterTemplate.Proofs.Calendar.Instant
import FilterTemplate.Proofs.Calendar.DateLiteral
import FilterTemplate.Proofs.Calendar.TimeOrder
import FilterTemplate.Proofs.Loader.Quotes
import FilterTemplate.Proofs.Value.Retyping
import FilterTemplate.Proofs.Query.Decoding
import FilterTemplate.Proofs.Value.NormalForm
