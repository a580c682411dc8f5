import ColumnLabel.Column.Basic
import ColumnLabel.Column.Name
import ColumnLabel.Column.Statistics
import ColumnLabel.Condition.Basic
import ColumnLabel.Condition.Holds
import ColumnLabel.Context.Basic
import ColumnLabel.Context.Build
import ColumnLabel.Datum.Basic
import ColumnLabel.Datum.Kind
import ColumnLabel.Datum.Moment
import ColumnLabel.Datum.Written
import ColumnLabel.Fault
import ColumnLabel.Journal.Entry
import ColumnLabel.Journal.Setup
import ColumnLabel.Json.Reader
import ColumnLabel.Json.Writer
import ColumnLabel.Label.Fill
import ColumnLabel.Label.Render
import ColumnLabel.Number.Decimal
import ColumnLabel.Number.Double
import ColumnLabel.Number.Numeral
import ColumnLabel.Number.Rounding
import ColumnLabel.Number.Reading
import ColumnLabel.Number.Shortest
import ColumnLabel.Proofs.Column.Statistics
import ColumnLabel.Proofs.Context.Built
import ColumnLabel.Proofs.Context.Merged
import ColumnLabel.Proofs.Context.Named
import ColumnLabel.Proofs.Context.Restricted
import ColumnLabel.Proofs.Context.Shown
import ColumnLabel.Proofs.Context.Wrapped
import ColumnLabel.Proofs.Datum.Depth
import ColumnLabel.Proofs.Json.Data
import ColumnLabel.Proofs.Label.Auxiliary
import ColumnLabel.Proofs.Label.Displayed
import ColumnLabel.Proofs.Label.Evaluate
import ColumnLabel.Proofs.Label.Filling
import ColumnLabel.Proofs.Label.Independence
import ColumnLabel.Proofs.Label.Reference
import ColumnLabel.Proofs.Label.Unresolved
import ColumnLabel.Proofs.Label.Verbatim
import ColumnLabel.Proofs.Number.Reach
import ColumnLabel.Proofs.Service.Gateway
import ColumnLabel.Proofs.Service.Http
import ColumnLabel.Proofs.Service.Rendering
import ColumnLabel.Proofs.Service.Reply
import ColumnLabel.Proofs.Service.Request
import ColumnLabel.Proofs.Steps
import ColumnLabel.Proofs.Template.Layout
import ColumnLabel.Proofs.Template.Print
import ColumnLabel.Proofs.Template.Segments
import ColumnLabel.Proofs.Template.Tags
import ColumnLabel.Proofs.Template.Tokens
import ColumnLabel.Proofs.Text.Encoding
import ColumnLabel.Proofs.Text.Html
import ColumnLabel.Proofs.Text.Trim
import ColumnLabel.Proofs.Value.Hidden
import ColumnLabel.Proofs.Variable.Shown
import ColumnLabel.Service.Address
import ColumnLabel.Service.Answer
import ColumnLabel.Service.Http
import ColumnLabel.Service.Refusal
import ColumnLabel.Service.Request
import ColumnLabel.Settings
import ColumnLabel.Template.Basic
import ColumnLabel.Template.Parse
import ColumnLabel.Template.Placeholder
import ColumnLabel.Template.Tag
import ColumnLabel.Text.Blank
import ColumnLabel.Text.Character
import ColumnLabel.Text.Encoding
import ColumnLabel.Text.Quoted
import ColumnLabel.Text.Printable
import ColumnLabel.Text.Search
import ColumnLabel.Value.Basic
import ColumnLabel.Variable.Basic
import ColumnLabel.Variable.BuiltIn
import ColumnLabel.Variable.Registry
import ColumnLabel.Proofs.Settings.History
import ColumnLabel.Proofs.Journal.Streams
import ColumnLabel.Proofs.Condition.Reading
import ColumnLabel.Proofs.Label.Reported
import ColumnLabel.Proofs.Variable.Registered
import ColumnLabel.Proofs.Number.Literal
import ColumnLabel.Proofs.Condition.Integer
import ColumnLabel.Proofs.Number.Nearest
import ColumnLabel.Proofs.Condition.Bound
import ColumnLabel.Proofs.Text.Marks
import ColumnLabel.Proofs.Template.TagPlaces
import ColumnLabel.Proofs.Template.PlaceholderPlaces
import ColumnLabel.Proofs.Label.Unfilled
import ColumnLabel.Proofs.Template.Appended
import ColumnLabel.Proofs.Template.Branches
import ColumnLabel.Proofs.Label.Standing
import ColumnLabel.Proofs.Column.Integers
import ColumnLabel.Proofs.Context.Statistics
import ColumnLabel.Proofs.Column.Name
import ColumnLabel.Proofs.Service.Naming
import ColumnLabel.Proofs.Journal.Level
import ColumnLabel.Proofs.Value.Numerals
import ColumnLabel.Proofs.Value.Identified
