import DataClient.Arrow.Container
import DataClient.Arrow.DataType
import DataClient.Arrow.Flat
import DataClient.Arrow.Fragment
import DataClient.Arrow.Frame
import DataClient.Arrow.Layout
import DataClient.Arrow.Load
import DataClient.Arrow.Message
import DataClient.Arrow.Quantity
import DataClient.Arrow.Reader
import DataClient.Arrow.Shown
import DataClient.Arrow.Vector
import DataClient.Arrow.Verify
import DataClient.Bytes.Base64
import DataClient.Bytes.Words
import DataClient.Command.Basic
import DataClient.Command.Grammar
import DataClient.Command.Help
import DataClient.Command.Invocation
import DataClient.Command.Plan
import DataClient.Command.Run
import DataClient.Error
import DataClient.Exchange.Message
import DataClient.Exchange.Remote
import DataClient.Exchange.Stub
import DataClient.Exchange.Wire
import DataClient.Json.Basic
import DataClient.Json.Error
import DataClient.Json.Reader
import DataClient.Json.Shape
import DataClient.Json.Writer
import DataClient.Main
import DataClient.Number.Float
import DataClient.Number.Integer
import DataClient.Number.Shortest
import DataClient.Output
import DataClient.Proofs.Arrow.Frame
import DataClient.Proofs.Bytes.Words
import DataClient.Proofs.Outcome
import DataClient.Query.Call
import DataClient.Query.Submission
import DataClient.Resource.Basic
import DataClient.Resource.Configuration
import DataClient.Resource.Listing
import DataClient.Resource.Metric
import DataClient.Resource.Service
import DataClient.Resource.TableDefinition
import DataClient.Routes
import DataClient.Settings.Basic
import DataClient.Settings.File
import DataClient.Table.Basic
import DataClient.Table.Cell
import DataClient.Table.Columnar
import DataClient.Table.Drawing
import DataClient.Table.Records
import DataClient.Table.Transpose
import DataClient.Text.Chars
import DataClient.Text.LetterCase
import DataClient.Text.Quoted
import DataClient.Text.Utf8
import DataClient.Text.Visible
import DataClient.Text.Width
import DataClient.Time.Calendar
import DataClient.Time.Zone
import DataClient.Toml.Basic
import DataClient.Toml.Document
import DataClient.Toml.Reader
import DataClient.Toml.Scalar
import DataClient.Web.Domain
import DataClient.Web.Host
import DataClient.Web.Path
import DataClient.Web.Percent
import DataClient.Web.Punycode
import DataClient.Web.Url
import DataClient.Proofs.Arrow.Framing
import DataClient.Proofs.Arrow.Truncation
import DataClient.Proofs.Arrow.Message
import DataClient.Proofs.Arrow.Alignment
import DataClient.Proofs.Arrow.Container
import DataClient.Proofs.Arrow.Reader
import DataClient.Proofs.Table.Transcription
import DataClient.Proofs.Arrow.Batches
import DataClient.Proofs.Arrow.Agreement
import DataClient.Proofs.Arrow.Sound
import DataClient.Proofs.Arrow.Shown
import DataClient.Proofs.Table.Slots
import DataClient.Proofs.Table.Transposition
import DataClient.Proofs.Table.RowMajor
import DataClient.Proofs.Table.Nulls
import DataClient.Proofs.Table.Crashes
import DataClient.Proofs.Table.Parts
import DataClient.Proofs.Json.Reader
import DataClient.Proofs.Table.Kinds
import DataClient.Proofs.Table.Records
import DataClient.Proofs.Table.Typing
import DataClient.Proofs.Query.Session
import DataClient.Proofs.Query.Race
import DataClient.Proofs.Query.Independence
import DataClient.Proofs.Query.Submissions
import DataClient.Proofs.Text.Parts
import DataClient.Proofs.Web.Percent
import DataClient.Proofs.Web.Path
import DataClient.Proofs.Web.Form
import DataClient.Proofs.Web.Address
import DataClient.Proofs.Query.Delivery
import DataClient.Proofs.Table.Access
import DataClient.Proofs.Command.Dispatch
import DataClient.Proofs.Json.Source
import DataClient.Proofs.Json.Values
import DataClient.Proofs.Json.Objects
import DataClient.Proofs.Json.Loose
import DataClient.Proofs.Json.Scalars
import DataClient.Proofs.Json.Layout
import DataClient.Proofs.Json.ReadBack
import DataClient.Proofs.Resource.Fields
import DataClient.Proofs.Resource.Form
import DataClient.Proofs.Resource.Kinds
import DataClient.Proofs.Bytes.Base64
import DataClient.Proofs.Time.Calendar
import DataClient.Proofs.Json.Documents
import DataClient.Proofs.Number.Rounding
import DataClient.Proofs.Number.Shortest
import DataClient.Proofs.Number.Scaling
import DataClient.Proofs.Json.Floats
import DataClient.Proofs.Json.Distinct
import DataClient.Proofs.Table.Rendering
import DataClient.Proofs.Json.Positional
import DataClient.Proofs.Table.Order
import DataClient.Proofs.Command.Payloads
import DataClient.Proofs.Json.Entries
import DataClient.Proofs.Json.Holes
import DataClient.Proofs.Json.Literals
import DataClient.Proofs.Table.Places
import DataClient.Proofs.Table.Integers
import DataClient.Proofs.Table.Storage
import DataClient.Proofs.Arrow.Typed
import DataClient.Proofs.Command.Opening
import DataClient.Proofs.Arrow.Numbers
import DataClient.Proofs.Table.IntegerColumns
import DataClient.Proofs.Table.Columnwise
import DataClient.Proofs.Table.Instants
import DataClient.Proofs.Web.Characters
import DataClient.Proofs.Web.Written
import DataClient.Proofs.Web.Destination
import DataClient.Proofs.Exchange.Stub
import DataClient.Proofs.Text.Width
import DataClient.Proofs.Table.Drawing
import DataClient.Proofs.Command.Steps
import DataClient.Proofs.Command.Additions
import DataClient.Proofs.Command.Globals
import DataClient.Proofs.Settings.File
import DataClient.Proofs.Settings.Precedence
