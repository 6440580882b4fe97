import FormSieve.Cli.Arguments
import FormSieve.Cli.Run
import FormSieve.Filter.Clause
import FormSieve.Filter.Comparator
import FormSieve.Filter.Matching
import FormSieve.Filter.Rejection
import FormSieve.Filter.Validation
import FormSieve.Http.Header
import FormSieve.Http.Request
import FormSieve.Http.Target
import FormSieve.Json.Decoder
import FormSieve.Json.Fault
import FormSieve.Json.Message
import FormSieve.Json.Printer
import FormSieve.Json.Reader
import FormSieve.Json.Skip
import FormSieve.Json.Value
import FormSieve.Log
import FormSieve.Main
import FormSieve.Net.Host
import FormSieve.Net.Ip
import FormSieve.Net.SocketAddress
import FormSieve.Net.Url
import FormSieve.Number.Binary64
import FormSieve.Number.Shortest
import FormSieve.Provider.Failure
import FormSieve.Provider.Memory
import FormSieve.Provider.Remote
import FormSieve.Provider.Source
import FormSieve.Provider.TextReader
import FormSieve.Server.Basic
import FormSieve.Server.Config
import FormSieve.Server.Denial
import FormSieve.Server.FilterRequest
import FormSieve.Server.Origins
import FormSieve.Server.Route
import FormSieve.Submission.Answer
import FormSieve.Submission.Basic
import FormSieve.Submission.Counts
import FormSieve.Submission.Page
import FormSieve.Submission.PageLimit
import FormSieve.Text.Blank
import FormSieve.Text.Bytes
import FormSieve.Text.Form
import FormSieve.Text.Percent
import FormSieve.Text.Quoted
import FormSieve.Text.Unseen
import FormSieve.Text.Utf8
import FormSieve.Proofs.Filter.Comparison
import FormSieve.Proofs.Filter.Composition
import FormSieve.Proofs.Filter.Counts
import FormSieve.Proofs.Filter.Decoding
import FormSieve.Proofs.Filter.Grouping
import FormSieve.Proofs.Filter.Revalidation
import FormSieve.Proofs.Filter.Validation
import FormSieve.Proofs.Json.Document
import FormSieve.Proofs.Json.FloatNumeral
import FormSieve.Proofs.Json.Form
import FormSieve.Proofs.Json.Interpretation
import FormSieve.Proofs.Json.Numeral
import FormSieve.Proofs.Json.Passing
import FormSieve.Proofs.Json.Printing
import FormSieve.Proofs.Json.Progress
import FormSieve.Proofs.Json.Records
import FormSieve.Proofs.Json.Reordered
import FormSieve.Proofs.Json.Reread
import FormSieve.Proofs.Json.Room
import FormSieve.Proofs.Json.SingleLine
import FormSieve.Proofs.Json.Spelling
import FormSieve.Proofs.Json.Written
import FormSieve.Proofs.Log
import FormSieve.Proofs.Net.Continuation
import FormSieve.Proofs.Net.Path
import FormSieve.Proofs.Number.Nearest
import FormSieve.Proofs.Number.Rounding
import FormSieve.Proofs.Number.Scaling
import FormSieve.Proofs.Number.Shortest
import FormSieve.Proofs.Number.Spacing
import FormSieve.Proofs.Number.Value
import FormSieve.Proofs.Provider.Address
import FormSieve.Proofs.Provider.Base
import FormSieve.Proofs.Server.ConfigDocument
import FormSieve.Proofs.Server.History
import FormSieve.Proofs.Server.Precedence
import FormSieve.Proofs.Server.Routing
import FormSieve.Proofs.Submission.CarriedThrough
import FormSieve.Proofs.Submission.Form
import FormSieve.Proofs.Submission.NormalForm
import FormSieve.Proofs.Submission.RoundTrip
import FormSieve.Proofs.Submission.Tree
import FormSieve.Proofs.Text.Blank
import FormSieve.Proofs.Text.Encoding
import FormSieve.Proofs.Text.Order
import FormSieve.Proofs.Text.Percent
import FormSieve.Proofs.Text.Form
import FormSieve.Proofs.Http.Header
import FormSieve.Proofs.Http.Target
import FormSieve.Proofs.Net.Writing
import FormSieve.Proofs.Provider.Request
import FormSieve.Proofs.Server.Delivery
import FormSieve.Proofs.Server.Forwarding
import FormSieve.Proofs.Server.Interchange
import FormSieve.Proofs.Server.Logging
import FormSieve.Proofs.Server.Setup
import FormSieve.Proofs.Cli.Agreement
import FormSieve.Proofs.Text.CodePoints
import FormSieve.Proofs.Server.CrossOrigin
import FormSieve.Proofs.Cli.Filtering
