import Wiretap.Archive
import Wiretap.Bytes
import Wiretap.Capture.Body
import Wiretap.Capture.Buffer
import Wiretap.Capture.Direction
import Wiretap.Capture.ExchangeId
import Wiretap.Capture.Failure
import Wiretap.Capture.Repository
import Wiretap.Coding.Bits
import Wiretap.Coding.Checksum
import Wiretap.Coding.Decoded
import Wiretap.Coding.Decoder
import Wiretap.Coding.Deflate
import Wiretap.Coding.Huffman
import Wiretap.Command
import Wiretap.Config.Decode
import Wiretap.Config.Encode
import Wiretap.Config.Load
import Wiretap.Config.Settings
import Wiretap.Config.Validation
import Wiretap.Decimal.Binary64
import Wiretap.Decimal.Shortest
import Wiretap.Disk.Basic
import Wiretap.Disk.Fault
import Wiretap.Disk.Landing
import Wiretap.Disk.Path
import Wiretap.Exchange.Completed
import Wiretap.Exchange.Guard
import Wiretap.Exchange.Stream
import Wiretap.Exchange.Tap
import Wiretap.Http.Headers
import Wiretap.Json.Printer
import Wiretap.Json.Value
import Wiretap.Log.AccessLine
import Wiretap.Log.Delegate
import Wiretap.Log.Event
import Wiretap.Log.Journal
import Wiretap.Log.LineFile
import Wiretap.Log.Queue
import Wiretap.Log.Record
import Wiretap.Log.Result
import Wiretap.Log.Sink
import Wiretap.Main
import Wiretap.Metrics
import Wiretap.Net.SocketAddress
import Wiretap.Policy.Basic
import Wiretap.Route.Forwarding
import Wiretap.Route.Table
import Wiretap.Service.Proxy
import Wiretap.Service.Shutdown
import Wiretap.Service.Start
import Wiretap.Text.Ascii
import Wiretap.Text.Blank
import Wiretap.Text.Hex
import Wiretap.Text.Lowercase
import Wiretap.Text.Printable
import Wiretap.Text.Quoted
import Wiretap.Text.Utf8
import Wiretap.Time.Calendar
import Wiretap.Time.Span
import Wiretap.Time.Timestamp
import Wiretap.Toml.Lexeme
import Wiretap.Toml.Parser
import Wiretap.Toml.Scalar
import Wiretap.Toml.Tree
import Wiretap.Toml.Value
import Wiretap.Uri.Basic
import Wiretap.Uri.Parser
import Wiretap.Proofs.Landing
import Wiretap.Proofs.Files
import Wiretap.Proofs.CaptureFiles
import Wiretap.Proofs.Buffers
import Wiretap.Proofs.Store
import Wiretap.Proofs.Calls
import Wiretap.Proofs.Ledger
import Wiretap.Proofs.ArchiveFiles
import Wiretap.Proofs.Remains
import Wiretap.Proofs.Dispatch
import Wiretap.Proofs.Settling
import Wiretap.Proofs.Steps
import Wiretap.Proofs.Accounts
import Wiretap.Proofs.Completion
import Wiretap.Proofs.Flight
import Wiretap.Proofs.Exits
import Wiretap.Proofs.Custody
import Wiretap.Proofs.Taps
import Wiretap.Proofs.Scene
import Wiretap.Proofs.Freeze
import Wiretap.Proofs.Unbroken
import Wiretap.Proofs.Layering
import Wiretap.Proofs.FailedWrites
import Wiretap.Proofs.Retrying
import Wiretap.Proofs.Tee
import Wiretap.Proofs.Discretion
import Wiretap.Proofs.Delivery
import Wiretap.Proofs.Counters
import Wiretap.Proofs.Closing
import Wiretap.Proofs.Balance
import Wiretap.Proofs.Utf8
import Wiretap.Proofs.Characters
import Wiretap.Proofs.Artifacts
import Wiretap.Proofs.JsonNumbers
import Wiretap.Proofs.JsonText
import Wiretap.Proofs.AccessLines
import Wiretap.Proofs.LineLog
import Wiretap.Proofs.Bodies
import Wiretap.Proofs.Startup
import Wiretap.Proofs.TornLines
import Wiretap.Proofs.Places
import Wiretap.Proofs.Shards
import Wiretap.Proofs.Confinement
import Wiretap.Proofs.Snapshots
import Wiretap.Proofs.Codings
import Wiretap.Proofs.BitReading
import Wiretap.Proofs.DeflateFormat
import Wiretap.Proofs.Inflating
import Wiretap.Proofs.Wrappings
import Wiretap.Proofs.Sniffing
import Wiretap.Proofs.Preserved
import Wiretap.Proofs.HostNames
import Wiretap.Proofs.Lookup
import Wiretap.Proofs.Forwarding
import Wiretap.Proofs.LoggedPaths
import Wiretap.Proofs.Alike
import Wiretap.Proofs.Handovers
import Wiretap.Proofs.LoggerLife
import Wiretap.Proofs.Isolation
import Wiretap.Proofs.Stacking
import Wiretap.Proofs.Stalls
import Wiretap.Proofs.Tallies
import Wiretap.Proofs.Identifiers
import Wiretap.Proofs.DropWarnings
