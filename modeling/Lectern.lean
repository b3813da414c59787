import Lectern.Clock
import Lectern.Command
import Lectern.Config
import Lectern.Desk.Basic
import Lectern.Desk.Navigation
import Lectern.Directories
import Lectern.Failure
import Lectern.Host
import Lectern.Hub
import Lectern.Ipc.Client
import Lectern.Ipc.Frame
import Lectern.Ipc.Server
import Lectern.Item
import Lectern.Json.Decoder
import Lectern.Json.Node
import Lectern.Json.Value
import Lectern.Live
import Lectern.Mirroring
import Lectern.Number.Binary64
import Lectern.Number.Int64
import Lectern.Number.Shortest
import Lectern.Number.Stepwise
import Lectern.Plan
import Lectern.Projection.Content
import Lectern.Projection.Patch
import Lectern.Projection.Screen
import Lectern.Response
import Lectern.Scripture.Dataset
import Lectern.Scripture.Reference
import Lectern.Setup
import Lectern.Surface
import Lectern.Text.Blank
import Lectern.Text.Quoted
import Lectern.Text.Unprintable
import Lectern.Text.Utf8
import Lectern.Toml.DateTable
import Lectern.Toml.Document
import Lectern.Toml.Token
import Lectern.Toml.Value
import Lectern.Windows
import Lectern.Wire.Live
import Lectern.Wire.Plan
import Lectern.Wire.Projection
import Lectern.Wire.Request
import Lectern.Proofs.Mirroring.Forest
import Lectern.Proofs.Mirroring.Spread
import Lectern.Proofs.Desk.Operation
import Lectern.Proofs.Desk.Steps
import Lectern.Proofs.Desk.Mirrors
import Lectern.Proofs.Desk.Replica
import Lectern.Proofs.Desk.LiveMerge
import Lectern.Proofs.Desk.Navigation
import Lectern.Proofs.Desk.Edits
import Lectern.Proofs.Desk.Locks
import Lectern.Proofs.Desk.Linking
import Lectern.Proofs.Desk.Independence
import Lectern.Proofs.Desk.Repetition
import Lectern.Proofs.Desk.Times
import Lectern.Proofs.Untimed
import Lectern.Proofs.Desk.Clockless
import Lectern.Proofs.Json.Numerals
import Lectern.Proofs.Json.Documents
import Lectern.Proofs.Json.RoundTrip
import Lectern.Proofs.Json.Decoding
import Lectern.Proofs.Json.Reading
import Lectern.Proofs.Wire.Projection
import Lectern.Proofs.Wire.Live
import Lectern.Proofs.Wire.Command
import Lectern.Proofs.Json.Accepted
import Lectern.Proofs.Wire.Request
import Lectern.Proofs.Wire.Response
import Lectern.Proofs.Ipc.Message
import Lectern.Proofs.Ipc.Connections
import Lectern.Proofs.Ipc.Numbering
import Lectern.Proofs.Ipc.Transport
import Lectern.Proofs.Ipc.Frames
import Lectern.Proofs.Ipc.Awaiting
import Lectern.Proofs.Ipc.Exchange
import Lectern.Proofs.Ipc.Session
import Lectern.Proofs.Ipc.Streams
import Lectern.Proofs.Desk.Windows
import Lectern.Proofs.Ipc.Course
import Lectern.Proofs.Ipc.Rest
import Lectern.Proofs.Ipc.Displays
import Lectern.Proofs.Ipc.ControlWindows
import Lectern.Proofs.Json.Spans
import Lectern.Proofs.Json.Handing
import Lectern.Proofs.Json.Allowances
import Lectern.Proofs.Wire.Spans
import Lectern.Proofs.Wire.Allowances
import Lectern.Proofs.Text.Trimming
import Lectern.Proofs.Text.Letters
import Lectern.Proofs.Scripture.Grammar
import Lectern.Proofs.Scripture.Lookup
import Lectern.Proofs.Item.Showing
import Lectern.Proofs.Item.Tidying
import Lectern.Proofs.Desk.Slides
import Lectern.Proofs.Desk.Limits
import Lectern.Proofs.Desk.Replies
import Lectern.Proofs.Ipc.Room
import Lectern.Proofs.Ipc.Overflow
import Lectern.Proofs.Ipc.Silence
import Lectern.Proofs.Hub.Delivery
import Lectern.Proofs.Live.Fields
import Lectern.Proofs.Desk.Projecting
import Lectern.Proofs.Item.Lacking
import Lectern.Proofs.Desk.Scales
import Lectern.Proofs.Wire.Screens
import Lectern.Proofs.Ipc.Scales
