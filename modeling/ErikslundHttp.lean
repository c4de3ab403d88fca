import ErikslundHttp.Lib.Scan
import ErikslundHttp.Lib.Utf8
import ErikslundHttp.Lib.Reader
import ErikslundHttp.Text
import ErikslundHttp.Status
import ErikslundHttp.Lib.Result
import ErikslundHttp.Request.Basic
import ErikslundHttp.Request.Scanners
import ErikslundHttp.Request.Parser
import ErikslundHttp.Request.Grammar
import ErikslundHttp.Request.LineSpecs
import ErikslundHttp.Request.ValueSpecs
import ErikslundHttp.Request.HeadSpec
import ErikslundHttp.Request.Stream
import ErikslundHttp.Lib.Lines
import ErikslundHttp.Request.Lenient
import ErikslundHttp.Request.Views
import ErikslundHttp.Request.Resume
import ErikslundHttp.Request.Short
import ErikslundHttp.Lib.FlatMap
import ErikslundHttp.Response.Basic
import ErikslundHttp.Response.Encoder
import ErikslundHttp.Response.Headers
import ErikslundHttp.Response.Fields
import ErikslundHttp.Response.Framing
import ErikslundHttp.Response.Conditional
import ErikslundHttp.Router.Pattern
import ErikslundHttp.Router.Reachable
import ErikslundHttp.Router.Basic
import ErikslundHttp.Router.Reference
import ErikslundHttp.Router.Dispatch
import ErikslundHttp.Router.Registration
import ErikslundHttp.Router.Allow
import ErikslundHttp.Router.Assets
import ErikslundHttp.Response.Negotiation
import ErikslundHttp.Connection.Buffer
import ErikslundHttp.Connection.Queue
import ErikslundHttp.Connection.Basic
import ErikslundHttp.Connection.Actions
import ErikslundHttp.Connection.Sequential
import ErikslundHttp.Connection.Phases
import ErikslundHttp.Connection.Refinement
import ErikslundHttp.Connection.ReadBuffer
import ErikslundHttp.Connection.Sources
import ErikslundHttp.Connection.RequestDeadline
import ErikslundHttp.Connection.StreamDeadline
import ErikslundHttp.Connection.Output
import ErikslundHttp.Connection.Socket
import ErikslundHttp.Connection.Tls
import ErikslundHttp.Connection.Stranded
import ErikslundHttp.Connection.StreamStatus
import ErikslundHttp.Connection.Turn
import ErikslundHttp.Connection.KeepAlive
import ErikslundHttp.Reactor.Basic
import ErikslundHttp.Reactor.Invariants
import ErikslundHttp.Sse.Basic
import ErikslundHttp.Sse.EventSource
import ErikslundHttp.Sse.Queue
import ErikslundHttp.Sse.Channel
import ErikslundHttp.Sse.Delivery
import ErikslundHttp.Reactor.Wakeup
import ErikslundHttp.Reactor.NoLostWakeup
import ErikslundHttp.Server.Admission
import ErikslundHttp.Connection.ClientIdentity
import ErikslundHttp.Escape
import ErikslundHttp.Metrics.Registry
import ErikslundHttp.Metrics.Exposition
import ErikslundHttp.Metrics.Invariant
import ErikslundHttp.Metrics.Reading
import ErikslundHttp.Lib.Json
import ErikslundHttp.Observability.SnapshotJson
import ErikslundHttp.Lib.Html
import ErikslundHttp.Observability.StatusPage
import ErikslundHttp.Server.Cidr
import ErikslundHttp.Server.Options
import ErikslundHttp.Server.Config
import ErikslundHttp.Lib.Grouping
import ErikslundHttp.Digits
import ErikslundHttp.Lib.Bits
import ErikslundHttp.Server.AllowList
import ErikslundHttp.Sse.FrameSize
import ErikslundHttp.Server.Endpoints
import ErikslundHttp.Request.ListFields
import ErikslundHttp.Request.QueryArena
import ErikslundHttp.Sanitizing
import ErikslundHttp.Response.EntityTags
import ErikslundHttp.Response.Validators
import ErikslundHttp.Lib.Sha256
import ErikslundHttp.Lib.Base64
import ErikslundHttp.Observability.ScriptHash
import ErikslundHttp.Lib.Csp
import ErikslundHttp.Observability.Policy
import ErikslundHttp.Connection.PhaseDeadline
import ErikslundHttp.Reactor.Deadlines
import ErikslundHttp.Lib.Transitions
import ErikslundHttp.Lib.Ownership
import ErikslundHttp.Server.Threads
import ErikslundHttp.Server.Lifecycle
import ErikslundHttp.Server.Shutdown
import ErikslundHttp.Server.Reactors
import ErikslundHttp.Server.Connected
import ErikslundHttp.Sse.Pump
import ErikslundHttp.Sse.Heartbeats
import ErikslundHttp.Lib.Windows
import ErikslundHttp.Server.PeerLog
import ErikslundHttp.Lib.Programs
import ErikslundHttp.Server.UnixSocket
import ErikslundHttp.Server.UnixPath
