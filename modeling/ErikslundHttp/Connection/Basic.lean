import ErikslundHttp.Connection.Buffer
import ErikslundHttp.Request.Parser
import ErikslundHttp.Router.Basic

/-!
# A connection

`Connection` (`connection.hpp`, `connection.cpp`) drives one client through its states: handshake,
reading a request, writing or streaming its response, closing.  Each function of the source is a
function of the connection here, over an `Environment` that holds what the connection refers to:
the transport, the router, the options of the server, the clocks and the allocator.

The transport is any state `σ` with the operations of `Transport σ`.  Its answers may be anything
the interface allows, so a result for every transport is a result for every behaviour of the peer
and of the network.

Two loops of the source have no bound in the code, the ones that read until a request is complete
and the one that pulls a stream.  They take `fuel`; a call that runs out of it answers no interest.
-/

namespace ErikslundHttp

/-! ### Transports -/

/-- How a call of the transport went. -/
inductive TransportStatus where
  | ok
  | wantRead
  | wantWrite
  | closed
  | error
  deriving DecidableEq, Repr

namespace TransportStatus

/-- The call is to be made again when the socket is ready. -/
def isBlocked (status : TransportStatus) : Bool := status == .wantRead || status == .wantWrite

/-- `TransportResult::is_terminal`. -/
def isTerminal (status : TransportStatus) : Bool := status == .closed || status == .error

end TransportStatus

/-- The operations of a transport on its state.  `read` is given the room for its bytes, `writev`
the bytes of its vectors; they transfer at most as much. -/
structure Transport (σ : Type) where
  /-- One attempt; a plain transport is ready at once. -/
  handshake : σ → TransportStatus × σ
  /-- Reads at most so many bytes. -/
  read : σ → ℕ → TransportStatus × Bytes × σ
  /-- No more bytes than there is room for. -/
  read_le : ∀ s capacity, (read s capacity).2.1.length ≤ capacity
  /-- Sends a beginning of the bytes of the vectors; the number is its length. -/
  writev : σ → List Bytes → TransportStatus × ℕ × σ
  /-- No more bytes than there are. -/
  writev_le : ∀ s vectors, (writev s vectors).2.1 ≤ vectors.flatten.length
  /-- Tells the peer that nothing follows. -/
  shutdown : σ → TransportStatus × σ
  /-- Whether the connection is encrypted. -/
  isSecure : Bool
  /-- The name in the certificate of the client, if it sent one. -/
  peerCertificateSubject : Option Bytes

/-! ### The environment of a connection -/

/-- A duration in units of the steady clock. -/
abbrev Duration := ℤ

/-- A duration in the unit of the options. -/
def milliseconds (count : ℤ) : Duration := count * 1000000

/-- The options a connection reads. -/
structure ServerOptions where
  limits : RequestLimits := {}
  /-- The answer to the last of them closes the connection. -/
  maxRequestsPerConnection : UInt32 := 100
  /-- From the construction of the connection to the end of the handshake. -/
  handshakeTimeout : Duration := milliseconds 5000
  /-- For the head of a request to come, or for its next bytes. -/
  headerTimeout : Duration := milliseconds 5000
  /-- For the body of a request to come. -/
  bodyTimeout : Duration := milliseconds 5000
  /-- For a response to be sent, and for blocked bytes of a stream. -/
  writeTimeout : Duration := milliseconds 5000
  /-- How long a connection may wait for its next request. -/
  keepAliveIdle : Duration := milliseconds 15000
  /-- From the first byte of a request to its last. -/
  requestDeadline : Duration := milliseconds 3000
  /-- How long a stream may stay without progress. -/
  streamIdleTimeout : Duration := milliseconds 60000
  /-- The value of the field `Server`; none is written if it is empty. -/
  serverHeader : Bytes := ascii "erikslund-http"

/-- What a connection refers to.  `dispatch` is `Router::dispatch` of its router; `steadyClock` and
`systemClock` are the readings of the clocks, numbered by the readings of the steady clock made
before; `allocate` gives the addresses of the storage blocks, in order. -/
structure Environment (σ : Type) where
  transport : Transport σ
  /-- What the router answers. -/
  dispatch : Handler
  options : ServerOptions := {}
  /-- Secure responses carry the field of that name. -/
  strictTransportSecurity : Bool := false
  hstsMaxAgeSeconds : UInt32 := 31536000
  /-- The address that the connection came from. -/
  peer : PeerAddress := {}
  pton : InetPton
  /-- The compressor; it may fail. -/
  deflate : Deflate
  /-- Its `i`-th reading. -/
  steadyClock : ℕ → TimePoint
  /-- What the wall clock says at the `i`-th reading of the steady clock. -/
  systemClock : ℕ → SystemTime
  /-- Where the `i`-th storage block lies. -/
  allocate : ℕ → ℕ

/-! ### The state of a connection -/

/-- The states of a connection. -/
inductive ConnectionState where
  | handshaking
  | readingHeaders
  | readingBody
  | writing
  | streaming
  | closing
  deriving DecidableEq, Repr

/-- What a connection waits for after a call; `done` says that it may be destroyed. -/
inductive EpollInterest where
  | done
  | quiescent
  | read
  | write
  | readWrite
  deriving DecidableEq, Repr

/-- What a connection did, as far as others can tell. -/
inductive Event where
  /-- A read outside `drive_close`, with the read buffer before it. -/
  | read (buffer : Buffer) (status : TransportStatus) (bytes : Bytes)
  | drained (status : TransportStatus) (bytes : Bytes)
  | writev (vectors : List Bytes) (status : TransportStatus) (accepted : ℕ)
  /-- The bytes of a parsed request were consumed; the buffer held `size` bytes. -/
  | consumed (size bytes : ℕ)
  /-- A request was handed to the router and its response encoded at that time. -/
  | dispatched (request : Request Bytes) (now : SystemTime)
  /-- An error response was encoded at that time. -/
  | rejected (status : Status) (now : SystemTime)
  /-- A response that is not streamed was sent completely. -/
  | completed
  | attached
  | pulled (bytes : Bytes) (answer : Option Pull)
  | detached

/-- The members of `Connection`; the last four only say what happened so far: the calls of `pull`
on the present stream, the readings of the steady clock, the allocations, and the events, each with
the readings made before it. -/
structure Connection (σ : Type) where
  transport : σ
  readBuffer : Buffer
  writeBuffer : Buffer
  /-- Keeps the head of the request, while its body is awaited. -/
  requestParser : RequestParser := {}
  /-- The request that is read, or answered. -/
  request : Request View := .init
  /-- The response that is written. -/
  pendingResponse : Option Response := none
  /-- The head and the body of the response, or what a stream has given. -/
  writeVectors : List Bytes := []
  writeOffset : ℕ := 0
  /-- The source whose bytes follow the head. -/
  stream : Option StreamSource := none
  /-- When the present phase is over at the latest. -/
  deadline : TimePoint := 0
  /-- When the present request has to be complete. -/
  requestDeadline : TimePoint := 0
  /-- How many responses were sent completely. -/
  requestsServed : ℕ := 0
  state : ConnectionState := .handshaking
  /-- A byte of the present request has been seen. -/
  sawAnyBytes : Bool := false
  /-- The stream has bytes that the peer does not take. -/
  streamWaitingForWriteProgress : Bool := false
  /-- The calls of `pull` on the present stream. -/
  pulls : ℕ := 0
  /-- The readings of the steady clock. -/
  ticks : ℕ := 0
  /-- The storage blocks asked for. -/
  allocations : ℕ := 0
  /-- The events so far, each with the readings made before it. -/
  trace : List (ℕ × Event) := []

/-- The room that each read asks for. -/
def kReadChunkBytes : ℕ := 4096

/-- Prevents a deep pipeline from monopolizing one reactor turn. -/
def kMaxPipelinedRequestsPerStep : ℕ := 8

/-- How often a connection that closes reads what the peer still sends. -/
def kCloseDrainPasses : ℕ := 4

/-- How much it reads each time. -/
def kCloseDrainChunkBytes : ℕ := 1024

/-- A sum of `size_t` that does not wrap around. -/
def saturatingAdd (left right : UInt64) : UInt64 :=
  let available := 0xFFFFFFFFFFFFFFFF - left
  if available < right then 0xFFFFFFFFFFFFFFFF else left + right

/-- How a part of a function ends: control goes on after it, or the function returns. -/
inductive Flow where
  | next
  | exit (interest : EpollInterest)
  deriving DecidableEq

/-- A connection after a call, and the interest the call answers; none if it ran out of fuel. -/
abbrev Driven (σ : Type) := Connection σ × Option EpollInterest

namespace Connection

variable {σ : Type} (env : Environment σ)

/-- The event happens now. -/
def record (event : Event) (c : Connection σ) : Connection σ :=
  { c with trace := c.trace ++ [(c.ticks, event)] }

/-! ### Deadlines and states -/

/-- The absolute request deadline clamps every phase. -/
def armDeadline (budget : Duration) (c : Connection σ) : Connection σ :=
  let deadline := env.steadyClock c.ticks + budget
  { c with
    ticks := c.ticks + 1
    deadline :=
      if c.requestDeadline ≠ 0 ∧ c.state ≠ .streaming ∧ c.requestDeadline < deadline then
        c.requestDeadline
      else deadline }

/-- The time a state may take. -/
def budget (options : ServerOptions) (next : ConnectionState) (c : Connection σ) : Duration :=
  match next with
  | .handshaking => options.handshakeTimeout
  | .readingHeaders =>
    if !c.sawAnyBytes && 0 < c.requestsServed then options.keepAliveIdle else options.headerTimeout
  | .readingBody => options.bodyTimeout
  | .writing => options.writeTimeout
  | .streaming => options.streamIdleTimeout
  | .closing => options.writeTimeout

/-- `Connection::enter_state`: the state, and the deadline that comes with it. -/
def enterState (next : ConnectionState) (c : Connection σ) : Connection σ :=
  armDeadline env (c.budget env.options next) { c with state := next }

/-- A connection as its constructor leaves it, at the first two addresses of the allocator. -/
def init (transport : σ) : Connection σ :=
  enterState env .handshaking
    { transport := transport
      readBuffer := .ofCapacity (env.allocate 0) kInitialBufferBytes
      writeBuffer := .ofCapacity (env.allocate 1) kInitialBufferBytes
      request := { (Request.init : Request View) with
        peer := env.peer
        isSecure := env.transport.isSecure }
      allocations := 2 }

/-! ### Closing -/

/-- `Connection::release_stream_source`: the source, if there is one, is told that it is
detached. -/
def releaseStreamSource (c : Connection σ) : Connection σ :=
  let c := { c with streamWaitingForWriteProgress := false }
  match c.stream with
  | some _ => { c.record .detached with stream := none }
  | none => c

/-- Half-close to deliver FIN instead of RST. -/
def beginClose (c : Connection σ) : Connection σ :=
  if c.state = .closing then c
  else
    let c := c.releaseStreamSource
    enterState env .closing { c with transport := (env.transport.shutdown c.transport).2 }

/-- A read of `drive_close`, whose bytes are dropped. -/
def discard (c : Connection σ) : Connection σ × TransportStatus × Bytes :=
  let (status, bytes, transport) := env.transport.read c.transport kCloseDrainChunkBytes
  ({ c.record (.drained status bytes) with transport := transport }, status, bytes)

/-- The loop of `drive_close`. -/
def drain : ℕ → Connection σ → Connection σ
  | 0, c => c
  | passes + 1, c =>
    match discard env c with
    | (c, status, bytes) =>
      if status.isTerminal || status.isBlocked || bytes.isEmpty then c else drain passes c

/-- `Connection::drive_close`. -/
def driveClose (c : Connection σ) : Connection σ := drain env kCloseDrainPasses c

/-- `begin_close(); return drive_close();`, which answers `Done`. -/
def close (c : Connection σ) : Connection σ := driveClose env (beginClose env c)

/-! ### Reading -/

/-- The request that is dispatched for a parsed one. -/
def attach {α : Type} (request : Request α) (receivedAt : TimePoint) : Request α :=
  let request := { request with
    peer := env.peer
    isSecure := env.transport.isSecure
    receivedAt := receivedAt }
  match env.transport.peerCertificateSubject with
  | some subject =>
    { request with clientCertificateSubject := subject, hasClientCertificate := true }
  | none => request

/-- `Connection::adopt_parsed_request`. -/
def adoptParsedRequest (parsed : ParsedRequest View) (c : Connection σ) : Connection σ :=
  { c.record (.consumed c.readBuffer.size parsed.consumedBytes) with
    request := attach env parsed.request (env.steadyClock c.ticks)
    ticks := c.ticks + 1
    readBuffer := c.readBuffer.consume parsed.consumedBytes }

/-- The answer of the application: a conditional request may replace it. -/
def answer (request : Request Bytes) : Response :=
  applyConditionalRequest request <|
    match env.dispatch request with
    | .returned response => response
    | .threw => internalErrorResponse

/-- The options that `dispatch_and_serialize` encodes a response with. -/
def encodingOptions (keepAlive : Bool) : ResponseEncodingOptions where
  serverHeader := env.options.serverHeader
  keepAlive := keepAlive
  secure := env.transport.isSecure
  strictTransportSecurity := env.strictTransportSecurity
  hstsMaxAgeSeconds := env.hstsMaxAgeSeconds.toUInt64

/-- The part of `dispatch_and_serialize` after the response is known. -/
def serialize (response : Response) (c : Connection σ) : Connection σ :=
  let keepAlive := !response.isStream && c.request.keepAlive &&
    decide (c.requestsServed + 1 < env.options.maxRequestsPerConnection.toNat)
  let encoded := encodeResponse env.deflate (env.systemClock c.ticks) (c.request.map View.bytes)
    response (encodingOptions env keepAlive)
  let writeBuffer := c.writeBuffer.clear.append encoded.head (env.allocate c.allocations)
  { c with
    pendingResponse := some response
    stream := if response.isStream then response.stream else c.stream
    pulls := 0
    writeBuffer := writeBuffer
    allocations := c.allocations + 1
    writeVectors := writeBuffer.readable ::
      if !encoded.suppressBody && !encoded.body.isEmpty then [encoded.body] else []
    writeOffset := 0
    -- Once handling completes, the write timeout replaces the request budget.
    requestDeadline := 0 }

/-- `Connection::dispatch_and_serialize`: an error response is there already, any other comes from
the handler. -/
def dispatchAndSerialize (c : Connection σ) : Connection σ :=
  match c.pendingResponse with
  | some response => serialize env response c
  | none =>
    let request := c.request.map View.bytes
    serialize env (answer env request)
      (c.record (.dispatched request (env.systemClock c.ticks)))

/-- The body of an error response is its reason. -/
def errorResponse (status : Status) : Response := .text (status.reasonPhrase ++ [LF]) status

/-- `Connection::serialize_error`. -/
def serializeError (status : Status) (c : Connection σ) : Connection σ :=
  let c := { c with
    requestParser := c.requestParser.reset
    request := { c.request.reset with
      peer := env.peer
      isSecure := env.transport.isSecure
      receivedAt := env.steadyClock c.ticks }
    ticks := c.ticks + 1
    pendingResponse := some (errorResponse status) }
  dispatchAndSerialize env (c.record (.rejected status (env.systemClock c.ticks)))

/-- A call of `transport_read` with the tail of the read buffer. -/
def read (c : Connection σ) : Connection σ × TransportStatus × Bytes :=
  let readBuffer := c.readBuffer.writableTail kReadChunkBytes (env.allocate c.allocations)
  let (status, bytes, transport) := env.transport.read c.transport readBuffer.writableCapacity
  ({ c.record (.read c.readBuffer status bytes) with
      transport := transport
      readBuffer := readBuffer
      allocations := c.allocations + 1 }, status, bytes)

/-- The bytes that a read has put into the tail are readable. -/
def commit (bytes : Bytes) (c : Connection σ) : Connection σ :=
  { c with readBuffer := c.readBuffer.commit bytes }

/-- One more read.  The source has this code in both read loops. -/
def receive (c : Connection σ) : Connection σ × Flow :=
  match read env c with
  | (c, .wantRead, _) => (c, .exit .read)
  | (c, .wantWrite, _) => (c, .exit .write)
  | (c, .closed, _) | (c, .error, _) => (close env c, .exit .done)
  | (c, .ok, bytes) =>
    if bytes.isEmpty then (close env c, .exit .done) else (c.commit bytes, .next)

/-- The first byte starts the absolute slowloris budget. -/
def noteFirstBytes (c : Connection σ) : Connection σ :=
  if c.sawAnyBytes then c
  else
    armDeadline env env.options.headerTimeout { c with
      sawAnyBytes := true
      requestDeadline := env.steadyClock c.ticks + env.options.requestDeadline
      ticks := c.ticks + 1 }

/-- A parse of the readable bytes. -/
def parse (c : Connection σ) : Except ParseError (ParsedRequest View) × Connection σ :=
  let (result, requestParser) := c.requestParser.parse env.pton (env.steadyClock c.ticks)
    c.readBuffer.view env.options.limits
  (result, { c with requestParser := requestParser, ticks := c.ticks + 1 })

/-- A complete request: it is dispatched, and its response is there to be written. -/
def serve (parsed : ParsedRequest View) (c : Connection σ) : Connection σ :=
  enterState env .writing (dispatchAndSerialize env (adoptParsedRequest env parsed c))

/-- An error: its response is there to be written. -/
def reject (status : Status) (c : Connection σ) : Connection σ :=
  enterState env .writing (serializeError env status c)

/-- How the inner loop of `drive_read_headers` ends. -/
inductive Reading where
  | answered
  | bodyPending
  | exit (interest : EpollInterest)
  | unfinished

/-- The inner loop of `drive_read_headers`. -/
def readRequest : ℕ → Connection σ → Connection σ × Reading
  | 0, c => (c, .unfinished)
  | fuel + 1, c =>
    let readMore (c : Connection σ) : Connection σ × Reading :=
      match receive env c with
      | (c, .exit interest) => (c, .exit interest)
      | (c, .next) => readRequest fuel (noteFirstBytes env c)
    if c.readBuffer.isEmpty then readMore c
    else
      match parse env c with
      | (.ok parsed, c) => (serve env parsed c, .answered)
      | (.error error, c) =>
        if error ≠ .needsMoreData then (reject env error.status c, .answered)
        else if c.requestParser.waitingForBody then (enterState env .readingBody c, .bodyPending)
        else readMore c

/-! ### Writing -/

/-- The vectors without the bytes sent already. -/
def batchFrom : ℕ → List Bytes → List Bytes
  | _, [] => []
  | skipped, entry :: entries =>
    if entry.length ≤ skipped then batchFrom (skipped - entry.length) entries
    else entry.drop skipped :: batchFrom 0 entries

/-- The bytes of all vectors, those sent already included. -/
def pendingBytes (c : Connection σ) : ℕ := (c.writeVectors.map List.length).sum

/-- A call of `transport_writev` with what is left of the vectors. -/
def writev (c : Connection σ) : Connection σ × TransportStatus × ℕ :=
  let batch := batchFrom c.writeOffset c.writeVectors
  let (status, accepted, transport) := env.transport.writev c.transport batch
  ({ c.record (.writev batch status accepted) with transport := transport }, status, accepted)

/-- The transport has accepted so many bytes. -/
def advance (accepted : ℕ) (c : Connection σ) : Connection σ :=
  { c with writeOffset := c.writeOffset + accepted }

/-- The loop of `drive_write`, for at most as many rounds as there are bytes to send. -/
def writeLoop : ℕ → Connection σ → Connection σ × Flow
  | 0, c => (c, .next)
  | rounds + 1, c =>
    if (batchFrom c.writeOffset c.writeVectors).isEmpty then (c, .next)
    else
      match writev env c with
      | (c, .wantWrite, _) => (c, .exit .write)
      | (c, .wantRead, _) => (c, .exit .read)
      | (c, .closed, _) | (c, .error, _) => (c, .exit .done)
      | (c, .ok, accepted) =>
        if accepted = 0 then (c, .exit .write)
        else if (c.advance accepted).writeOffset < c.pendingBytes then
          writeLoop rounds (c.advance accepted)
        else (c.advance accepted, .next)

/-- Blocked bytes of a stream get one write timeout until some of them are accepted. -/
def awaitWriteProgress (c : Connection σ) : Connection σ :=
  if c.streamWaitingForWriteProgress then c
  else armDeadline env env.options.writeTimeout { c with streamWaitingForWriteProgress := true }

/-- Each progress starts the write timeout of a stream anew. -/
def noteWriteProgress (c : Connection σ) : Connection σ :=
  armDeadline env env.options.writeTimeout { c with streamWaitingForWriteProgress := false }

/-- The loop that `drive_stream` has in its place. -/
def streamWriteLoop : ℕ → Connection σ → Connection σ × Flow
  | 0, c => (c, .next)
  | rounds + 1, c =>
    if (batchFrom c.writeOffset c.writeVectors).isEmpty then (c, .next)
    else
      match writev env c with
      | (c, status, accepted) =>
        if status.isTerminal then (close env c, .exit .done)
        else if status.isBlocked || accepted = 0 then
          (awaitWriteProgress env c, .exit (if status = .wantRead then .read else .write))
        else if (c.advance accepted).writeOffset < c.pendingBytes then
          streamWriteLoop rounds (noteWriteProgress env (c.advance accepted))
        else (noteWriteProgress env (c.advance accepted), .next)

/-- Nothing is left to be sent. -/
def clearWrites (c : Connection σ) : Connection σ :=
  { c with writeVectors := [], writeOffset := 0, writeBuffer := c.writeBuffer.clear }

/-- The vectors get the bytes of the write buffer. -/
def pushWriteBuffer (c : Connection σ) : Connection σ :=
  { c with writeVectors := c.writeVectors ++ [c.writeBuffer.readable] }

/-- More bytes of a stream. -/
def appendToWriteBuffer (bytes : Bytes) (c : Connection σ) : Connection σ :=
  { c with
    writeBuffer := c.writeBuffer.append bytes (env.allocate c.allocations)
    allocations := c.allocations + 1 }

/-- After the write loop of a stream, which had `pending` bytes to send. -/
def settleWrites (pending : ℕ) (c : Connection σ) : Connection σ :=
  if 0 < pending then
    (armDeadline env env.options.streamIdleTimeout
      { c with streamWaitingForWriteProgress := false }).clearWrites
  else c.clearWrites

/-- A call of `pull`, with the bytes it gave; one that throws has finished. -/
def pull (source : StreamSource) (c : Connection σ) : Connection σ × Bytes × Pull :=
  let (scratch, answer) := source.pull c.pulls
  ({ c.record (.pulled scratch answer) with pulls := c.pulls + 1 }, scratch,
    answer.getD .finished)

/-- The next bytes of the stream: what `drive_stream` does when it has sent everything. -/
def refill (c : Connection σ) : Connection σ × Flow :=
  match c.stream with
  | none => (close env c, .exit .done)
  | some source =>
    match c.pull source with
    | (c, scratch, .finished) =>
      let c := if scratch.isEmpty then c else appendToWriteBuffer env scratch c
      if c.writeBuffer.isEmpty then (close env c, .exit .done)
      else (c.pushWriteBuffer.releaseStreamSource, .next)
    -- Empty interest: a notification or the liveness deadline wakes the stream.
    | (c, _, .idle) => (c, .exit .quiescent)
    | (c, scratch, .wrote) =>
      if scratch.isEmpty then (c, .exit .quiescent)
      else ((appendToWriteBuffer env scratch c).pushWriteBuffer, .next)

/-- `Connection::drive_stream`: what is there is sent, then the source is asked for more. -/
def driveStream : ℕ → Connection σ → Driven σ
  | 0, c => (c, none)
  | fuel + 1, c =>
    match streamWriteLoop env (c.pendingBytes - c.writeOffset) c with
    | (c₁, .exit interest) => (c₁, some interest)
    | (c₁, .next) =>
      match refill env (settleWrites env c.pendingBytes c₁) with
      | (c₂, .exit interest) => (c₂, some interest)
      | (c₂, .next) => driveStream fuel c₂

/-- The response counts as served, and everything about it is dropped. -/
def completeResponse (c : Connection σ) : Connection σ :=
  let c := { c.record .completed with requestsServed := c.requestsServed + 1 }
  { c.releaseStreamSource.clearWrites with pendingResponse := none }

/-- Back to reading.  Bytes of the next request may be there already. -/
def awaitRequest (c : Connection σ) : Connection σ :=
  let retainedReadBytes := saturatingAdd env.options.limits.maxRequestLineBytes
    env.options.limits.maxHeaderBlockBytes
  let readBuffer := c.readBuffer.compactAndReclaim retainedReadBytes.toNat
    (env.allocate c.allocations)
  let sawAnyBytes := !readBuffer.isEmpty
  enterState env .readingHeaders { c with
    request := c.request.reset
    readBuffer := readBuffer
    allocations := c.allocations + 1
    sawAnyBytes := sawAnyBytes
    requestDeadline :=
      if sawAnyBytes then env.steadyClock c.ticks + env.options.requestDeadline else 0
    ticks := c.ticks + 1 }

/-- The end of a response that is not streamed: the next request, or the end of the connection.
Error responses and streams converge here with keep-alive disabled. -/
def finishResponse (streaming : Bool) (c : Connection σ) : Driven σ :=
  let c := c.completeResponse
  let keepAlive := !streaming && c.request.keepAlive &&
    decide (c.requestsServed < env.options.maxRequestsPerConnection.toNat)
  if keepAlive then (awaitRequest env c, some .read) else (close env c, some .done)

/-- The call of `on_attached`, when the head of the stream is written. -/
def attachStream (c : Connection σ) : Connection σ :=
  { c.clearWrites.record .attached with pendingResponse := none }

/-- What `drive_write` does after its loop.  Streams are attached after their head is written; HEAD
discards them without attaching. -/
def afterWrite (fuel : ℕ) (c : Connection σ) : Driven σ :=
  let streaming := c.pendingResponse.any Response.isStream
  match c.stream with
  | some source =>
    if streaming && c.request.method != .head then
      if source.attachThrows then (close env c.attachStream, some .done)
      else driveStream env fuel (enterState env .streaming c.attachStream)
    else finishResponse env streaming c
  | none => finishResponse env streaming c

/-- `Connection::drive_write`. -/
def driveWrite (fuel : ℕ) (c : Connection σ) : Driven σ :=
  match writeLoop env (c.pendingBytes - c.writeOffset) c with
  | (c, .exit interest) => (c, some interest)
  | (c, .next) => afterWrite env fuel c

/-! ### The driver -/

/-- `Connection::drive_read_body`. -/
def driveReadBody : ℕ → Connection σ → Driven σ
  | 0, c => (c, none)
  | fuel + 1, c =>
    match parse env c with
    | (.ok parsed, c) => driveWrite env fuel (serve env parsed c)
    | (.error error, c) =>
      if error ≠ .needsMoreData then driveWrite env fuel (reject env error.status c)
      else
        match receive env c with
        | (c, .exit interest) => (c, some interest)
        | (c, .next) => driveReadBody fuel c

/-- The passes of `drive_read_headers`. -/
def readPasses (fuel : ℕ) : ℕ → Connection σ → Driven σ
  | 0, c =>
    -- Writability yields immediately when buffered pipelines exhaust this turn's fairness budget.
    (c, some (if c.readBuffer.isEmpty then .read else .readWrite))
  | passes + 1, c =>
    let goOn (driven : Driven σ) : Driven σ :=
      if driven.1.state ≠ .readingHeaders then driven else readPasses fuel passes driven.1
    match readRequest env fuel c with
    | (c, .exit interest) => (c, some interest)
    | (c, .unfinished) => (c, none)
    | (c, .bodyPending) => goOn (driveReadBody env fuel c)
    | (c, .answered) => goOn (driveWrite env fuel c)

/-- `Connection::drive_read_headers`. -/
def driveReadHeaders (fuel : ℕ) (c : Connection σ) : Driven σ :=
  readPasses env fuel kMaxPipelinedRequestsPerStep c

/-- `Connection::drive_handshake`. -/
def driveHandshake (fuel : ℕ) (c : Connection σ) : Driven σ :=
  let (status, transport) := env.transport.handshake c.transport
  let c := { c with transport := transport }
  match status with
  | .ok =>
    let c := { c with request := { c.request with isSecure := env.transport.isSecure } }
    driveReadHeaders env fuel (enterState env .readingHeaders c)
  | .wantRead => (c, some .read)
  | .wantWrite => (c, some .write)
  | .closed | .error => (c, some .done)

/-- `EPOLLERR | EPOLLHUP`. -/
def kTerminalEvents : UInt32 := 0x8 ||| 0x10

/-- `Connection::step`. -/
def step (fuel : ℕ) (epollEvents : UInt32) (c : Connection σ) : Driven σ :=
  if epollEvents &&& kTerminalEvents ≠ 0 then (c, some .done)
  else
    match c.state with
    | .handshaking => driveHandshake env fuel c
    | .readingHeaders => driveReadHeaders env fuel c
    | .readingBody =>
      let (c, interest) := driveReadBody env fuel c
      -- Buffered pipeline data needs no new read readiness.
      if c.state = .readingHeaders ∧ c.readBuffer.isEmpty = false then driveReadHeaders env fuel c
      else (c, interest)
    | .writing =>
      let (c, interest) := driveWrite env fuel c
      if c.state = .readingHeaders then driveReadHeaders env fuel c else (c, interest)
    | .streaming => driveStream env fuel c
    | .closing => (driveClose env c, some .done)

/-- `Connection::on_stream_notified`. -/
def onStreamNotified (fuel : ℕ) (c : Connection σ) : Driven σ :=
  if c.state ≠ .streaming then (c, some (if c.state = .closing then .done else .read))
  else driveStream env fuel c

/-- `Connection::on_deadline_expired`. -/
def onDeadlineExpired (fuel : ℕ) (c : Connection σ) : Driven σ :=
  match c.state with
  | .readingHeaders | .readingBody =>
    if !c.sawAnyBytes then (close env c, some .done)
    else driveWrite env fuel (reject env .requestTimeout c)
  | .handshaking | .writing | .streaming | .closing => (close env c, some .done)

/-! ### Runs -/

/-- What happens to a connection: a call of the reactor, or something at the other side of its
transport. -/
inductive Occurrence (σ : Type) where
  | step (fuel : ℕ) (epollEvents : UInt32)
  | deadlineExpired (fuel : ℕ)
  | streamNotified (fuel : ℕ)
  | elsewhere (change : σ → σ)

/-- The connection after an occurrence, and what the call answers. -/
def occur (c : Connection σ) : Occurrence σ → Driven σ
  | .step fuel epollEvents => step env fuel epollEvents c
  | .deadlineExpired fuel => onDeadlineExpired env fuel c
  | .streamNotified fuel => onStreamNotified env fuel c
  | .elsewhere change => ({ c with transport := change c.transport }, none)

/-- The connection after some occurrences. -/
def run (c : Connection σ) (occurrences : List (Occurrence σ)) : Connection σ :=
  occurrences.foldl (fun c occurrence => (occur env c occurrence).1) c

end Connection

/-! ### A scripted peer -/

/-- A peer that has sent some chunks, and takes what is sent to it or not. -/
structure Peer where
  /-- What each read yields. -/
  chunks : List Bytes
  /-- A write accepts all of its bytes, or else blocks. -/
  takes : Bool := true

/-- A transport to such a peer: a read takes from the first chunk. -/
def Transport.scripted : Transport Peer where
  handshake peer := (.ok, peer)
  read peer capacity :=
    match peer.chunks with
    | [] => (.wantRead, [], peer)
    | chunk :: chunks =>
      (.ok, chunk.take capacity, { peer with
        chunks := if chunk.length ≤ capacity then chunks else chunk.drop capacity :: chunks })
  read_le := by
    intro peer capacity
    split
    · exact Nat.zero_le _
    · exact List.length_take_le _ _
  writev peer vectors :=
    if peer.takes then (.ok, vectors.flatten.length, peer) else (.wantWrite, 0, peer)
  writev_le := by
    intro peer vectors
    split_ifs
    · exact Nat.le_refl _
    · exact Nat.zero_le _
  shutdown peer := (.ok, peer)
  isSecure := true
  peerCertificateSubject := none

/-- A server of scripted peers, with a clock that ticks once a reading. -/
def Environment.scripted (dispatch : Handler) : Environment Peer where
  transport := .scripted
  dispatch := dispatch
  pton := .rejecting
  deflate := fun _ => none
  steadyClock := fun tick => tick + 1
  systemClock := fun _ => 0
  allocate := fun count => count * 1048576

end ErikslundHttp
