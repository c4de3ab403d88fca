import ErikslundHttp.Connection.Actions
import ErikslundHttp.Lib.FlatMap

/-!
# The reactor

`Reactor` (`reactor.cpp`) owns the connections of one thread.  It keeps them by descriptor, and the
streams by an id that `make_notifier` gives them.  A turn of its loop hands the events of one
`epoll_wait` to the connections, drains the notifications of other threads, accepts new
connections, and closes the ones whose deadline has passed.

What the reactor does not decide is an argument: the events of a batch, the answers of the kernel,
the ids that other threads notify, and the exceptions of a connection (`ReactorEnvironment`,
`Batch`).  A turn that does not come to its end answers none: a connection may run on for ever, an
exception may leave the loop, or `accept` fail for good.
-/

namespace ErikslundHttp

/-- A file descriptor. -/
abbrev Fd := ℕ

/-- What happened in a reactor.  A connection goes by the number of connections admitted before it,
a batch of events by the number of batches before it. -/
inductive ReactorEvent where
  | admitted (batch connection : ℕ) (fd : Fd)
  /-- An event of the batch was handed to the connection. -/
  | stepped (batch connection : ℕ)
  | expired (connection : ℕ)
  /-- `make_notifier` gave the connection this id. -/
  | notifierMade (id connection : ℕ)
  /-- A notification for the id was handed to the connection. -/
  | notified (id connection : ℕ)
  | closed (connection : ℕ)
  deriving DecidableEq, Repr

/-- An entry of `connections_`, with the environment of the connection: its peer, its transport and
the configuration of its listener. -/
structure ConnectionEntry (σ : Type) where
  /-- How many connections were admitted before it. -/
  number : ℕ
  /-- The peer, the transport and the configuration of the listener. -/
  environment : Environment σ
  connection : Connection σ

/-- The members of `Reactor`, the ids pending in its `WakeState`, and its share in the metric
`connections_active`.  The last four only say what happened so far: the connections admitted, the
batches begun, the calls of connections, and the events. -/
structure Reactor (σ : Type) where
  /-- The open connections, by their descriptors. -/
  connections : List (Fd × ConnectionEntry σ) := []
  /-- The descriptor of each stream, by its id. -/
  streaming : List (ℕ × Fd) := []
  /-- A `uint64_t` in the source, which wraps around only after 2⁶⁴ notifiers. -/
  nextStreamId : ℕ := 1
  /-- The ids that were notified, and not drained since. -/
  pendingStreams : List ℕ := []
  /-- What this reactor added to the gauge. -/
  connectionsActive : ℤ := 0
  /-- How many connections were admitted. -/
  admitted : ℕ := 0
  /-- How many turns have begun. -/
  batches : ℕ := 0
  /-- How many calls of connections have begun. -/
  calls : ℕ := 0
  /-- The events so far. -/
  log : List ReactorEvent := []

/-- How a call of a connection goes, apart from what the connection does. -/
structure CallOutcome where
  /-- Bounds the loops of the connection. -/
  fuel : ℕ
  /-- The call throws; before or after the connection has got a notifier. -/
  throws : Option Bool := none
  /-- `epoll_ctl` fails to arm the descriptor after it. -/
  rearmFails : Bool := false

/-- The descriptors of the reactor itself, and how the calls of connections go. -/
structure ReactorEnvironment where
  /-- Notifications of other threads make it readable. -/
  eventFd : Fd
  /-- The sockets that connections come in at. -/
  listenFds : List Fd
  /-- How the `i`-th call goes. -/
  outcome : ℕ → CallOutcome

/-- What becomes of an accepted peer: it may be refused by the allow list, by a limit or for want
of a TLS session, or its descriptor may not be registered; else it gets a connection. -/
inductive Admission (σ : Type) where
  | cidr
  | limit
  | tls
  | unregistered
  | admitted (environment : Environment σ) (transport : σ)

/-- What `accept_connection` returns. -/
inductive AcceptResult (σ : Type) where
  | accepted (fd : Fd) (admission : Admission σ)
  | wouldBlock
  | transientError
  | fatalError

/-- One turn: the events of `epoll_wait`; the answers of `accept` and the ids notified since, at the
`i`-th of them; and the time of the scan for deadlines. -/
structure Batch (σ : Type) where
  /-- The ready descriptors, each with its mask. -/
  events : List (Fd × UInt32)
  /-- What the listener answers at the `i`-th of them. -/
  accepts : ℕ → List (AcceptResult σ)
  /-- The ids notified since the event before. -/
  notifications : ℕ → List ℕ
  /-- The time of the scan for deadlines. -/
  moment : TimePoint

/-- So many peers are accepted in a turn, and the others in the next. -/
def kMaxAcceptsPerTurn : ℕ := 64

namespace Reactor

variable {σ : Type} (server : ReactorEnvironment)

/-- The event happens now. -/
def record (event : ReactorEvent) (r : Reactor σ) : Reactor σ := { r with log := r.log ++ [event] }

/-! ### Connections and streams -/

/-- `make_notifier`, for the connection of that number. -/
def makeNotifier (fd : Fd) (number : ℕ) (r : Reactor σ) : Reactor σ :=
  { r.record (.notifierMade r.nextStreamId number) with
    nextStreamId := r.nextStreamId + 1
    streaming := FlatMap.insertOrAssign r.nextStreamId fd r.streaming }

/-- `Reactor::close_connection`: no id leads to the descriptor afterwards. -/
def closeConnection (fd : Fd) (r : Reactor σ) : Reactor σ :=
  match FlatMap.lookup fd r.connections with
  | none => r
  | some entry =>
    { r.record (.closed entry.number) with
      streaming := r.streaming.filter fun mapping => mapping.2 != fd
      connections := r.connections.filter fun e => e.1 != fd
      connectionsActive := r.connectionsActive - 1 }

/-- A failed `epoll_ctl` closes the connection. -/
def arm (fd : Fd) (fails : Bool) (r : Reactor σ) : Reactor σ :=
  if fails then r.closeConnection fd else r

/-- The calls of `on_attached` in a trace; `make_notifier` comes before each of them. -/
def attachments (trace : List (ℕ × Event)) : ℕ :=
  trace.countP fun entry => match entry.2 with
    | .attached => true
    | _ => false

/-- The connection at `fd` after a call: it may have got notifiers. -/
def store (fd : Fd) (entry : ConnectionEntry σ) (c : Connection σ) (r : Reactor σ) : Reactor σ :=
  let r := { r with
    connections := FlatMap.insertOrAssign fd { entry with connection := c } r.connections }
  (makeNotifier fd entry.number)^[attachments c.trace - attachments entry.connection.trace] r

/-- What follows a call that answered `interest`. -/
def settle (fd : Fd) (interest : EpollInterest) (rearmFails : Bool) (r : Reactor σ) : Reactor σ :=
  if interest = .done then r.closeConnection fd else r.arm fd rearmFails

/-- A call of the connection at `fd` that does not throw, and what follows it. -/
def call (fd : Fd) (entry : ConnectionEntry σ) (occurrence : ℕ → Connection.Occurrence σ)
    (r : Reactor σ) : Option (Reactor σ) :=
  let outcome := server.outcome r.calls
  match Connection.occur entry.environment entry.connection (occurrence outcome.fuel) with
  | (_, none) => none
  | (c, some interest) =>
    some (({ r with calls := r.calls + 1 }.store fd entry c).settle fd interest outcome.rearmFails)

/-! ### The parts of a turn -/

/-- `Reactor::handle_connection_event`. -/
def handleConnectionEvent (fd : Fd) (events : UInt32) (r : Reactor σ) : Option (Reactor σ) :=
  match FlatMap.lookup fd r.connections with
  | none => some r
  | some entry =>
    let r := r.record (.stepped r.batches entry.number)
    match (server.outcome r.calls).throws with
    | none => call server fd entry (fun fuel => .step fuel events) r
    | some hasNotifier =>
      let r := { r with calls := r.calls + 1 }
      let r := if hasNotifier then r.makeNotifier fd entry.number else r
      some (r.closeConnection fd)

/-- What `scan_deadlines` does with a connection whose deadline has passed. -/
def expire (fd : Fd) (r : Reactor σ) : Option (Reactor σ) :=
  match FlatMap.lookup fd r.connections with
  | none => some r
  | some entry =>
    let r := r.record (.expired entry.number)
    match (server.outcome r.calls).throws with
    | none => call server fd entry .deadlineExpired r
    | some _ => none

/-- `Reactor::scan_deadlines`: those that are late at its beginning, one by one. -/
def scanDeadlines (moment : TimePoint) (r : Reactor σ) : Option (Reactor σ) :=
  let expired := (r.connections.filter fun e => e.2.connection.deadline ≤ moment).map Prod.fst
  expired.foldlM (fun r fd => expire server fd r) r

/-- `WakeState::notify_stream`: one pending entry per stream. -/
def notifyStream (r : Reactor σ) (id : ℕ) : Reactor σ :=
  if id ∈ r.pendingStreams then r else { r with pendingStreams := r.pendingStreams ++ [id] }

/-- What `drain_stream_wakeups` does with an id; its stream may be gone. -/
def wakeStream (id : ℕ) (r : Reactor σ) : Option (Reactor σ) :=
  match FlatMap.lookup id r.streaming with
  | none => some r
  | some fd =>
    match FlatMap.lookup fd r.connections with
    | none => some r
    | some entry =>
      let r := r.record (.notified id entry.number)
      match (server.outcome r.calls).throws with
      | none => call server fd entry .streamNotified r
      | some _ => none

/-- `Reactor::drain_stream_wakeups`: the ids are taken first. -/
def drainStreamWakeups (r : Reactor σ) : Option (Reactor σ) :=
  r.pendingStreams.foldlM (fun r id => wakeStream server id r) { r with pendingStreams := [] }

/-- The descriptors that the reactor holds open. -/
def isOpen (fd : Fd) (r : Reactor σ) : Bool :=
  fd == server.eventFd || server.listenFds.contains fd || (FlatMap.lookup fd r.connections).isSome

/-- `Reactor::admit`.  The kernel hands out no descriptor that is open. -/
def admitConnection (fd : Fd) (admission : Admission σ) (r : Reactor σ) : Reactor σ :=
  if r.isOpen server fd then r
  else
    match admission with
    | .cidr | .limit | .tls | .unregistered => r
    | .admitted environment transport =>
      { r.record (.admitted r.batches r.admitted fd) with
        connections := FlatMap.insertOrAssign fd
          ⟨r.admitted, environment, Connection.init environment transport⟩ r.connections
        connectionsActive := r.connectionsActive + 1
        admitted := r.admitted + 1 }

/-- The loop of `accept_ready`; an error that persists stops the reactor. -/
def acceptReady : ℕ → List (AcceptResult σ) → Reactor σ → Option (Reactor σ)
  | 0, _, r => some r
  | _ + 1, [], r => some r
  | rounds + 1, answer :: answers, r =>
    match answer with
    | .accepted fd admission => acceptReady rounds answers (r.admitConnection server fd admission)
    | .wouldBlock | .transientError => some r
    | .fatalError => none

/-- The first pass over the events hands them to the connections. -/
def connectionPass (events : List (Fd × UInt32)) (r : Reactor σ) : Option (Reactor σ) :=
  events.foldlM (fun r event =>
    if event.1 = server.eventFd ∨ event.1 ∈ server.listenFds then some r
    else handleConnectionEvent server event.1 event.2 r) r

/-- The second pass drains the notifications and accepts connections. -/
def acceptPass (batch : Batch σ) (r : Reactor σ) : Option (Reactor σ) :=
  batch.events.zipIdx.foldlM (fun r event =>
    if event.1.1 = server.eventFd then
      drainStreamWakeups server ((batch.notifications event.2).foldl notifyStream r)
    else if event.1.1 ∈ server.listenFds then
      acceptReady server kMaxAcceptsPerTurn (batch.accepts event.2) r
    else some r) r

/-- One turn of `run`. -/
def turn (r : Reactor σ) (batch : Batch σ) : Option (Reactor σ) := do
  let r ← connectionPass server batch.events { r with batches := r.batches + 1 }
  let r ← acceptPass server batch r
  scanDeadlines server batch.moment r

/-- The reactor after some turns; none if one of them threw. -/
def run (batches : List (Batch σ)) : Option (Reactor σ) := batches.foldlM (turn server) {}

end Reactor

end ErikslundHttp
