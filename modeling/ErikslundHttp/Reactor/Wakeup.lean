import ErikslundHttp.Connection.StreamStatus
import ErikslundHttp.Reactor.Basic
import ErikslundHttp.Sse.Basic

/-!
# Streams between threads

The threads that publish events and the reactor that sends them share three things: the subscribers
(`SseSubscriber`), the pending ids and the eventfd of the reactor (`WakeState`).  Here each critical
section, and each call of the kernel for the eventfd, is one step, and the steps of the threads come
in any order.

The reactor's own work is that of `Reactor`.  A call of a connection is taken apart at the events of
its trace: `perform` carries out the next one, so that other threads come in between.  What the
source of a stream answers is given with the connection beforehand; a pull can be carried out only
if the subscriber gives that answer at that moment.
-/

namespace ErikslundHttp

/-- A thread that calls a subscriber: it has nothing to notify; it has left the lock of the
subscriber with the notifier of that id; it has found the reactor alive; or it has left the lock of
the wake state. -/
inductive Producer where
  | idle
  | notifying (id : ℕ)
  | pushing (id : ℕ)
  | signalling (id : ℕ)
  deriving DecidableEq, Repr

/-- A call of the connection at `fd`: the connection and the interest it ends with, and the events
still to come; whether an exception of it is caught; and the ids to be woken after it, if it is for
a notification. -/
structure ReactorCall (σ : Type) where
  fd : Fd
  /-- The connection as the call found it. -/
  entry : ConnectionEntry σ
  /-- The connection as the call leaves it. -/
  connection : Connection σ
  /-- What the descriptor is to be armed for. -/
  interest : Option EpollInterest
  /-- What is left to happen in the call. -/
  events : List (ℕ × Event)
  /-- An exception in it is caught, and closes the connection. -/
  catches : Bool
  /-- The ids still to be called for, if the call is one of `drain_stream_wakeups`. -/
  ids : Option (List ℕ)

/-- Where the thread of the reactor is: in `drain_event_fd`; before the lock of
`drain_stream_wakeups`; in its loop, with some ids left; in a call of a connection; or elsewhere in
its own loop. -/
inductive ReactorPhase (σ : Type) where
  | waiting
  | draining
  | swapping
  | waking (ids : List ℕ)
  | calling (call : ReactorCall σ)
  | stopped

/-- A reactor and its `WakeState`, the subscribers by the numbers of their connections, and the
other threads.  `pushedBy` only says which thread pushed an id last. -/
structure StreamSystem (σ : Type) where
  reactor : Reactor σ := {}
  /-- What the reactor is about to do. -/
  phase : ReactorPhase σ := .waiting
  /-- The wake state still has its reactor. -/
  alive : Bool := true
  /-- The counter of the event descriptor. -/
  eventFd : ℕ := 0
  /-- The subscriber of each connection, by the number of the connection. -/
  subscribers : ℕ → Option (SseSubscriber ℕ) := fun _ => none
  /-- What each thread is about to do. -/
  producers : ℕ → Producer := fun _ => .idle
  /-- The thread that pushed an id last. -/
  pushedBy : ℕ → ℕ := fun _ => 0

/-- A step of the reactor, or of a thread that calls a subscriber. -/
inductive SystemStep (σ : Type) where
  /-- Another thread calls the subscriber of a connection. -/
  | enqueue (thread number : ℕ) (frame : SharedFrame)
  | beginClose (thread number : ℕ)
  | maybeHeartbeat (thread number : ℕ) (now : TimePoint)
  /-- The parts of `notify_stream`. -/
  | notify (thread : ℕ)
  | push (thread : ℕ)
  | signal (thread : ℕ)
  /-- `WakeState::wake`. -/
  | wake
  /-- The reactor gets a connection, which may be given a subscriber. -/
  | accept (fd : Fd) (environment : Environment σ) (transport : σ)
      (subscriber : Option (SseOptions × TimePoint))
  /-- A read of `drain_event_fd`. -/
  | readEventFd
  | swap
  | wakeNext (fuel : ℕ)
  /-- The calls of a connection that are not for a notification. -/
  | event (fd : Fd) (fuel : ℕ) (epollEvents : UInt32)
  | expire (fd : Fd) (fuel : ℕ)
  | perform (now : TimePoint)
  | finish (rearmFails : Bool)
  | throw (held : Bool)
  | stop

/-- `0xfffffffffffffffe`, the most that an eventfd holds. -/
def kEventFdMax : ℕ := 2 ^ 64 - 2

/-- `signal_event_fd`: a saturated eventfd already has a pending wakeup. -/
def signalEventFd (count : ℕ) : ℕ := if count + 1 ≤ kEventFdMax then count + 1 else count

namespace StreamSystem

variable {σ : Type} (server : ReactorEnvironment)

/-! ### Other threads -/

/-- A call of a subscriber by an idle thread, which leaves with a notifier. -/
def produce (thread number : ℕ) (f : SseSubscriber ℕ → SseSubscriber ℕ × Option ℕ)
    (s : StreamSystem σ) : Option (StreamSystem σ) :=
  match s.producers thread, s.subscribers number with
  | .idle, some subscriber =>
    let (subscriber, notifier) := f subscriber
    some { s with
      subscribers := Function.update s.subscribers number (some subscriber)
      producers := Function.update s.producers thread
        (match notifier with
        | some id => .notifying id
        | none => .idle) }
  | _, _ => none

/-- The push of `notify_stream`. -/
def push (thread id : ℕ) (s : StreamSystem σ) : StreamSystem σ :=
  { s with
    reactor := s.reactor.notifyStream id
    pushedBy := if id ∈ s.reactor.pendingStreams then s.pushedBy
      else Function.update s.pushedBy id thread
    producers := Function.update s.producers thread (.signalling id) }

/-! ### The reactor -/

/-- The subscriber of a connection is called by the reactor. -/
def modify (number : ℕ) (f : SseSubscriber ℕ → SseSubscriber ℕ) (s : StreamSystem σ) :
    StreamSystem σ :=
  { s with subscribers := Function.update s.subscribers number ((s.subscribers number).map f) }

/-- A peer is admitted, and its handler may subscribe it. -/
def accept (fd : Fd) (environment : Environment σ) (transport : σ)
    (subscriber : Option (SseOptions × TimePoint)) (s : StreamSystem σ) : StreamSystem σ :=
  { s with
    reactor := s.reactor.admitConnection server fd (.admitted environment transport)
    subscribers := Function.update s.subscribers s.reactor.admitted
      (subscriber.map fun created => .init created.1 created.2) }

/-- A call begins.  Its events are those that the connection adds to its trace. -/
def enter (fd : Fd) (occurrence : Connection.Occurrence σ) (entry : ConnectionEntry σ)
    (catches : Bool) (ids : Option (List ℕ)) (s : StreamSystem σ) : StreamSystem σ :=
  let (c, interest) := Connection.occur entry.environment entry.connection occurrence
  let events := c.trace.drop entry.connection.trace.length
  { s with phase := .calling ⟨fd, entry, c, interest, events, catches, ids⟩ }

/-- The call of a connection in the table. -/
def call (fd : Fd) (occurrence : Connection.Occurrence σ) (catches : Bool) (s : StreamSystem σ) :
    Option (StreamSystem σ) :=
  (FlatMap.lookup fd s.reactor.connections).map fun entry =>
    s.enter fd occurrence entry catches none

/-- The loop of `drain_stream_wakeups` goes on. -/
def wakeNext (fuel : ℕ) (ids : List ℕ) (s : StreamSystem σ) : StreamSystem σ :=
  match ids with
  | [] => { s with phase := .waiting }
  | id :: ids =>
    match FlatMap.lookup id s.reactor.streaming with
    | none => { s with phase := .waking ids }
    | some fd =>
      match FlatMap.lookup fd s.reactor.connections with
      | none => { s with phase := .waking ids }
      | some entry => s.enter fd (.streamNotified fuel) entry false (some ids)

/-- An event of a call, as far as it concerns others. -/
def carryOut (fd : Fd) (number : ℕ) (now : TimePoint) (event : Event) (s : StreamSystem σ) :
    Option (StreamSystem σ) :=
  match event with
  | .attached =>
    let id := s.reactor.nextStreamId
    some ({ s with reactor := s.reactor.makeNotifier fd number }.modify number (·.onAttached id))
  | .pulled bytes answer =>
    match s.subscribers number with
    | none => some s
    | some subscriber =>
      let (out, pull, subscriber) := subscriber.pull now
      if out = bytes ∧ some pull = answer then
        some { s with subscribers := Function.update s.subscribers number (some subscriber) }
      else none
  | .detached => some (s.modify number (·.onDetached))
  | _ => some s

/-- After a call: the loop that made it goes on. -/
def resume (ids : Option (List ℕ)) : ReactorPhase σ :=
  match ids with
  | none => .waiting
  | some ids => .waking ids

/-- `close_connection`.  The destructor of the connection detaches a source that is still held. -/
def close (fd : Fd) (number : ℕ) (held : Bool) (s : StreamSystem σ) : StreamSystem σ :=
  let s := { s with reactor := s.reactor.closeConnection fd }
  if held then s.modify number (·.onDetached) else s

/-- The end of a call that answered `interest`. -/
def finish (call : ReactorCall σ) (interest : EpollInterest) (rearmFails : Bool)
    (s : StreamSystem σ) : StreamSystem σ :=
  let connections := FlatMap.insertOrAssign call.fd
    { call.entry with connection := call.connection } s.reactor.connections
  let s := { s with
    phase := resume call.ids
    reactor := { s.reactor with connections := connections } }
  if interest = .done ∨ rearmFails then
    s.close call.fd call.entry.number call.connection.stream.isSome
  else s

/-- A step of the system; none if it is not possible. -/
def step (s : StreamSystem σ) : SystemStep σ → Option (StreamSystem σ)
  | .enqueue thread number frame => s.produce thread number (·.enqueue frame)
  | .beginClose thread number => s.produce thread number (·.beginClose)
  | .maybeHeartbeat thread number now => s.produce thread number (·.maybeHeartbeat now)
  | .notify thread =>
    match s.producers thread with
    | .notifying id =>
      let next := if s.alive then .pushing id else .idle
      some { s with producers := Function.update s.producers thread next }
    | _ => none
  | .push thread =>
    match s.producers thread with
    | .pushing id => some (s.push thread id)
    | _ => none
  | .signal thread =>
    match s.producers thread with
    | .signalling _ => some { s with
        eventFd := signalEventFd s.eventFd
        producers := Function.update s.producers thread .idle }
    | _ => none
  | .wake => some { s with eventFd := signalEventFd s.eventFd }
  | .accept fd environment transport subscriber =>
    match s.phase with
    -- The kernel hands out no descriptor that is open.
    | .waiting => if s.reactor.isOpen server fd then none
      else some (s.accept server fd environment transport subscriber)
    | _ => none
  | .readEventFd =>
    match s.phase with
    -- `epoll_wait` has reported the eventfd, so the first read finds it signalled.
    | .waiting => if 0 < s.eventFd then some { s with eventFd := 0, phase := .draining } else none
    | .draining => some (if 0 < s.eventFd then { s with eventFd := 0 }
        else { s with phase := .swapping })
    | _ => none
  | .swap =>
    match s.phase with
    | .swapping => some { s with
        phase := .waking s.reactor.pendingStreams
        reactor := { s.reactor with pendingStreams := [] } }
    | _ => none
  | .wakeNext fuel =>
    match s.phase with
    | .waking ids => some (s.wakeNext fuel ids)
    | _ => none
  | .event fd fuel epollEvents =>
    match s.phase with
    | .waiting => s.call fd (.step fuel epollEvents) true
    | _ => none
  | .expire fd fuel =>
    match s.phase with
    | .waiting => s.call fd (.deadlineExpired fuel) false
    | _ => none
  | .perform now =>
    match s.phase with
    | .calling call =>
      match call.events with
      | [] => none
      | (_, event) :: events =>
        { s with phase := .calling { call with events := events } }.carryOut call.fd
          call.entry.number now event
    | _ => none
  | .finish rearmFails =>
    match s.phase with
    | .calling call =>
      match call.events, call.interest with
      | [], some interest => some (s.finish call interest rearmFails)
      | _, _ => none
    | _ => none
  | .throw held =>
    match s.phase with
    | .calling call =>
      -- Only `handle_connection_event` catches; elsewhere the reactor stops.
      some (if call.catches then
          { s with phase := .waiting }.close call.fd call.entry.number held
        else { s with phase := .stopped, alive := false })
    | _ => none
  | .stop =>
    match s.phase with
    | .waiting => some { s with phase := .stopped, alive := false }
    | _ => none

/-- The system after some steps. -/
def run (steps : List (SystemStep σ)) : Option (StreamSystem σ) := steps.foldlM (step server) {}

/-- The connection that the reactor is executing. -/
def executing (s : StreamSystem σ) : Option Fd :=
  match s.phase with
  | .calling call => some call.fd
  | _ => none

/-- The list being drained. -/
def drained (s : StreamSystem σ) : List ℕ :=
  match s.phase with
  | .waking ids => ids
  | .calling call => call.ids.getD []
  | _ => []

end StreamSystem

end ErikslundHttp
