import ErikslundHttp.Lib.Transitions
import ErikslundHttp.Reactor.Basic
import ErikslundHttp.Server.Admission
import ErikslundHttp.Server.Cidr

/-!
# The reactors admit connections

`Reactor::admit` takes an accepted peer through the allow list, the counts of the server and, on a
TLS listener, a TLS session to an entry of `connections_` (`reactor.cpp`).  What becomes of the peer
is counted in the metrics (`server_metrics.cpp`).  A connection that is closed, or goes with its
reactor, gives back its token.

Here the threads of `n` reactors do so at the same time.  A step is one access to what they share:
the kernel's descriptors, the counts of the server (`Tokens`) and each of the metrics.  The allow
list is never changed.  An exception, or an `epoll_ctl` that fails, ends `admit` without a metric.
-/

namespace ErikslundHttp

/-- The address of a peer as the kernel gives it, by its family. -/
inductive SockAddr where
  | inet (address : Vector UInt8 4) (port : UInt16)
  | inet6 (address : Vector UInt8 kIpv6ByteCount) (port : UInt16)
  | unix
  | other

/-- `peer_address_from`. -/
def peerAddressFrom : SockAddr → PeerAddress
  | .inet address port => { bytes := mappedAddress address, isV4 := true, port := port }
  | .inet6 address port => { bytes := address, isV4 := isIpv4Mapped address, port := port }
  | .unix => { isUnix := true }
  | .other => {}

/-- The reasons that a reactor counts; a connection counts those of the parser. -/
inductive ConnectionRejection where
  | limit
  | sourceLimit
  | cidr
  | tls
  deriving DecidableEq, Repr

/-- The metrics of the connections.  A gauge is a `double`, exact below `2 ^ 53`. -/
structure ConnectionMetrics where
  accepted : ℕ := 0
  rejectedLimit : ℕ := 0
  rejectedSourceLimit : ℕ := 0
  rejectedCidr : ℕ := 0
  rejectedTls : ℕ := 0
  /-- `connections_active`. -/
  active : ℤ := 0

namespace ConnectionMetrics

/-- `ServerMetrics::connection_accepted`. -/
def connectionAccepted (m : ConnectionMetrics) : ConnectionMetrics :=
  { m with accepted := m.accepted + 1 }

/-- `ServerMetrics::connections_active_changed`. -/
def connectionsActiveChanged (m : ConnectionMetrics) (delta : ℤ) : ConnectionMetrics :=
  { m with active := m.active + delta }

/-- `ServerMetrics::connection_rejected`. -/
def connectionRejected (m : ConnectionMetrics) : ConnectionRejection → ConnectionMetrics
  | .limit => { m with rejectedLimit := m.rejectedLimit + 1 }
  | .sourceLimit => { m with rejectedSourceLimit := m.rejectedSourceLimit + 1 }
  | .cidr => { m with rejectedCidr := m.rejectedCidr + 1 }
  | .tls => { m with rejectedTls := m.rejectedTls + 1 }

/-- All rejections together. -/
def rejected (m : ConnectionMetrics) : ℕ :=
  m.rejectedLimit + m.rejectedSourceLimit + m.rejectedCidr + m.rejectedTls

end ConnectionMetrics

/-- A peer with a token: the address it came from, and the number of the token. -/
structure AdmittedPeer where
  address : SockAddr
  /-- Where its token is among the tokens. -/
  admission : ℕ

/-- The address by which it was admitted. -/
def AdmittedPeer.peer (e : AdmittedPeer) : PeerAddress := peerAddressFrom e.address

/-- Where the thread of a reactor is. -/
inductive AdmitPhase where
  | idle
  /-- In `admit`: before the allow list, and before the counts of the server. -/
  | accepted (fd : Fd) (address : SockAddr)
  | allowed (fd : Fd) (address : SockAddr)
  /-- Before a rejection is counted. -/
  | refused (reason : ConnectionRejection)
  /-- The local `admission` has the token; the connection has it; it is given back. -/
  | holding (fd : Fd) (entry : AdmittedPeer)
  | built (fd : Fd) (entry : AdmittedPeer)
  | dropping (entry : AdmittedPeer)
  /-- After the connection got into `connections_`, and out of it; before either is counted. -/
  | stored
  | erased
  /-- In the destructor. -/
  | destroyed

/-- The connections of a reactor, by descriptor. -/
structure ReactorConnections where
  /-- What the thread has in hand. -/
  phase : AdmitPhase := .idle
  connections : List (Fd × AdmittedPeer) := []

/-- The reactors of a server.  The last two only say how often `admit` ended without a metric, and
how many connections there were. -/
structure Reactors (n : ℕ) where
  tokens : Tokens
  metrics : ConnectionMetrics := {}
  reactors : Fin n → ReactorConnections := fun _ => {}
  /-- Peers that vanished before they were stored. -/
  dropped : ℕ := 0
  /-- Connections that were stored. -/
  stored : ℕ := 0

/-- A step of one of the reactors. -/
inductive ReactorStep (n : ℕ) where
  | accept (i : Fin n) (fd : Fd) (address : SockAddr)
  | screen (i : Fin n)
  | admitPeer (i : Fin n)
  | countRejection (i : Fin n)
  | refuseTls (i : Fin n)
  | build (i : Fin n)
  | abandon (i : Fin n)
  | drop (i : Fin n)
  | store (i : Fin n)
  | countStored (i : Fin n)
  | close (i : Fin n) (fd : Fd)
  | countErased (i : Fin n)
  | destroy (i : Fin n)
  | clear (i : Fin n)

namespace AdmitPhase

/-- The descriptor of the peer that is being admitted. -/
def fd? : AdmitPhase → Option Fd
  | .accepted fd _ | .allowed fd _ | .holding fd _ | .built fd _ => some fd
  | _ => none

/-- The token that the thread has in its hands. -/
def held : AdmitPhase → List AdmittedPeer
  | .holding _ entry | .built _ entry | .dropping entry => [entry]
  | _ => []

end AdmitPhase

namespace ReactorConnections

/-- The reactor has the descriptor. -/
def isOpen (fd : Fd) (r : ReactorConnections) : Bool :=
  r.phase.fd? == some fd || (FlatMap.lookup fd r.connections).isSome

/-- Who holds a token of the server: the connections, and perhaps the peer that is being
admitted. -/
def held (r : ReactorConnections) : List AdmittedPeer := r.phase.held ++ r.connections.map Prod.snd

end ReactorConnections

/-- The counter of a refusal for a limit. -/
def AdmissionRejection.toMetric : AdmissionRejection → ConnectionRejection
  | .globalLimit => .limit
  | .sourceLimit => .sourceLimit

namespace Reactors

variable {n : ℕ}

/-- The server before any connection. -/
def init (maxConnections maxConnectionsPerSource : UInt32) : Reactors n :=
  { tokens := Tokens.run maxConnections maxConnectionsPerSource [] }

/-- The other reactors are as before. -/
def put (s : Reactors n) (i : Fin n) (r : ReactorConnections) : Reactors n :=
  { s with reactors := Function.update s.reactors i r }

/-- The admission goes on. -/
def goTo (s : Reactors n) (i : Fin n) (phase : AdmitPhase) : Reactors n :=
  s.put i { s.reactors i with phase := phase }

/-- The allow list refuses the peer. -/
def isBarred (allowList : CidrAllowList) (peer : PeerAddress) : Bool :=
  !peer.isUnix && !allowList.rules.isEmpty && !allowList.allows peer

/-- A step of one reactor; the counters and the limits are shared. -/
def step (allowList : CidrAllowList) (s : Reactors n) : ReactorStep n → Option (Reactors n)
  | .accept i fd address =>
    match (s.reactors i).phase with
    | .idle =>
      -- the kernel hands out no descriptor that is open
      if ∀ j, (s.reactors j).isOpen fd = false then
        some { s.goTo i (.accepted fd address) with metrics := s.metrics.connectionAccepted }
      else none
    | _ => none
  | .screen i =>
    match (s.reactors i).phase with
    | .accepted fd address =>
      if isBarred allowList (peerAddressFrom address) then some (s.goTo i (.refused .cidr))
      else some (s.goTo i (.allowed fd address))
    | _ => none
  | .admitPeer i =>
    match (s.reactors i).phase with
    | .allowed fd address =>
      let peer := peerAddressFrom address
      match (s.tokens.server.admitPeer peer).1 with
      | .ok _ =>
        some { s.goTo i (.holding fd ⟨address, s.tokens.objects.length⟩) with
          tokens := s.tokens.step (.admitPeer peer) }
      | .error reason =>
        some { s.goTo i (.refused reason.toMetric) with
          tokens := s.tokens.step (.admitPeer peer) }
    | _ => none
  | .countRejection i =>
    match (s.reactors i).phase with
    | .refused reason =>
      some { s.goTo i .idle with metrics := s.metrics.connectionRejected reason }
    | _ => none
  | .refuseTls i =>
    match (s.reactors i).phase with
    | .holding _ entry =>
      some { s.goTo i (.dropping entry) with metrics := s.metrics.connectionRejected .tls }
    | _ => none
  | .build i =>
    match (s.reactors i).phase with
    | .holding fd entry =>
      -- the token moves to the connection, and what is left of the local is empty
      some { s.goTo i (.built fd { entry with admission := s.tokens.objects.length }) with
        tokens :=
          (s.tokens.step (.moveConstruct entry.admission)).step (.destroy entry.admission) }
    | _ => none
  | .abandon i =>
    match (s.reactors i).phase with
    | .accepted _ _ | .allowed _ _ => some { s.goTo i .idle with dropped := s.dropped + 1 }
    | .holding _ entry | .built _ entry =>
      some { s.goTo i (.dropping entry) with dropped := s.dropped + 1 }
    | _ => none
  | .drop i =>
    match (s.reactors i).phase with
    | .dropping entry =>
      some { s.goTo i .idle with tokens := s.tokens.step (.destroy entry.admission) }
    | _ => none
  | .store i =>
    match (s.reactors i).phase with
    | .built fd entry =>
      some { s.put i { phase := .stored
                       connections :=
                         FlatMap.insertOrAssign fd entry (s.reactors i).connections } with
        stored := s.stored + 1 }
    | _ => none
  | .countStored i =>
    match (s.reactors i).phase with
    | .stored =>
      some { s.goTo i .idle with metrics := s.metrics.connectionsActiveChanged 1 }
    | _ => none
  | .close i fd =>
    match (s.reactors i).phase, FlatMap.lookup fd (s.reactors i).connections with
    | .idle, some entry =>
      some { s.put i { phase := .erased
                       connections := (s.reactors i).connections.filter fun e => e.1 != fd } with
        tokens := s.tokens.step (.destroy entry.admission) }
    | _, _ => none
  | .countErased i =>
    match (s.reactors i).phase with
    | .erased =>
      some { s.goTo i .idle with metrics := s.metrics.connectionsActiveChanged (-1) }
    | _ => none
  | .destroy i =>
    match (s.reactors i).phase with
    | .idle =>
      some { s.goTo i .destroyed with
        metrics := s.metrics.connectionsActiveChanged (-(s.reactors i).connections.length) }
    | _ => none
  | .clear i =>
    match (s.reactors i).phase, (s.reactors i).connections with
    | .destroyed, (_, entry) :: rest =>
      some { s.put i { phase := .destroyed, connections := rest } with
        tokens := s.tokens.step (.destroy entry.admission) }
    | _, _ => none

end Reactors

end ErikslundHttp
