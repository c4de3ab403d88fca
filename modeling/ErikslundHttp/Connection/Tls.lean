import ErikslundHttp.Connection.Output

/-!
# TLS transports

`TlsTransport` (`tls_transport.cpp`) over an OpenSSL session that does what its documentation says:
`SSL_write_ex` accepts a part of its buffer, or blocks or fails without accepting anything.

A write that blocked has to be retried with the same buffer.  The transport copies the vectors of a
write to its own buffer, and takes a call with the same total length for the retry of a blocked
write: it does not look at the vectors again.

* `writev_answers`: a call that presents the stalled bytes is taken as it is meant.
* `tls_write_retry_discipline`: a connection never misuses that, since the call after a blocked one
  presents the same bytes.
-/

namespace ErikslundHttp

/-! ### OpenSSL -/

/-- What `SSL_get_error` says about a failed call. -/
inductive SslError where
  | wantRead
  | wantWrite
  | zeroReturn
  | syscall (errno : ℕ)
  | ssl (unexpectedEof : Bool)
  | other
  deriving DecidableEq, Repr

/-- The functions of OpenSSL on the state of a session.  `exData` says whether a session can be given
its stalled write, `reserve` is the address of storage for so many bytes. -/
structure Ssl (τ : Type) where
  /-- `SSL_accept`. -/
  accept : τ → Option SslError × τ
  /-- `SSL_read_ex`, with the size of its buffer. -/
  read : τ → ℕ → Except SslError Bytes × τ
  /-- No more bytes than the buffer has room for. -/
  read_le : ∀ s size bytes s', read s size = (.ok bytes, s') → bytes.length ≤ size
  /-- `SSL_write_ex`, with the bytes of its buffer. -/
  write : τ → Bytes → Except SslError ℕ × τ
  /-- A write that succeeds accepts something. -/
  write_pos : ∀ s data count s', write s data = (.ok count, s') → 0 < count
  /-- No more bytes than it was given. -/
  write_le : ∀ s data count s', write s data = (.ok count, s') → count ≤ data.length
  /-- `SSL_shutdown`. -/
  shutdown : τ → Option SslError × τ
  /-- `SSL_set_ex_data` succeeds. -/
  exData : τ → Bool
  /-- Where the storage lies, if there is any. -/
  reserve : τ → ℕ → Option ℕ

/-- `classify_ssl_failure`. -/
def classifySslFailure : SslError → TransportStatus
  | .wantRead => .wantRead
  | .wantWrite => .wantWrite
  | .zeroReturn => .closed
  -- browsers commonly close without `close_notify` when navigating away
  | .syscall errno => if errno = 0 then .closed else .error
  | .ssl unexpectedEof => if unexpectedEof then .closed else .error
  | .other => .error

/-! ### Stalled writes -/

/-- Which of the two writes is to be made again. -/
inductive StalledKind where
  | none
  | write
  | writev
  deriving DecidableEq, Repr

/-- A vector of bytes, with the address and the size of its storage. -/
structure Scratch where
  /-- The address of the storage. -/
  base : ℕ := 0
  /-- Its size. -/
  capacity : ℕ := 0
  bytes : Bytes := []

/-- The members of `StalledWrite`: OpenSSL wants the same call with the same buffer. -/
structure StalledWrite where
  /-- Which call blocked, if one did. -/
  kind : StalledKind := .none
  /-- The address of the bytes it was given. -/
  buffer : ℕ := 0
  /-- How many they are. -/
  length : ℕ := 0
  /-- The copy of the vectors. -/
  scratch : Scratch := {}

/-- `matches_stalled_write`. -/
def matchesStalledWrite (pending : StalledWrite) (kind : StalledKind) (buffer length : ℕ) : Bool :=
  pending.kind = .none || pending.kind = kind && pending.buffer = buffer && pending.length = length

/-- `record_write_outcome`. -/
def recordWriteOutcome (pending : StalledWrite) (status : TransportStatus) (kind : StalledKind)
    (buffer length : ℕ) : StalledWrite :=
  if status.isBlocked then { pending with kind := kind, buffer := buffer, length := length }
  else { pending with kind := .none, buffer := 0, length := 0 }

/-- The scratch buffer gets the bytes of the vectors, if there is storage for them. -/
def coalesceIntoScratch (scratch : Scratch) (vectors : List Bytes) (total : ℕ)
    (storage : Option ℕ) : Bool × Scratch :=
  if total ≤ scratch.capacity then (true, { scratch with bytes := vectors.flatten })
  else
    match storage with
    | some base => (true, ⟨base, total, vectors.flatten⟩)
    | none => (false, { scratch with bytes := [] })

/-! ### The transport -/

/-- A call of `writev`: what it was given, and, if it came to that, the bytes it handed to
`SSL_write_ex`. -/
structure TlsWrite where
  /-- What the connection presents. -/
  vectors : List Bytes
  /-- It was taken for the retry of the stalled write. -/
  isRetry : Bool := false
  /-- It was refused, since the stalled write is another one. -/
  mismatch : Bool := false
  /-- The bytes handed to `SSL_write_ex`. -/
  data : Option Bytes := none
  /-- What the connection is told. -/
  status : TransportStatus
  accepted : ℕ := 0

/-- The bytes that OpenSSL accepted. -/
def TlsWrite.acceptedBytes (w : TlsWrite) : Bytes :=
  match w.data with
  | some data => if w.status = .ok then data.take w.accepted else []
  | none => []

/-- A session with its stalled write; `writes` are the calls of `writev` so far. -/
structure TlsTransport (τ : Type) where
  ssl : τ
  /-- Made by the first write. -/
  stalled : Option StalledWrite := none
  writes : List TlsWrite := []

namespace TlsTransport

variable {τ : Type} (ssl : Ssl τ)

/-- `stalled_write_for`: the stalled write of the session, a new one at first. -/
def stalledWriteFor (t : TlsTransport τ) : Option StalledWrite :=
  match t.stalled with
  | some existing => some existing
  | none => if ssl.exData t.ssl then some {} else none

/-- What a call of `write_through_ssl` says and leaves. -/
structure ThroughSsl (τ : Type) where
  status : TransportStatus
  accepted : ℕ := 0
  /-- The buffer is not that of the stalled write. -/
  mismatch : Bool := false
  /-- The session after the call. -/
  session : τ
  /-- The stalled write after the call. -/
  pending : StalledWrite

/-- `data` are the bytes at the address `buffer`. -/
def writeThroughSsl (session : τ) (pending : StalledWrite) (kind : StalledKind) (buffer : ℕ)
    (data : Bytes) (length : ℕ) : ThroughSsl τ :=
  if !matchesStalledWrite pending kind buffer length then
    { status := .error, mismatch := true, session := session, pending := pending }
  else
    match ssl.write session (data.take length) with
    | (.ok written, session) =>
      { status := .ok
        accepted := written
        session := session
        pending := recordWriteOutcome pending .ok kind buffer length }
    | (.error error, session) =>
      { status := classifySslFailure error
        session := session
        pending := recordWriteOutcome pending (classifySslFailure error) kind buffer length }

/-- A call of `writev` is over. -/
def finish (t : TlsTransport τ) (w : TlsWrite) : TransportStatus × ℕ × TlsTransport τ :=
  (w.status, w.accepted, { t with writes := t.writes ++ [w] })

/-- The call is taken for the retry of the stalled one. -/
def isRetry (pending : StalledWrite) (total : ℕ) : Bool :=
  pending.kind = .writev && pending.length = total

/-- The part of `writev` after the scratch buffer of `pending` is filled. -/
def submit (t : TlsTransport τ) (vectors : List Bytes) (total : ℕ) (retry : Bool)
    (pending : StalledWrite) : TransportStatus × ℕ × TlsTransport τ :=
  let outcome := writeThroughSsl ssl t.ssl pending .writev pending.scratch.base
    pending.scratch.bytes total
  finish { t with ssl := outcome.session, stalled := some outcome.pending }
    { vectors := vectors
      isRetry := retry
      mismatch := outcome.mismatch
      data := if outcome.mismatch then none else some (pending.scratch.bytes.take total)
      status := outcome.status
      accepted := outcome.accepted }

/-- Coalesces one TLS record; the scratch buffer is not refilled during retries. -/
def writev (t : TlsTransport τ) (vectors : List Bytes) : TransportStatus × ℕ × TlsTransport τ :=
  let total := (vectors.map List.length).sum
  if total = 0 then t.finish { vectors := vectors, status := .ok }
  else
    match stalledWriteFor ssl t with
    | none => t.finish { vectors := vectors, status := .error }
    | some pending =>
      if isRetry pending total then submit ssl t vectors total true pending
      else
        match coalesceIntoScratch pending.scratch vectors total (ssl.reserve t.ssl total) with
        | (false, scratch) =>
          finish { t with stalled := some { pending with scratch := scratch } }
            { vectors := vectors, status := .error }
        | (true, scratch) => submit ssl t vectors total false { pending with scratch := scratch }

/-- `TlsTransport::handshake`. -/
def handshake (t : TlsTransport τ) : TransportStatus × TlsTransport τ :=
  match ssl.accept t.ssl with
  | (none, session) => (.ok, { t with ssl := session })
  | (some error, session) => (classifySslFailure error, { t with ssl := session })

/-- `TlsTransport::read`, one call of `SSL_read_ex`. -/
def read (t : TlsTransport τ) (capacity : ℕ) : TransportStatus × Bytes × TlsTransport τ :=
  if capacity = 0 then (.ok, [], t)
  else
    match ssl.read t.ssl capacity with
    | (.ok received, session) => (.ok, received, { t with ssl := session })
    | (.error error, session) => (classifySslFailure error, [], { t with ssl := session })

/-- Sends `close_notify` once. -/
def shutdown (t : TlsTransport τ) : TransportStatus × TlsTransport τ :=
  match ssl.shutdown t.ssl with
  | (none, session) => (.ok, { t with ssl := session })
  | (some error, session) => (classifySslFailure error, { t with ssl := session })

/-! ### What a write does -/

variable {ssl}

/-- What `write_through_ssl` did, if it came to a call of `SSL_write_ex`. -/
structure Wrote (outcome : ThroughSsl τ) (pending : StalledWrite) (kind : StalledKind)
    (buffer length : ℕ) (data : Bytes) : Prop where
  /-- The call was not refused. -/
  matched : outcome.mismatch = false
  pending : outcome.pending = recordWriteOutcome pending outcome.status kind buffer length
  accepted_le : outcome.accepted ≤ data.length
  /-- A call that failed or blocked accepted nothing. -/
  nothing : outcome.status ≠ .ok → outcome.accepted = 0

variable (ssl) in
theorem writeThroughSsl_wrote (session : τ) {pending : StalledWrite} {kind : StalledKind}
    {buffer length : ℕ} (data : Bytes)
    (hmatch : matchesStalledWrite pending kind buffer length = true) :
    Wrote (writeThroughSsl ssl session pending kind buffer data length) pending kind buffer length
      (data.take length) := by
  rw [writeThroughSsl, hmatch]
  rcases hwrite : ssl.write session (data.take length) with ⟨written | written, session'⟩
  · exact ⟨rfl, rfl, Nat.zero_le _, fun _ => rfl⟩
  · exact ⟨rfl, rfl, ssl.write_le _ _ _ _ hwrite, fun hne => absurd rfl hne⟩

theorem writeThroughSsl_le (session : τ) (pending : StalledWrite) (kind : StalledKind)
    (buffer : ℕ) (data : Bytes) (length : ℕ) :
    (writeThroughSsl ssl session pending kind buffer data length).accepted ≤ length := by
  by_cases hmatch : matchesStalledWrite pending kind buffer length = true
  · exact (writeThroughSsl_wrote ssl session data hmatch).accepted_le.trans (List.length_take_le _ _)
  · rw [writeThroughSsl, Bool.eq_false_of_not_eq_true hmatch]
    exact Nat.zero_le _

theorem coalesceIntoScratch_bytes {scratch scratch' : Scratch} {vectors : List Bytes} {total : ℕ}
    {storage : Option ℕ} (h : coalesceIntoScratch scratch vectors total storage = (true, scratch')) :
    scratch'.bytes = vectors.flatten := by
  rw [coalesceIntoScratch.eq_def] at h
  split_ifs at h
  · cases h
    rfl
  · cases storage with
    | none => cases h
    | some base =>
      cases h
      rfl

theorem writev_le (ssl : Ssl τ) (t : TlsTransport τ) (vectors : List Bytes) :
    (writev ssl t vectors).2.1 ≤ vectors.flatten.length := by
  have hsubmit : ∀ retry pending,
      (submit ssl t vectors vectors.flatten.length retry pending).2.1 ≤ vectors.flatten.length :=
    fun _ _ => writeThroughSsl_le _ _ _ _ _ _
  rw [writev, ← List.length_flatten]
  split_ifs
  · exact Nat.zero_le _
  split
  · exact Nat.zero_le _
  split_ifs
  · exact hsubmit _ _
  split
  · exact Nat.zero_le _
  · exact hsubmit _ _

/-- The stalled write, if there is one, is a copy of the bytes. -/
structure StalledOn (p : StalledWrite) (bytes : Bytes) : Prop where
  /-- The connection never calls the other write. -/
  kind : p.kind ≠ .write
  /-- The copy holds the bytes. -/
  scratch : p.kind = .writev → p.scratch.bytes = bytes
  length : p.kind = .writev → p.length = bytes.length
  buffer : p.kind = .writev → p.buffer = p.scratch.base

/-- A call of `writev` that presents the stalled bytes, if there are any. -/
structure Answers (t : TlsTransport τ) (vectors : List Bytes)
    (outcome : TransportStatus × ℕ × TlsTransport τ) (w : TlsWrite) : Prop where
  /-- The call is recorded. -/
  writes : outcome.2.2.writes = t.writes ++ [w]
  /-- It was given these vectors. -/
  presented : w.vectors = vectors
  /-- It was not refused. -/
  matched : w.mismatch = false
  /-- What is handed to OpenSSL are the bytes of the call. -/
  data : ∀ data, w.data = some data → data = vectors.flatten
  status : w.status = outcome.1
  accepted : w.acceptedBytes = if outcome.1 = .ok then vectors.flatten.take outcome.2.1 else []
  /-- After a write that blocked, the call is its retry. -/
  retry : (∃ p, t.stalled = some p ∧ p.kind = .writev) → w.isRetry = true
  /-- The copy is kept for the next call. -/
  blocked : outcome.1.isBlocked = true →
    ∃ p, outcome.2.2.stalled = some p ∧ p.kind = .writev ∧ StalledOn p vectors.flatten
  /-- After a write that does not block nothing is stalled. -/
  free : outcome.1.isBlocked = false → ∀ p, outcome.2.2.stalled = some p → p.kind = .none

theorem matches_of_stalledOn {p : StalledWrite} {bytes : Bytes} (h : StalledOn p bytes) :
    matchesStalledWrite p .writev p.scratch.base bytes.length = true := by
  rw [matchesStalledWrite]
  cases hkind : p.kind with
  | none => rfl
  | write => exact absurd hkind h.kind
  | writev => simp [h.length hkind, h.buffer hkind]

theorem submit_answers {t : TlsTransport τ} {vectors : List Bytes} {retry : Bool}
    {pending : StalledWrite} (h : StalledOn pending vectors.flatten)
    (hscratch : pending.scratch.bytes = vectors.flatten)
    (hretry : (∃ p, t.stalled = some p ∧ p.kind = .writev) → retry = true) :
    ∃ w, Answers t vectors (submit ssl t vectors vectors.flatten.length retry pending) w := by
  obtain ⟨hmatched, hpending, -, -⟩ := writeThroughSsl_wrote ssl t.ssl pending.scratch.bytes
    (matches_of_stalledOn h)
  have hdata : pending.scratch.bytes.take vectors.flatten.length = vectors.flatten := by
    rw [hscratch, List.take_length]
  rw [submit]
  generalize writeThroughSsl ssl t.ssl pending .writev pending.scratch.base
    pending.scratch.bytes vectors.flatten.length = outcome at hmatched hpending ⊢
  rw [hmatched, hpending, hdata]
  refine ⟨_, rfl, rfl, rfl, ?_, rfl, rfl, hretry, fun hblocked => ?_, fun hfree p hp => ?_⟩
  · intro data hsome
    exact (Option.some.inj hsome).symm
  · have hblocked' : outcome.status.isBlocked = true := hblocked
    refine ⟨_, rfl, ?_⟩
    rw [recordWriteOutcome, if_pos hblocked']
    exact ⟨rfl, ⟨nofun, fun _ => hscratch, fun _ => rfl, fun _ => rfl⟩⟩
  · have hfree' : ¬ outcome.status.isBlocked = true := by
      rw [Bool.not_eq_true]
      exact hfree
    cases hp
    rw [recordWriteOutcome, if_neg hfree']

/-- Every call that presents the stalled bytes is taken as it is meant. -/
theorem writev_answers {t : TlsTransport τ} {vectors : List Bytes} (hne : vectors.flatten ≠ [])
    (hready : ∀ p, t.stalled = some p → StalledOn p vectors.flatten) :
    ∃ w, Answers t vectors (writev ssl t vectors) w := by
  rw [writev, ← List.length_flatten, if_neg (fun h => hne (List.length_eq_zero_iff.1 h))]
  cases hstalled : stalledWriteFor ssl t with
  | none =>
    -- there is no memory for the state of the session
    have hnone : t.stalled = none := by
      cases h : t.stalled with
      | none => rfl
      | some existing =>
        rw [stalledWriteFor, h] at hstalled
        cases hstalled
    refine ⟨_, rfl, rfl, rfl, nofun, rfl, rfl, ?_, nofun, fun _ p hp => ?_⟩
    · rintro ⟨p, hp, -⟩
      cases hnone.symm.trans hp
    · cases hnone.symm.trans hp
  | some pending =>
    have hpending : StalledOn pending vectors.flatten ∧
        ((∃ p, t.stalled = some p ∧ p.kind = .writev) → pending.kind = .writev) := by
      cases h : t.stalled with
      | none =>
        rw [stalledWriteFor, h] at hstalled
        dsimp only at hstalled
        split_ifs at hstalled
        cases hstalled
        exact ⟨⟨nofun, nofun, nofun, nofun⟩, nofun⟩
      | some existing =>
        rw [stalledWriteFor, h] at hstalled
        cases hstalled
        refine ⟨hready pending h, ?_⟩
        rintro ⟨p, hp, hkind⟩
        cases hp
        exact hkind
    obtain ⟨hon, hkind⟩ := hpending
    dsimp only
    split_ifs with hretry
    · have hwritev : pending.kind = .writev := by
        rw [isRetry, Bool.and_eq_true] at hretry
        exact of_decide_eq_true hretry.1
      exact submit_answers hon (hon.scratch hwritev) fun _ => rfl
    · -- nothing is stalled, so the scratch buffer is filled anew
      have hnot : pending.kind ≠ .writev := by
        intro hwritev
        refine hretry ?_
        simp [isRetry, hwritev, hon.length hwritev]
      have hnone : (∃ p, t.stalled = some p ∧ p.kind = .writev) → False :=
        fun h => hnot (hkind h)
      rcases hcoalesce : coalesceIntoScratch pending.scratch vectors vectors.flatten.length
        (ssl.reserve t.ssl vectors.flatten.length) with ⟨_ | _, scratch⟩
      · refine ⟨_, rfl, rfl, rfl, nofun, rfl, rfl, fun h => (hnone h).elim, nofun, fun _ p hp => ?_⟩
        cases hp
        cases hfree : pending.kind with
        | none => rfl
        | write => exact absurd hfree hon.kind
        | writev => exact absurd hfree hnot
      · refine submit_answers ⟨hon.kind, fun h => absurd h hnot, fun h => absurd h hnot,
          fun h => absurd h hnot⟩ (coalesceIntoScratch_bytes hcoalesce) fun h => (hnone h).elim

variable (ssl) in
/-- `TlsTransport`, with the subject of the certificate of the peer. -/
def transport (subject : Option Bytes) : Transport (TlsTransport τ) where
  handshake := handshake ssl
  read := read ssl
  read_le := by
    intro t capacity
    rw [read]
    split_ifs
    · exact Nat.zero_le _
    rcases hread : ssl.read t.ssl capacity with ⟨error | received, session⟩
    · exact Nat.zero_le _
    · exact ssl.read_le _ _ _ _ hread
  writev := writev ssl
  writev_le := writev_le ssl
  shutdown := shutdown ssl
  isSecure := true
  peerCertificateSubject := subject

/-- Only `writev` writes. -/
structure Keeps (t t' : TlsTransport τ) : Prop where
  stalled : t'.stalled = t.stalled
  writes : t'.writes = t.writes

end TlsTransport

namespace Connection

variable {τ : Type} {ssl : Ssl τ} {subject : Option Bytes} {env : Environment (TlsTransport τ)}
  {c c' : Connection (TlsTransport τ)}

theorem moves_keeps (htls : env.transport = TlsTransport.transport ssl subject)
    {t t' : TlsTransport τ} (h : Moves env TlsTransport.Keeps t t') :
    TlsTransport.Keeps t t' := by
  cases h with
  | same => exact ⟨rfl, rfl⟩
  | handshake =>
    rw [htls]
    show TlsTransport.Keeps t (TlsTransport.handshake ssl t).2
    rw [TlsTransport.handshake]
    split <;> exact ⟨rfl, rfl⟩
  | read capacity =>
    rw [htls]
    show TlsTransport.Keeps t (TlsTransport.read ssl t capacity).2.2
    rw [TlsTransport.read]
    split_ifs
    · exact ⟨rfl, rfl⟩
    · split <;> exact ⟨rfl, rfl⟩
  | shutdown =>
    rw [htls]
    show TlsTransport.Keeps t (TlsTransport.shutdown ssl t).2
    rw [TlsTransport.shutdown]
    split <;> exact ⟨rfl, rfl⟩
  | elsewhere hworld => exact hworld

/-! ### The invariant -/

/-- The call `w'` after `w` is the retry of `w`, if `w` was blocked. -/
def Retries (w w' : TlsWrite) : Prop :=
  w.status.isBlocked = true → w'.vectors.flatten = w.vectors.flatten ∧ w'.isRetry = true

/-- OpenSSL was given the bytes of the vectors. -/
structure Submits (w : TlsWrite) : Prop where
  matched : w.mismatch = false
  /-- OpenSSL was given the bytes of the vectors. -/
  data : ∀ data, w.data = some data → data = w.vectors.flatten

/-- The write that is stalled, if there is one. -/
inductive Stall (c : Connection (TlsTransport τ)) : Prop
  | closing (hstate : c.state = .closing)
  | free (hstalled : ∀ p, c.transport.stalled = some p → p.kind = .none)
      (hlast : ∀ w, c.transport.writes.getLast? = some w → w.status.isBlocked = false)
  | stalled (houtputs : c.outputs) (hunsent : c.unsent ≠ []) (p : StalledWrite) (w : TlsWrite)
      (hp : c.transport.stalled = some p) (hkind : p.kind = .writev)
      (hon : TlsTransport.StalledOn p c.unsent) (hw : c.transport.writes.getLast? = some w)
      (hvectors : w.vectors.flatten = c.unsent)

/-- The writes of a connection so far. -/
structure Disciplined (c : Connection (TlsTransport τ)) : Prop where
  stall : Stall c
  /-- A call after a blocked one presents the same bytes. -/
  retries : c.transport.writes.IsChain Retries
  /-- OpenSSL gets what the call presents. -/
  submits : ∀ w ∈ c.transport.writes, Submits w
  /-- What OpenSSL accepted is what the connection counts as sent. -/
  sent : c.transport.writes.flatMap TlsWrite.acceptedBytes = sentIn c.trace

theorem Stall.of_eq_nil (h : Stall c) (hstate : c.state ≠ .closing)
    (hnot : c.outputs → c.unsent = []) :
    (∀ p, c.transport.stalled = some p → p.kind = .none) ∧
      ∀ w, c.transport.writes.getLast? = some w → w.status.isBlocked = false := by
  cases h with
  | closing h => exact absurd h hstate
  | free hstalled hlast => exact ⟨hstalled, hlast⟩
  | stalled houtputs hunsent _ _ _ _ _ _ _ => exact absurd (hnot houtputs) hunsent

theorem Stall.keeps (hkeeps : TlsTransport.Keeps c.transport c'.transport)
    (hfree : (∀ p, c.transport.stalled = some p → p.kind = .none) ∧
      ∀ w, c.transport.writes.getLast? = some w → w.status.isBlocked = false) : Stall c' := by
  refine .free ?_ ?_
  · rw [hkeeps.stalled]
    exact hfree.1
  · rw [hkeeps.writes]
    exact hfree.2

/-- Whatever is stalled is what the connection sends next. -/
theorem Stall.stalledOn (h : Stall c) (hstate : c.state ≠ .closing) {p : StalledWrite}
    (hp : c.transport.stalled = some p) : TlsTransport.StalledOn p c.unsent := by
  cases h with
  | closing h => exact absurd h hstate
  | free hstalled _ =>
    have hkind := hstalled p hp
    have hnot : p.kind ≠ .writev := by
      rw [hkind]
      decide
    refine ⟨?_, fun h => absurd h hnot, fun h => absurd h hnot, fun h => absurd h hnot⟩
    rw [hkind]
    decide
  | stalled _ _ p' _ hp' _ hon _ _ =>
    rw [hp'] at hp
    cases hp
    exact hon

theorem Disciplined.keeps (h : Disciplined c) (hstall : Stall c')
    (hkeeps : TlsTransport.Keeps c.transport c'.transport)
    (hsent : sentIn c'.trace = sentIn c.trace) : Disciplined c' := by
  refine ⟨hstall, ?_, ?_, ?_⟩
  · rw [hkeeps.writes]
    exact h.retries
  · rw [hkeeps.writes]
    exact h.submits
  · rw [hkeeps.writes, hsent]
    exact h.sent

/-- What a write of the connection is to its transport. -/
theorem Stall.writev (h : Stall c) (htls : env.transport = TlsTransport.transport ssl subject)
    (houtputs : c.outputs) (hunsent : c.unsent ≠ []) {status : TransportStatus} {accepted : ℕ}
    (hwrite : Connection.writev env c = (c', status, accepted)) :
    ∃ w, TlsTransport.Answers c.transport (batchFrom c.writeOffset c.writeVectors)
      (status, accepted, c'.transport) w := by
  have hflatten : (batchFrom c.writeOffset c.writeVectors).flatten = c.unsent :=
    flatten_batchFrom c.writeOffset c.writeVectors
  have hanswers : ∃ w, TlsTransport.Answers c.transport (batchFrom c.writeOffset c.writeVectors)
      (TlsTransport.writev ssl c.transport (batchFrom c.writeOffset c.writeVectors)) w :=
    TlsTransport.writev_answers (hflatten ▸ hunsent)
      fun p hp => hflatten ▸ h.stalledOn (ne_closing houtputs) hp
  simp only [Connection.writev, htls, Prod.mk.injEq] at hwrite
  obtain ⟨rfl, rfl, rfl⟩ := hwrite
  exact hanswers

/-- The log after a write, in a connection that has its transport and trace. -/
theorem Disciplined.log (h : Disciplined c) (houtputs : c.outputs) {c₁ : Connection _}
    {status : TransportStatus} {accepted : ℕ}
    (hwrite : Connection.writev env c = (c₁, status, accepted)) {w : TlsWrite}
    (hw : TlsTransport.Answers c.transport (batchFrom c.writeOffset c.writeVectors)
      (status, accepted, c₁.transport) w) (htrace : c'.trace = c₁.trace)
    (htransport : c'.transport = c₁.transport) (hstall : Stall c') : Disciplined c' := by
  have hflatten : (batchFrom c.writeOffset c.writeVectors).flatten = c.unsent :=
    flatten_batchFrom c.writeOffset c.writeVectors
  have hwrites : c'.transport.writes = c.transport.writes ++ [w] := htransport ▸ hw.writes
  refine ⟨hstall, ?_, ?_, ?_⟩
  · rw [hwrites, List.isChain_append]
    refine ⟨h.retries, List.isChain_singleton _, ?_⟩
    intro last hlast next hnext hblocked
    simp only [List.head?_cons, Option.mem_def, Option.some.injEq] at hnext
    subst hnext
    -- a blocked call left its bytes to be sent next
    cases h.stall with
    | closing hclosing => exact absurd hclosing (ne_closing houtputs)
    | free _ hfree =>
      rw [hfree last hlast] at hblocked
      cases hblocked
    | stalled _ _ p w' hp hkind _ hw' hvectors =>
      have heq : w' = last := Option.some.inj (hw'.symm.trans hlast)
      subst heq
      refine ⟨?_, hw.retry ⟨p, hp, hkind⟩⟩
      rw [hw.presented, hflatten, hvectors]
  · intro x hx
    rw [hwrites, List.mem_append, List.mem_singleton] at hx
    rcases hx with hx | rfl
    · exact h.submits x hx
    · refine ⟨hw.matched, fun data hdata => ?_⟩
      rw [hw.presented]
      exact hw.data data hdata
  · have haccepted : w.acceptedBytes = if status = .ok then
        (batchFrom c.writeOffset c.writeVectors).flatten.take accepted else [] := hw.accepted
    rw [hwrites, List.flatMap_append, h.sent, htrace, trace_writev hwrite, sentIn_append, sentIn_single,
      sends_writev, List.flatMap_singleton, haccepted]

theorem Disciplined.effect (h : Disciplined c)
    (htls : env.transport = TlsTransport.transport ssl subject)
    (heffect : Effect env TlsTransport.Keeps c c') : Disciplined c' := by
  have hquiet : ∀ {c₁ c₂ : Connection (TlsTransport τ)}, Passes env TlsTransport.Keeps c₁ c₂ →
      sentIn c₂.trace = sentIn c₁.trace := by
    intro c₁ c₂ hc
    obtain ⟨events, hquiet, htrace⟩ := hc.trace
    rw [htrace, sentIn_append, hquiet.sentIn_eq, List.append_nil]
  -- nothing is stalled while the connection reads
  have hreads : c.state.isReading = true → (∀ p, c.transport.stalled = some p → p.kind = .none) ∧
      ∀ w, c.transport.writes.getLast? = some w → w.status.isBlocked = false := by
    intro hstate
    refine h.stall.of_eq_nil (fun hclosing => ?_) fun houtputs => ?_
    · rw [hclosing] at hstate
      cases hstate
    · rw [not_isReading houtputs] at hstate
      cases hstate
  cases heffect with
  | reads hstate _ hc =>
    have hkeeps := moves_keeps htls hc.moves
    exact h.keeps (.keeps hkeeps (hreads hstate)) hkeeps (hquiet hc)
  | begins hstate _ _ hc =>
    have hkeeps := moves_keeps htls hc.moves
    exact h.keeps (.keeps hkeeps (hreads hstate)) hkeeps (hquiet hc)
  | stays hstate hvectors hoffset hc =>
    have hkeeps := moves_keeps htls hc.moves
    have hunsent : c'.unsent = c.unsent := by rw [unsent, unsent, hvectors, hoffset]
    refine h.keeps ?_ hkeeps (hquiet hc)
    cases h.stall with
    | closing hclosing => exact .closing (hstate.trans hclosing)
    | free hstalled hlast => exact .keeps hkeeps ⟨hstalled, hlast⟩
    | stalled houtputs hne p w hp hkind hon hw hflatten =>
      refine .stalled ?_ (hunsent ▸ hne) p w ?_ hkind (hunsent ▸ hon) ?_ (hflatten.trans hunsent.symm)
      · rw [outputs, hstate]
        exact houtputs
      · rw [hkeeps.stalled, hp]
      · rw [hkeeps.writes, hw]
  | @writes c₁ status accepted houtputs hunsent hwrite hstate hvectors hoffset htrace htransport =>
    obtain ⟨w, hw⟩ := h.stall.writev htls houtputs hunsent hwrite
    refine h.log houtputs hwrite hw htrace htransport ?_
    have hlast : c'.transport.writes.getLast? = some w := by
      have hwrites : c₁.transport.writes = c.transport.writes ++ [w] := hw.writes
      rw [htransport, hwrites, List.getLast?_concat]
    by_cases hblocked : status.isBlocked = true
    · -- the offset stays, so the bytes left are the ones that were presented
      obtain ⟨p, hp, hkind, hon⟩ := hw.blocked hblocked
      have hsame : c'.unsent = c.unsent := by
        rw [unsent, unsent, hvectors, hoffset, if_neg, Nat.add_zero]
        rintro rfl
        cases hblocked
      rw [flatten_batchFrom] at hon
      refine .stalled ?_ (hsame ▸ hunsent) p w (htransport ▸ hp) hkind (hsame ▸ hon) hlast ?_
      · rw [outputs, hstate]
        exact houtputs
      · rw [hw.presented, flatten_batchFrom, hsame, unsent]
    · refine .free ?_ fun w' hw' => ?_
      · rw [htransport]
        exact hw.free (Bool.eq_false_of_not_eq_true hblocked)
      · have heq : w = w' := Option.some.inj (hlast.symm.trans hw')
        subst heq
        rw [hw.status]
        exact Bool.eq_false_of_not_eq_true hblocked
  | @fails c₁ status accepted houtputs hunsent hwrite _ hstate hc =>
    obtain ⟨w, hw⟩ := h.stall.writev htls houtputs hunsent hwrite
    have hlog : Disciplined { c₁ with state := .closing } :=
      h.log houtputs hwrite hw rfl rfl (.closing rfl)
    have hsent := hquiet hc
    exact hlog.keeps (.closing hstate) (moves_keeps htls hc.moves) hsent
  | turns entry houtputs hunsent hentry htrace hmoves _ =>
    have hkeeps := moves_keeps htls hmoves
    have hfree := h.stall.of_eq_nil (ne_closing houtputs) fun _ => hunsent
    refine h.keeps (.keeps hkeeps hfree) hkeeps ?_
    obtain ⟨events, hevents, htrace⟩ := htrace
    rw [htrace, sentIn_append, sentIn_append, hevents.sentIn_eq, sentIn_single,
      sends_eq_nil_of_turns hentry, List.append_nil, List.append_nil]
  | settles hstate hunsent _ _ htrace htransport =>
    have hkeeps : TlsTransport.Keeps c.transport c'.transport := by
      rw [htransport]
      exact ⟨rfl, rfl⟩
    have hfree := h.stall.of_eq_nil (ne_closing (.inr hstate)) fun _ => hunsent
    exact h.keeps (.keeps hkeeps hfree) hkeeps (by rw [htrace])
  | closes hstate hc =>
    exact h.keeps (.closing hstate) (moves_keeps htls hc.moves) (hquiet hc)

/-! ### Runs -/

theorem Steps.disciplined (htls : env.transport = TlsTransport.transport ssl subject)
    (h : Steps env TlsTransport.Keeps c c') (hc : Disciplined c) : Disciplined c' :=
  h.invariant (fun _ _ haction hx => hx.effect htls (action_effect haction)) hc

/-- **TLS write retries.**  In every run of a connection on a TLS transport, a call of `writev` that
follows a blocked one presents the same bytes and is taken for its retry; no call is taken for a
retry that presents another buffer; `SSL_write_ex` is always given the bytes of the vectors; and
the bytes it accepts are, one after the other, a part of the output of the connection. -/
theorem tls_write_retry_discipline (ssl : Ssl τ) (subject : Option Bytes)
    (env : Environment (TlsTransport τ)) (htls : env.transport = TlsTransport.transport ssl subject)
    (session : τ) (occurrences : List (Occurrence (TlsTransport τ)))
    (hworld : ∀ occurrence ∈ occurrences, occurrence.Within TlsTransport.Keeps) :
    let c := run env (init env { ssl := session }) occurrences
    c.transport.writes.IsChain (fun w w' => w.status.isBlocked = true →
      w'.vectors.flatten = w.vectors.flatten ∧ w'.isRetry = true) ∧
    (∀ w ∈ c.transport.writes, w.mismatch = false ∧
      ∀ data, w.data = some data → data = w.vectors.flatten) ∧
    c.transport.writes.flatMap TlsWrite.acceptedBytes = c.ledger.sent ∧
    ∃ e, Ending env c.ledger e ∧ c.ledger.sent <+: responses env c.ledger.dispatches ++ e := by
  intro c
  have hinit : Disciplined (init env { ssl := session }) :=
    ⟨.free nofun nofun, .nil, nofun, rfl⟩
  have hc : Disciplined c := (run_steps_within env _ hworld).disciplined htls hinit
  refine ⟨hc.retries, fun w hw => ⟨(hc.submits w hw).matched, (hc.submits w hw).data⟩, ?_, ?_⟩
  · rw [ledger_sent]
    exact hc.sent
  · exact (run_inv env _ occurrences).safe.sent

end Connection

/-- A session whose peer has sent some records, and whose next writes are accepted as given. -/
structure ScriptedSession where
  /-- What each read yields. -/
  records : List Bytes
  /-- What each write answers. -/
  writes : List (Except SslError ℕ)

/-- OpenSSL on such a session.  An empty write is an error. -/
def Ssl.scripted : Ssl ScriptedSession where
  accept s := (none, s)
  read s size :=
    match s.records with
    | [] => (.error .wantRead, s)
    | record :: records => (.ok (record.take size), { s with
        records := if record.length ≤ size then records else record.drop size :: records })
  read_le := by
    intro s size bytes s' h
    split at h
    · cases h
    · cases h
      exact List.length_take_le _ _
  write s data :=
    match data, s.writes with
    | [], _ => (.error .other, s)
    | _ :: _, .error error :: writes => (.error error, { s with writes := writes })
    | byte :: rest, .ok count :: writes =>
      (.ok (min count rest.length + 1), { s with writes := writes })
    | byte :: rest, [] => (.ok (rest.length + 1), s)
  write_pos := by
    intro s data count s' h
    split at h
    · cases h
    · cases h
    · cases h
      exact Nat.succ_pos _
    · cases h
      exact Nat.succ_pos _
  write_le := by
    intro s data count s' h
    split at h
    · cases h
    · cases h
    · cases h
      simp
    · cases h
      simp
  shutdown s := (none, s)
  exData _ := true
  reserve _ size := some size

namespace Connection

/-- A blocked write, bytes from the peer, a step that is blocked again, and a partial write. -/
theorem tls_write_retry_discipline_blocked :
    let env : Environment (TlsTransport ScriptedSession) :=
      { transport := TlsTransport.transport .scripted none
        dispatch := fun _ => .returned (.text (ascii "hello"))
        pton := .rejecting
        deflate := fun _ => none
        steadyClock := fun tick => tick + 1
        systemClock := fun _ => 0
        allocate := fun count => count * 1048576 }
    let session : ScriptedSession := ⟨[ascii "GET / HTTP/1.1\r\nHost: a\r\n\r\n"],
      [.error .wantWrite, .error .wantRead, .ok 30, .error .wantWrite]⟩
    let c := run env (init env { ssl := session })
      [.step 9 1, .elsewhere fun t => { t with ssl := { t.ssl with records := [[71, 69]] } },
        .step 9 4, .streamNotified 9, .step 9 1]
    c.transport.writes.map TlsWrite.status = [.wantWrite, .wantRead, .ok, .wantWrite] ∧
      c.transport.writes.map TlsWrite.isRetry = [false, true, true, false] ∧
      c.transport.writes.IsChain (fun w w' => w.status.isBlocked = true →
        w'.vectors.flatten = w.vectors.flatten ∧ w'.isRetry = true) := by
  intro env session c
  have hstatus : c.transport.writes.map TlsWrite.status =
      [.wantWrite, .wantRead, .ok, .wantWrite] := by decide +kernel
  have hretry : c.transport.writes.map TlsWrite.isRetry = [false, true, true, false] := by
    decide +kernel
  refine ⟨hstatus, hretry, ?_⟩
  subst c
  refine (tls_write_retry_discipline .scripted none env rfl session _ ?_).1
  intro occurrence hmem
  simp only [List.mem_cons, List.not_mem_nil, or_false] at hmem
  rcases hmem with rfl | rfl | rfl | rfl | rfl
  · trivial
  · exact fun t => ⟨rfl, rfl⟩
  · trivial
  · trivial
  · trivial

end Connection

end ErikslundHttp
