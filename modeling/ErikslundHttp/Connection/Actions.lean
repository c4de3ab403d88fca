import ErikslundHttp.Connection.Basic
import Mathlib.Logic.Relation

/-!
# What a connection does, one action at a time

The functions of a connection call each other in many ways, but all they do is a sequence of a few
actions: a read, a parse, a write, a change of state.  `Action` lists them, each with what the code
has checked when it takes it.  Every call of the reactor is a sequence of actions
(`occur_occurs`), so a property that every action keeps holds in every state of every run, and its
proof does not look at the control flow again.
-/

namespace ErikslundHttp

namespace Connection

variable {σ : Type}

/-! ### The bytes left to send -/

/-- The bytes that are still to be sent. -/
def unsent (c : Connection σ) : Bytes := c.writeVectors.flatten.drop c.writeOffset

/-- Nothing is left to send, and the vectors are dropped. -/
structure Settled (c : Connection σ) : Prop where
  vectors : c.writeVectors = []
  offset : c.writeOffset = 0
  buffer : c.writeBuffer.readable = []

variable {env : Environment σ} {c c' : Connection σ}

theorem Settled.unsent_eq (h : Settled c) : c.unsent = [] := by
  rw [unsent, h.vectors, List.flatten_nil, List.drop_nil]

theorem flatten_batchFrom (skipped : ℕ) (vectors : List Bytes) :
    (batchFrom skipped vectors).flatten = vectors.flatten.drop skipped := by
  induction vectors generalizing skipped with
  | nil => simp [batchFrom]
  | cons entry entries ih =>
    rw [batchFrom, List.flatten_cons, List.drop_append]
    split_ifs with h
    · rw [ih, List.drop_eq_nil_of_le h, List.nil_append]
    · rw [List.flatten_cons, ih, Nat.sub_eq_zero_of_le (Nat.le_of_not_le h)]

/-- The vectors of a call of `writev` are not empty. -/
theorem ne_nil_of_mem_batchFrom {skipped : ℕ} {vectors : List Bytes} {entry : Bytes}
    (h : entry ∈ batchFrom skipped vectors) : entry ≠ [] := by
  induction vectors generalizing skipped with
  | nil => cases h
  | cons first vectors ih =>
    rw [batchFrom] at h
    split_ifs at h with hskip
    · exact ih h
    · rcases List.mem_cons.1 h with rfl | h
      · rw [ne_eq, List.drop_eq_nil_iff]
        exact hskip
      · exact ih h

theorem pendingBytes_eq (c : Connection σ) : c.pendingBytes = c.writeVectors.flatten.length := by
  rw [pendingBytes, List.length_flatten]

theorem unsent_eq_nil_iff (c : Connection σ) :
    c.unsent = [] ↔ (batchFrom c.writeOffset c.writeVectors).isEmpty = true := by
  rw [unsent, ← flatten_batchFrom, List.isEmpty_iff]
  refine ⟨fun h => ?_, fun h => by rw [h, List.flatten_nil]⟩
  rw [List.flatten_eq_nil_iff] at h
  exact List.eq_nil_iff_forall_not_mem.2 fun entry hentry =>
    ne_nil_of_mem_batchFrom hentry (h entry hentry)

theorem unsent_eq_nil (h : ¬ c.writeOffset < c.pendingBytes) : c.unsent = [] := by
  rw [unsent, List.drop_eq_nil_iff, ← pendingBytes_eq]
  exact Nat.le_of_not_lt h

theorem length_unsent (c : Connection σ) : c.unsent.length = c.pendingBytes - c.writeOffset := by
  rw [unsent, List.length_drop, pendingBytes_eq]

/-! ### Actions -/

/-- The states in which requests are read. -/
def readsRequests (c : Connection σ) : Prop :=
  c.state = .readingHeaders ∨ c.state = .readingBody

/-- The last parse of the bytes buffered asked for more. -/
def ParsedShort (env : Environment σ) (c : Connection σ) : Prop :=
  ∃ c₀, parse env c₀ = (.error .needsMoreData, c)

/-- The response that was sent leaves the connection open. -/
def KeepsAlive (env : Environment σ) (c : Connection σ) : Prop :=
  c.pendingResponse.any Response.isStream = false ∧ c.request.keepAlive = true ∧
    c.requestsServed + 1 < env.options.maxRequestsPerConnection.toNat

/-- One thing a connection does, or that happens at the other side of its transport; `world` says
what can happen there. -/
inductive Action (env : Environment σ) (world : σ → σ → Prop) :
    Connection σ → Connection σ → Prop
  | handshake {c : Connection σ} (hstate : c.state = .handshaking) :
      Action env world c { c with transport := (env.transport.handshake c.transport).2 }
  | handshaken {c : Connection σ} (hstate : c.state = .handshaking) :
      Action env world c (enterState env .readingHeaders
        { c with request := { c.request with isSecure := env.transport.isSecure } })
  -- reading
  | readNothing {c c' : Connection σ} {status : TransportStatus} {bytes : Bytes}
      (hstate : c.readsRequests)
      (hmore : c.readBuffer.isEmpty = true ∧ c.state = .readingHeaders ∨ ParsedShort env c)
      (hread : read env c = (c', status, bytes)) (hnothing : status ≠ .ok ∨ bytes = []) :
      Action env world c c'
  | readHead {c c' : Connection σ} {bytes : Bytes} (hstate : c.state = .readingHeaders)
      (hmore : c.readBuffer.isEmpty = true ∧ c.state = .readingHeaders ∨ ParsedShort env c)
      (hread : read env c = (c', .ok, bytes)) (hbytes : bytes ≠ []) :
      Action env world c (noteFirstBytes env (c'.commit bytes))
  | readBody {c c' : Connection σ} {bytes : Bytes} (hstate : c.state = .readingBody)
      (hmore : ParsedShort env c) (hread : read env c = (c', .ok, bytes)) (hbytes : bytes ≠ []) :
      Action env world c (c'.commit bytes)
  -- parsing
  | parseShort {c c' : Connection σ} (hstate : c.readsRequests)
      (hparse : parse env c = (.error .needsMoreData, c')) : Action env world c c'
  | awaitBody {c : Connection σ} (hstate : c.state = .readingHeaders) (hmore : ParsedShort env c)
      (hbuffer : c.readBuffer.isEmpty = false)
      (hwaiting : c.requestParser.waitingForBody = true) :
      Action env world c (enterState env .readingBody c)
  | serve {c c' : Connection σ} {parsed : ParsedRequest View} (hstate : c.readsRequests)
      (hparse : parse env c = (.ok parsed, c')) : Action env world c (serve env parsed c')
  | reject {c c' : Connection σ} {error : ParseError} (hstate : c.readsRequests)
      (hparse : parse env c = (.error error, c')) (hne : error ≠ .needsMoreData) :
      Action env world c (reject env error.status c')
  | timeOut {c : Connection σ} (hstate : c.readsRequests) (hsaw : c.sawAnyBytes = true) :
      Action env world c (Connection.reject env .requestTimeout c)
  -- writing a response
  | writeNothing {c c' : Connection σ} {status : TransportStatus} {accepted : ℕ}
      (hstate : c.state = .writing) (hunsent : c.unsent ≠ [])
      (hwrite : writev env c = (c', status, accepted)) (hnothing : status ≠ .ok ∨ accepted = 0) :
      Action env world c c'
  | write {c c' : Connection σ} {accepted : ℕ} (hstate : c.state = .writing)
      (hunsent : c.unsent ≠ []) (hwrite : writev env c = (c', .ok, accepted))
      (haccepted : accepted ≠ 0) : Action env world c (c'.advance accepted)
  | nextRequest {c : Connection σ} (hstate : c.state = .writing) (hunsent : c.unsent = [])
      (hkeep : KeepsAlive env c) : Action env world c (awaitRequest env c.completeResponse)
  | lastResponse {c : Connection σ} (hstate : c.state = .writing) (hunsent : c.unsent = [])
      (hclose : ¬ KeepsAlive env c)
      (hstream : c.stream = none ∨ c.pendingResponse.any Response.isStream = false ∨
        c.request.method = .head) :
      Action env world c (beginClose env c.completeResponse)
  | attach {c : Connection σ} (source : StreamSource) (hstate : c.state = .writing)
      (hunsent : c.unsent = []) (hstream : c.stream = some source)
      (hstreaming : c.pendingResponse.any Response.isStream = true)
      (hmethod : c.request.method ≠ .head) (hattached : source.attachThrows = false) :
      Action env world c (enterState env .streaming c.attachStream)
  | attachThrows {c : Connection σ} (source : StreamSource) (hstate : c.state = .writing)
      (hunsent : c.unsent = []) (hstream : c.stream = some source)
      (hstreaming : c.pendingResponse.any Response.isStream = true)
      (hmethod : c.request.method ≠ .head) (hthrows : source.attachThrows = true) :
      Action env world c (beginClose env c.attachStream)
  -- streaming
  | streamNothing {c c' : Connection σ} {status : TransportStatus} {accepted : ℕ}
      (hstate : c.state = .streaming) (hunsent : c.unsent ≠ [])
      (hwrite : writev env c = (c', status, accepted)) (hterminal : status.isTerminal = false)
      (hnothing : status ≠ .ok ∨ accepted = 0) : Action env world c (awaitWriteProgress env c')
  | streamWrite {c c' : Connection σ} {accepted : ℕ} (hstate : c.state = .streaming)
      (hunsent : c.unsent ≠ []) (hwrite : writev env c = (c', .ok, accepted))
      (haccepted : accepted ≠ 0) : Action env world c (noteWriteProgress env (c'.advance accepted))
  | streamFailed {c c' : Connection σ} {status : TransportStatus} {accepted : ℕ}
      (hstate : c.state = .streaming) (hunsent : c.unsent ≠ [])
      (hwrite : writev env c = (c', status, accepted)) (hterminal : status.isTerminal = true) :
      Action env world c (beginClose env c')
  | settle {c : Connection σ} (hstate : c.state = .streaming) (hunsent : c.unsent = []) :
      Action env world c (settleWrites env c.pendingBytes c)
  | pullNothing {c c' : Connection σ} (source : StreamSource) {scratch : Bytes} {answer : Pull}
      (hstate : c.state = .streaming) (hsettled : Settled c) (hstream : c.stream = some source)
      (hpull : c.pull source = (c', scratch, answer))
      (hanswer : answer = .idle ∨ answer = .wrote ∧ scratch = []) : Action env world c c'
  | pullBytes {c c' : Connection σ} (source : StreamSource) {scratch : Bytes}
      (hstate : c.state = .streaming) (hsettled : Settled c) (hstream : c.stream = some source)
      (hpull : c.pull source = (c', scratch, .wrote)) (hscratch : scratch ≠ []) :
      Action env world c (appendToWriteBuffer env scratch c').pushWriteBuffer
  | pullLast {c c' : Connection σ} (source : StreamSource) {scratch : Bytes}
      (hstate : c.state = .streaming) (hsettled : Settled c) (hstream : c.stream = some source)
      (hpull : c.pull source = (c', scratch, .finished)) (hscratch : scratch ≠ []) :
      Action env world c (appendToWriteBuffer env scratch c').pushWriteBuffer.releaseStreamSource
  | pullEnd {c c' : Connection σ} (source : StreamSource)
      (hstate : c.state = .streaming) (hsettled : Settled c) (hstream : c.stream = some source)
      (hpull : c.pull source = (c', [], .finished)) : Action env world c (beginClose env c')
  -- closing
  | close {c : Connection σ} : Action env world c (beginClose env c)
  | discard {c c' : Connection σ} {status : TransportStatus} {bytes : Bytes}
      (hstate : c.state = .closing) (hread : discard env c = (c', status, bytes)) :
      Action env world c c'
  | elsewhere {c : Connection σ} (transport : σ) (hworld : world c.transport transport) :
      Action env world c { c with transport := transport }

/-! ### What actions keep -/

variable {world : σ → σ → Prop}

theorem trace_releaseStreamSource (c : Connection σ) : c.trace <+: c.releaseStreamSource.trace := by
  rw [releaseStreamSource]
  dsimp only
  split
  · exact List.prefix_append _ _
  · exact List.prefix_rfl

variable (env) in
theorem trace_beginClose (c : Connection σ) : c.trace <+: (beginClose env c).trace := by
  rw [beginClose]
  split_ifs
  · exact List.prefix_rfl
  · exact c.trace_releaseStreamSource

theorem trace_completeResponse (c : Connection σ) : c.trace <+: c.completeResponse.trace :=
  (List.prefix_append c.trace [(c.ticks, .completed)]).trans (trace_releaseStreamSource
    { c.record .completed with requestsServed := c.requestsServed + 1 })

theorem trace_read {status : TransportStatus} {bytes : Bytes}
    (h : read env c = (c', status, bytes)) :
    c'.trace = c.trace ++ [(c.ticks, .read c.readBuffer status bytes)] := by
  simp only [read, Prod.mk.injEq] at h
  obtain ⟨rfl, rfl, rfl⟩ := h
  rfl

theorem trace_writev {status : TransportStatus} {accepted : ℕ}
    (h : writev env c = (c', status, accepted)) : c'.trace = c.trace ++
      [(c.ticks, .writev (batchFrom c.writeOffset c.writeVectors) status accepted)] := by
  simp only [writev, Prod.mk.injEq] at h
  obtain ⟨rfl, rfl, rfl⟩ := h
  rfl

theorem trace_pull {source : StreamSource} {scratch : Bytes} {answer : Pull}
    (h : c.pull source = (c', scratch, answer)) : c.trace <+: c'.trace := by
  simp only [pull, Prod.mk.injEq] at h
  obtain ⟨rfl, -, -⟩ := h
  exact List.prefix_append _ _

theorem trace_parse {result : Except ParseError (ParsedRequest View)}
    (h : parse env c = (result, c')) : c'.trace = c.trace := by
  simp only [parse, Prod.mk.injEq] at h
  rw [← h.2]

/-- What happened stays in the trace. -/
theorem action_trace (h : Action env world c c') : c.trace <+: c'.trace := by
  cases h with
  | handshake _ => exact List.prefix_rfl
  | handshaken _ => exact List.prefix_rfl
  | readNothing _ _ hread _ =>
    rw [trace_read hread]
    exact List.prefix_append _ _
  | readHead _ _ hread _ =>
    rw [noteFirstBytes]
    split_ifs
    · exact (trace_read hread).symm ▸ List.prefix_append _ _
    · exact (trace_read hread).symm ▸ List.prefix_append _ _
  | readBody _ _ hread _ => exact (trace_read hread).symm ▸ List.prefix_append _ _
  | parseShort _ hparse =>
    rw [trace_parse hparse]
  | awaitBody _ _ _ _ => exact List.prefix_rfl
  | serve _ hparse =>
    rw [← trace_parse hparse, serve, dispatchAndSerialize]
    split
    · exact List.prefix_append _ _
    · exact (List.prefix_append _ _).trans (List.prefix_append _ _)
  | reject _ hparse _ =>
    rw [← trace_parse hparse]
    exact List.prefix_append _ _
  | timeOut _ _ => exact List.prefix_append _ _
  | writeNothing _ _ hwrite _ =>
    rw [trace_writev hwrite]
    exact List.prefix_append _ _
  | write _ _ hwrite _ => exact (trace_writev hwrite).symm ▸ List.prefix_append _ _
  | nextRequest _ _ _ => exact c.trace_completeResponse
  | lastResponse _ _ _ _ => exact c.trace_completeResponse.trans (trace_beginClose env _)
  | attach _ _ _ _ _ _ _ => exact List.prefix_append _ _
  | attachThrows _ _ _ _ _ _ _ =>
    exact (List.prefix_append _ _).trans (trace_beginClose env c.attachStream)
  | streamNothing _ _ hwrite _ _ =>
    rw [awaitWriteProgress]
    split_ifs
    · exact (trace_writev hwrite).symm ▸ List.prefix_append _ _
    · exact (trace_writev hwrite).symm ▸ List.prefix_append _ _
  | streamWrite _ _ hwrite _ => exact (trace_writev hwrite).symm ▸ List.prefix_append _ _
  | streamFailed _ _ hwrite _ =>
    refine List.IsPrefix.trans ?_ (trace_beginClose env _)
    rw [trace_writev hwrite]
    exact List.prefix_append _ _
  | settle _ _ =>
    rw [settleWrites]
    split_ifs
    · exact List.prefix_rfl
    · exact List.prefix_rfl
  | pullNothing _ _ _ _ hpull _ => exact trace_pull hpull
  | pullBytes _ _ _ _ hpull _ =>
    have hpulled := trace_pull hpull
    exact hpulled
  | pullLast _ _ _ _ hpull _ =>
    have hpulled := trace_pull hpull
    exact hpulled.trans (trace_releaseStreamSource (appendToWriteBuffer env _ _).pushWriteBuffer)
  | pullEnd _ _ _ _ hpull => exact (trace_pull hpull).trans (trace_beginClose env _)
  | close => exact trace_beginClose env c
  | discard _ hread =>
    simp only [Connection.discard, Prod.mk.injEq] at hread
    obtain ⟨rfl, -, -⟩ := hread
    exact List.prefix_append _ _
  | elsewhere _ _ => exact List.prefix_rfl

/-- A sequence of actions. -/
def Steps (env : Environment σ) (world : σ → σ → Prop) : Connection σ → Connection σ → Prop :=
  Relation.ReflTransGen (Action env world)

namespace Steps

theorem refl (c : Connection σ) : Steps env world c c := Relation.ReflTransGen.refl

theorem trans {c'' : Connection σ} (h : Steps env world c c') (h' : Steps env world c' c'') :
    Steps env world c c'' := Relation.ReflTransGen.trans h h'

theorem tail {c'' : Connection σ} (h : Steps env world c c') (h' : Action env world c' c'') :
    Steps env world c c'' := Relation.ReflTransGen.tail h h'

theorem head {c'' : Connection σ} (h : Action env world c c') (h' : Steps env world c' c'') :
    Steps env world c c'' := Relation.ReflTransGen.head h h'

theorem single (h : Action env world c c') : Steps env world c c' := Relation.ReflTransGen.single h

/-- What every action keeps, every sequence of actions keeps. -/
theorem invariant {I : Connection σ → Prop} (hI : ∀ c c', Action env world c c' → I c → I c')
    (h : Steps env world c c') (hc : I c) : I c' := by
  induction h with
  | refl => exact hc
  | tail _ hact ih => exact hI _ _ hact ih

end Steps

/-! ### What the parts of the driver do -/

variable (env) in
theorem state_beginClose (c : Connection σ) : (beginClose env c).state = .closing := by
  rw [beginClose]
  split_ifs with h
  · exact h
  · rfl

variable (env) in
theorem drain_steps (passes : ℕ) (hstate : c.state = .closing) :
    Steps env world c (drain env passes c) ∧ (drain env passes c).state = .closing := by
  induction passes generalizing c with
  | zero => exact ⟨.refl c, hstate⟩
  | succ passes ih =>
    rcases hread : Connection.discard env c with ⟨c₁, status, bytes⟩
    have hact : Action env world c c₁ := .discard hstate hread
    have hstate₁ : c₁.state = .closing := by
      simp only [Connection.discard, Prod.mk.injEq] at hread
      rw [← hread.1]
      exact hstate
    rw [drain, hread]
    dsimp only
    split_ifs
    · exact ⟨.single hact, hstate₁⟩
    · exact ⟨.head hact (ih hstate₁).1, (ih hstate₁).2⟩

variable (env) in
theorem close_steps (c : Connection σ) :
    Steps env world (beginClose env c) (close env c) ∧ (close env c).state = .closing :=
  drain_steps env _ (state_beginClose env c)

theorem read_state {status : TransportStatus} {bytes : Bytes}
    (h : read env c = (c', status, bytes)) : c'.state = c.state := by
  simp only [read, Prod.mk.injEq] at h
  rw [← h.1]
  rfl

/-- One more read blocks, ends the connection, or gives bytes. -/
theorem receive_cases {flow : Flow} (h : receive env c = (c', flow)) :
    (∃ status bytes, read env c = (c', status, bytes) ∧
      (status = .wantRead ∧ flow = .exit .read ∨ status = .wantWrite ∧ flow = .exit .write)) ∨
    (∃ c₁ status bytes, read env c = (c₁, status, bytes) ∧ (status ≠ .ok ∨ bytes = []) ∧
      c' = Connection.close env c₁ ∧ flow = .exit .done) ∨
    (∃ c₁ bytes, read env c = (c₁, .ok, bytes) ∧ bytes ≠ [] ∧ c' = c₁.commit bytes ∧
      flow = .next) := by
  rcases hread : read env c with ⟨c₁, status, bytes⟩
  rw [receive, hread] at h
  cases status with
  | wantRead =>
    cases h
    exact .inl ⟨_, _, rfl, .inl ⟨rfl, rfl⟩⟩
  | wantWrite =>
    cases h
    exact .inl ⟨_, _, rfl, .inr ⟨rfl, rfl⟩⟩
  | closed =>
    cases h
    exact .inr (.inl ⟨c₁, _, _, rfl, .inl (by decide), rfl, rfl⟩)
  | error =>
    cases h
    exact .inr (.inl ⟨c₁, _, _, rfl, .inl (by decide), rfl, rfl⟩)
  | ok =>
    dsimp only at h
    split_ifs at h with hempty
    · cases h
      exact .inr (.inl ⟨c₁, _, _, rfl, .inr (List.isEmpty_iff.1 hempty), rfl, rfl⟩)
    · cases h
      exact .inr (.inr ⟨c₁, bytes, rfl, fun hnil => hempty (List.isEmpty_iff.2 hnil), rfl, rfl⟩)

/-- A read that goes on gives bytes. -/
theorem receive_next (h : receive env c = (c', .next)) :
    ∃ c₁ bytes, read env c = (c₁, .ok, bytes) ∧ bytes ≠ [] ∧ c' = c₁.commit bytes := by
  rcases receive_cases h with ⟨_, _, _, ⟨_, hflow⟩ | ⟨_, hflow⟩⟩ | ⟨_, _, _, _, _, _, hflow⟩ |
    ⟨c₁, bytes, hread, hbytes, rfl, -⟩
  · cases hflow
  · cases hflow
  · cases hflow
  · exact ⟨c₁, bytes, hread, hbytes, rfl⟩

/-- A read that does not give bytes, as actions. -/
theorem receive_exit_steps {flow : Flow} (hstate : c.readsRequests)
    (hmore : c.readBuffer.isEmpty = true ∧ c.state = .readingHeaders ∨ ParsedShort env c)
    (h : receive env c = (c', flow)) (hflow : flow ≠ .next) :
    Steps env world c c' ∧ (c'.state = c.state ∨ c'.state = .closing) := by
  rcases receive_cases h with ⟨status, bytes, hread, hblocked⟩ | ⟨c₁, status, bytes, hread,
    hnothing, rfl, -⟩ | ⟨c₁, bytes, -, -, -, rfl⟩
  · have hstatus : status ≠ .ok := by
      rcases hblocked with ⟨rfl, -⟩ | ⟨rfl, -⟩ <;> decide
    exact ⟨.single (.readNothing hstate hmore hread (.inl hstatus)), .inl (read_state hread)⟩
  · obtain ⟨hclose, hclosing⟩ := close_steps env c₁
    exact ⟨.head (.readNothing hstate hmore hread hnothing) (.head .close hclose), .inr hclosing⟩
  · exact absurd rfl hflow

theorem writev_frame {status : TransportStatus} {accepted : ℕ}
    (h : writev env c = (c', status, accepted)) :
    ∃ transport trace, c' = { c with transport := transport, trace := trace } := by
  simp only [writev, Prod.mk.injEq] at h
  exact ⟨_, _, h.1.symm⟩

theorem writev_same {status : TransportStatus} {accepted : ℕ}
    (h : writev env c = (c', status, accepted)) : c'.state = c.state ∧ c'.unsent = c.unsent ∧
      c'.pendingBytes = c.pendingBytes ∧ c'.stream = c.stream := by
  obtain ⟨transport, trace, rfl⟩ := writev_frame h
  exact ⟨rfl, rfl, rfl, rfl⟩

theorem length_unsent_advance {accepted rounds : ℕ} (hlen : c.unsent.length ≤ rounds + 1)
    (haccepted : accepted ≠ 0) : (c.advance accepted).unsent.length ≤ rounds := by
  have hdrop : (c.advance accepted).unsent = c.unsent.drop accepted := by
    simp only [unsent, advance, List.drop_drop]
  rw [hdrop, List.length_drop]
  omega

/-- The loop of `drive_write` goes on when everything is sent. -/
theorem writeLoop_steps {rounds : ℕ} {flow : Flow} (hstate : c.state = .writing)
    (hrounds : c.unsent.length ≤ rounds) (h : writeLoop env rounds c = (c', flow)) :
    Steps env world c c' ∧ c'.state = .writing ∧ (flow = .next → c'.unsent = []) := by
  induction rounds generalizing c with
  | zero =>
    cases h
    exact ⟨.refl _, hstate, fun _ => List.length_eq_zero_iff.1 (Nat.le_zero.1 hrounds)⟩
  | succ rounds ih =>
    rw [writeLoop] at h
    by_cases hbatch : (batchFrom c.writeOffset c.writeVectors).isEmpty = true
    · rw [if_pos hbatch] at h
      cases h
      exact ⟨.refl _, hstate, fun _ => (unsent_eq_nil_iff _).2 hbatch⟩
    rw [if_neg hbatch] at h
    have hunsent : c.unsent ≠ [] := mt (unsent_eq_nil_iff c).1 hbatch
    rcases hwrite : writev env c with ⟨c₁, status, accepted⟩
    obtain ⟨hstate₁, hunsent₁, -, -⟩ := writev_same hwrite
    rw [hwrite] at h
    -- a call that accepts nothing ends the loop
    have hstop : ∀ interest, (status ≠ .ok ∨ accepted = 0) →
        (c₁, Flow.exit interest) = (c', flow) →
        Steps env world c c' ∧ c'.state = .writing ∧ (flow = .next → c'.unsent = []) := by
      intro interest hnothing heq
      cases heq
      exact ⟨.single (.writeNothing hstate hunsent hwrite hnothing), hstate₁.trans hstate,
        nofun⟩
    cases status with
    | wantRead => exact hstop _ (.inl (by decide)) h
    | wantWrite => exact hstop _ (.inl (by decide)) h
    | closed => exact hstop _ (.inl (by decide)) h
    | error => exact hstop _ (.inl (by decide)) h
    | ok =>
      dsimp only at h
      by_cases hzero : accepted = 0
      · rw [if_pos hzero] at h
        exact hstop _ (.inr hzero) h
      · rw [if_neg hzero] at h
        have hact : Action env world _ _ := .write hstate hunsent hwrite hzero
        split_ifs at h with hmore
        · obtain ⟨hsteps, hend⟩ := ih (c := c₁.advance accepted) (hstate₁.trans hstate)
            (length_unsent_advance (hunsent₁ ▸ hrounds) hzero) h
          exact ⟨.head hact hsteps, hend⟩
        · cases h
          exact ⟨.single hact, hstate₁.trans hstate, fun _ => unsent_eq_nil hmore⟩

/-- A stream that is not called waits for write progress if it has bytes to send, and has dropped
its vectors if it has none. -/
def Rests (c : Connection σ) : Prop :=
  c.state = .streaming → (c.unsent ≠ [] → c.streamWaitingForWriteProgress = true) ∧
    (c.unsent = [] → c.writeVectors = [])

theorem rests_of_state {state : ConnectionState} (h : c.state = state) (hne : state ≠ .streaming) :
    Rests c := fun hstreaming => absurd (h.symm.trans hstreaming) hne

variable (env) in
theorem waiting_awaitWriteProgress (c : Connection σ) :
    (awaitWriteProgress env c).streamWaitingForWriteProgress = true := by
  rw [awaitWriteProgress]
  split_ifs with h
  · exact h
  · rfl

variable (env) in
theorem awaitWriteProgress_same (c : Connection σ) : (awaitWriteProgress env c).state = c.state ∧
    (awaitWriteProgress env c).pendingBytes = c.pendingBytes ∧
    (awaitWriteProgress env c).unsent = c.unsent := by
  rw [awaitWriteProgress]
  split_ifs
  · exact ⟨rfl, rfl, rfl⟩
  · exact ⟨rfl, rfl, rfl⟩

theorem isBlocked_of_ne {status : TransportStatus} (hok : status ≠ .ok)
    (hterminal : status.isTerminal = false) : status.isBlocked = true := by
  cases status with
  | ok => exact absurd rfl hok
  | wantRead => rfl
  | wantWrite => rfl
  | closed => cases hterminal
  | error => cases hterminal

/-- The write loop of a stream goes on when everything is sent; else the stream waits, or the
connection is closed. -/
theorem streamWriteLoop_steps {rounds : ℕ} {flow : Flow} (hstate : c.state = .streaming)
    (hrounds : c.unsent.length ≤ rounds) (h : streamWriteLoop env rounds c = (c', flow)) :
    Steps env world c c' ∧ (c'.state = .closing ∧ flow = .exit .done ∨
      c'.state = .streaming ∧ c'.pendingBytes = c.pendingBytes ∧
        (flow = .next → c'.unsent = []) ∧ (flow ≠ .next → Rests c')) := by
  induction rounds generalizing c with
  | zero =>
    cases h
    exact ⟨.refl _, .inr ⟨hstate, rfl,
      fun _ => List.length_eq_zero_iff.1 (Nat.le_zero.1 hrounds), fun hflow => absurd rfl hflow⟩⟩
  | succ rounds ih =>
    rw [streamWriteLoop] at h
    by_cases hbatch : (batchFrom c.writeOffset c.writeVectors).isEmpty = true
    · rw [if_pos hbatch] at h
      cases h
      exact ⟨.refl _, .inr ⟨hstate, rfl, fun _ => (unsent_eq_nil_iff _).2 hbatch,
        fun hflow => absurd rfl hflow⟩⟩
    rw [if_neg hbatch] at h
    have hunsent : c.unsent ≠ [] := mt (unsent_eq_nil_iff c).1 hbatch
    rcases hwrite : writev env c with ⟨c₁, status, accepted⟩
    obtain ⟨hstate₁, hunsent₁, hpending₁, hstream₁⟩ := writev_same hwrite
    rw [hwrite] at h
    dsimp only at h
    by_cases hterminal : status.isTerminal = true
    · rw [if_pos hterminal] at h
      cases h
      obtain ⟨hclose, hclosing⟩ := close_steps env c₁
      exact ⟨.head (.streamFailed hstate hunsent hwrite hterminal) hclose, .inl ⟨hclosing, rfl⟩⟩
    rw [if_neg hterminal] at h
    have hterminal' : status.isTerminal = false := Bool.eq_false_of_not_eq_true hterminal
    by_cases hblocked : (status.isBlocked || decide (accepted = 0)) = true
    · rw [if_pos hblocked] at h
      have hnothing : status ≠ .ok ∨ accepted = 0 := by
        rcases Bool.or_eq_true_iff.1 hblocked with hb | hz
        · exact .inl fun hok => by rw [hok] at hb; cases hb
        · exact .inr (of_decide_eq_true hz)
      have hact : Action env world _ _ := .streamNothing hstate hunsent hwrite hterminal' hnothing
      obtain ⟨hsame, hpending₂, hunsent₂⟩ := awaitWriteProgress_same env c₁
      have hrests : Rests (awaitWriteProgress env c₁) := fun _ =>
        ⟨fun _ => waiting_awaitWriteProgress env c₁,
          fun hnil => absurd ((hunsent₂.trans hunsent₁).symm.trans hnil) hunsent⟩
      cases h
      exact ⟨.single hact, .inr ⟨hsame.trans (hstate₁.trans hstate), hpending₂.trans hpending₁,
        nofun, fun _ => hrests⟩⟩
    · rw [if_neg hblocked] at h
      have hok : status = .ok := by
        by_contra hne
        exact hblocked (by rw [isBlocked_of_ne hne hterminal', Bool.true_or])
      have hpos : accepted ≠ 0 := fun hz => hblocked (by simp [hz])
      subst hok
      have hact : Action env world _ _ := .streamWrite hstate hunsent hwrite hpos
      split_ifs at h with hmore
      · obtain ⟨hsteps, hend⟩ := ih (c := noteWriteProgress env (c₁.advance accepted))
          (hstate₁.trans hstate) (length_unsent_advance (c := c₁) (hunsent₁ ▸ hrounds) hpos) h
        refine ⟨.head hact hsteps, hend.imp_right fun hrest => ?_⟩
        exact ⟨hrest.1, hrest.2.1.trans hpending₁, hrest.2.2⟩
      · cases h
        exact ⟨.single hact, .inr ⟨hstate₁.trans hstate, hpending₁,
          fun _ => unsent_eq_nil hmore, fun hflow => absurd rfl hflow⟩⟩

variable (env) in
theorem settleWrites_settled (pending : ℕ) (c : Connection σ) :
    Settled (settleWrites env pending c) ∧ (settleWrites env pending c).state = c.state := by
  rw [settleWrites]
  split_ifs
  · exact ⟨⟨rfl, rfl, rfl⟩, rfl⟩
  · exact ⟨⟨rfl, rfl, rfl⟩, rfl⟩

theorem pull_frame {source : StreamSource} {scratch : Bytes} {answer : Pull}
    (h : c.pull source = (c', scratch, answer)) :
    ∃ trace, c' = { c with pulls := c.pulls + 1, trace := trace } := by
  simp only [pull, Prod.mk.injEq] at h
  exact ⟨_, h.1.symm⟩

theorem releaseStreamSource_frame (c : Connection σ) : ∃ trace, c.releaseStreamSource =
    { c with stream := none, streamWaitingForWriteProgress := false, trace := trace } := by
  rw [releaseStreamSource]
  dsimp only
  split
  · exact ⟨_, rfl⟩
  · rename_i hstream
    exact ⟨c.trace, by rw [← hstream]⟩

theorem pull_state {source : StreamSource} {scratch : Bytes} {answer : Pull}
    (h : c.pull source = (c', scratch, answer)) : c'.state = c.state := by
  obtain ⟨trace, rfl⟩ := pull_frame h
  rfl

theorem state_releaseStreamSource (c : Connection σ) : c.releaseStreamSource.state = c.state := by
  obtain ⟨trace, heq⟩ := c.releaseStreamSource_frame
  rw [heq]

/-- A stream that has sent everything gets more bytes, stays idle, or ends with the connection. -/
theorem refill_steps {flow : Flow} (hstate : c.state = .streaming) (hsettled : Settled c)
    (h : refill env c = (c', flow)) :
    Steps env world c c' ∧ (c'.state = .closing ∧ flow = .exit .done ∨
      c'.state = .streaming ∧ (flow ≠ .next → c'.writeVectors = [])) := by
  rw [refill] at h
  cases hstream : c.stream with
  | none =>
    rw [hstream] at h
    cases h
    obtain ⟨hclose, hclosing⟩ := close_steps env c
    exact ⟨.head .close hclose, .inl ⟨hclosing, rfl⟩⟩
  | some source =>
    rw [hstream] at h
    dsimp only at h
    rcases hpull : c.pull source with ⟨c₁, scratch, answer⟩
    obtain ⟨trace, hframe⟩ := pull_frame hpull
    have hstate₁ : c₁.state = .streaming := by rw [hframe]; exact hstate
    have hvectors₁ : c₁.writeVectors = [] := by rw [hframe]; exact hsettled.vectors
    have hbuffer₁ : c₁.writeBuffer.readable = [] := by rw [hframe]; exact hsettled.buffer
    rw [hpull] at h
    cases answer with
    | idle =>
      cases h
      exact ⟨.single (.pullNothing source hstate hsettled hstream hpull (.inl rfl)),
        .inr ⟨hstate₁, fun _ => hvectors₁⟩⟩
    | wrote =>
      dsimp only at h
      by_cases hscratch : scratch = []
      · rw [if_pos (List.isEmpty_iff.2 hscratch)] at h
        cases h
        exact ⟨.single (.pullNothing source hstate hsettled hstream hpull (.inr ⟨rfl, hscratch⟩)),
          .inr ⟨hstate₁, fun _ => hvectors₁⟩⟩
      · rw [if_neg (mt List.isEmpty_iff.1 hscratch)] at h
        cases h
        exact ⟨.single (.pullBytes source hstate hsettled hstream hpull hscratch),
          .inr ⟨hstate₁, fun hflow => absurd rfl hflow⟩⟩
    | finished =>
      dsimp only at h
      by_cases hscratch : scratch = []
      · have hbuffer : c₁.writeBuffer.isEmpty = true := c₁.writeBuffer.isEmpty_iff.2 hbuffer₁
        rw [if_pos (List.isEmpty_iff.2 hscratch), if_pos hbuffer] at h
        cases h
        subst hscratch
        obtain ⟨hclose, hclosing⟩ := close_steps env c₁
        exact ⟨.head (.pullEnd source hstate hsettled hstream hpull) hclose,
          .inl ⟨hclosing, rfl⟩⟩
      · have hbuffer : ¬ (appendToWriteBuffer env scratch c₁).writeBuffer.isEmpty = true := by
          rw [Buffer.isEmpty_iff, appendToWriteBuffer, Buffer.readable_append, hbuffer₁]
          exact hscratch
        rw [if_neg (mt List.isEmpty_iff.1 hscratch), if_neg hbuffer] at h
        cases h
        obtain ⟨trace', heq⟩ :=
          releaseStreamSource_frame (appendToWriteBuffer env scratch c₁).pushWriteBuffer
        refine ⟨.single (.pullLast source hstate hsettled hstream hpull hscratch), .inr ⟨?_, ?_⟩⟩
        · rw [heq]
          exact hstate₁
        · exact fun hflow => absurd rfl hflow

variable (env) in
theorem driveStream_steps (fuel : ℕ) (hstate : c.state = .streaming) :
    Steps env world c (driveStream env fuel c).1 ∧
      ((driveStream env fuel c).1.state = .streaming ∨
        (driveStream env fuel c).1.state = .closing) ∧
      ((driveStream env fuel c).2 ≠ none → Rests (driveStream env fuel c).1) := by
  induction fuel generalizing c with
  | zero => exact ⟨.refl c, .inl hstate, fun hnone => absurd rfl hnone⟩
  | succ fuel ih =>
    rw [driveStream]
    rcases hloop : streamWriteLoop env (c.pendingBytes - c.writeOffset) c with ⟨c₁, flow⟩
    obtain ⟨hsteps, hend⟩ := streamWriteLoop_steps hstate (le_of_eq c.length_unsent) hloop
    cases flow with
    | exit interest =>
      rcases hend with ⟨hclosing, -⟩ | ⟨hstate₁, -, -, hrests⟩
      · exact ⟨hsteps, .inr hclosing, fun _ => rests_of_state hclosing (by decide)⟩
      · exact ⟨hsteps, .inl hstate₁, fun _ => hrests nofun⟩
    | next =>
      obtain ⟨-, hflow⟩ | ⟨hstate₁, hpending, hunsent, -⟩ := hend
      · cases hflow
      · obtain ⟨hsettled, hstate₂⟩ := settleWrites_settled env c.pendingBytes c₁
        have hact : Action env world c₁ (settleWrites env c.pendingBytes c₁) :=
          hpending ▸ Action.settle hstate₁ (hunsent rfl)
        dsimp only
        rcases hrefill : refill env (settleWrites env c.pendingBytes c₁) with ⟨c₂, flow⟩
        obtain ⟨hsteps₂, hend₂⟩ := refill_steps (hstate₂.trans hstate₁) hsettled hrefill
        have hsteps' := (hsteps.tail hact).trans hsteps₂
        rcases hend₂ with ⟨hclosing, rfl⟩ | ⟨hstate₃, hidle⟩
        · exact ⟨hsteps', .inr hclosing, fun _ => rests_of_state hclosing (by decide)⟩
        · cases flow with
          | exit interest =>
            have hvectors := hidle nofun
            have hunsent₃ : c₂.unsent = [] := by
              rw [unsent, hvectors, List.flatten_nil, List.drop_nil]
            exact ⟨hsteps', .inl hstate₃, fun _ _ => ⟨fun hne => absurd hunsent₃ hne,
              fun _ => hvectors⟩⟩
          | next =>
            obtain ⟨hsteps₃, hrest⟩ := ih hstate₃
            exact ⟨hsteps'.trans hsteps₃, hrest⟩

/-! ### What the calls of the reactor do -/

/-- The outcome of a call: actions were taken, and if the call returned, a stream is at rest. -/
structure Drives (env : Environment σ) (world : σ → σ → Prop) (c : Connection σ)
    (driven : Driven σ) : Prop where
  /-- What a part of the driver does is a sequence of actions. -/
  steps : Steps env world c driven.1
  /-- A call that returns leaves a stream at rest. -/
  rests : driven.2 ≠ none → Rests driven.1

theorem Drives.trans {driven : Driven σ} (h : Steps env world c c') (h' : Drives env world c' driven) :
    Drives env world c driven := ⟨h.trans h'.steps, h'.rests⟩

theorem Drives.of_state {driven : Driven σ} (state : ConnectionState) (h : Steps env world c driven.1)
    (hstate : driven.1.state = state) (hne : state ≠ .streaming) : Drives env world c driven :=
  ⟨h, fun _ => rests_of_state hstate hne⟩

variable (env) in
/-- The end of a response decides as its beginning did. -/
theorem finishResponse_eq (c : Connection σ) :
    (KeepsAlive env c → finishResponse env (c.pendingResponse.any Response.isStream) c =
      (awaitRequest env c.completeResponse, some .read)) ∧
    (¬ KeepsAlive env c → finishResponse env (c.pendingResponse.any Response.isStream) c =
      (Connection.close env c.completeResponse, some .done)) := by
  obtain ⟨trace, heq⟩ := releaseStreamSource_frame
    { c.record .completed with requestsServed := c.requestsServed + 1 }
  have hrequest : c.completeResponse.request = c.request := by
    rw [completeResponse, heq]
    rfl
  have hserved : c.completeResponse.requestsServed = c.requestsServed + 1 := by
    rw [completeResponse, heq]
    rfl
  have hkeeps : (!c.pendingResponse.any Response.isStream && c.completeResponse.request.keepAlive &&
      decide (c.completeResponse.requestsServed <
        env.options.maxRequestsPerConnection.toNat)) = true ↔ KeepsAlive env c := by
    rw [hrequest, hserved, KeepsAlive]
    simp [and_assoc]
  exact ⟨fun hkeep => if_pos (hkeeps.2 hkeep), fun hclose => if_neg (mt hkeeps.1 hclose)⟩

theorem finishResponse_drives (hstate : c.state = .writing) (hunsent : c.unsent = [])
    (hstream : c.stream = none ∨ c.pendingResponse.any Response.isStream = false ∨
      c.request.method = .head) :
    Drives env world c (finishResponse env (c.pendingResponse.any Response.isStream) c) := by
  obtain ⟨hnext, hlast⟩ := finishResponse_eq env c
  by_cases hkeep : KeepsAlive env c
  · rw [hnext hkeep]
    have hact : Action env world _ _ := .nextRequest hstate hunsent hkeep
    exact .of_state .readingHeaders (.single hact) rfl (by decide)
  · rw [hlast hkeep]
    obtain ⟨hclose, hclosing⟩ := close_steps env c.completeResponse
    have hact : Action env world _ _ := .lastResponse hstate hunsent hkeep hstream
    exact .of_state .closing (.head hact hclose) hclosing (by decide)

theorem afterWrite_drives (fuel : ℕ) (hstate : c.state = .writing) (hunsent : c.unsent = []) :
    Drives env world c (afterWrite env fuel c) := by
  rw [afterWrite]
  cases hstream : c.stream with
  | none => exact finishResponse_drives hstate hunsent (.inl hstream)
  | some source =>
    dsimp only
    by_cases hattach : (c.pendingResponse.any Response.isStream && c.request.method != .head) = true
    · rw [if_pos hattach]
      obtain ⟨hstreaming, hmethod⟩ := Bool.and_eq_true_iff.1 hattach
      have hmethod' : c.request.method ≠ .head := bne_iff_ne.1 hmethod
      split_ifs with hthrows
      · obtain ⟨hclose, hclosing⟩ := close_steps env c.attachStream
        have hact : Action env world c (beginClose env c.attachStream) :=
          .attachThrows source hstate hunsent hstream hstreaming hmethod' hthrows
        exact .of_state .closing (.head hact hclose) hclosing (by decide)
      · have hact : Action env world c (enterState env .streaming c.attachStream) :=
          .attach source hstate hunsent hstream hstreaming hmethod'
            (Bool.eq_false_of_not_eq_true hthrows)
        obtain ⟨hsteps, -, hrests⟩ := driveStream_steps env fuel
          (show (enterState env .streaming c.attachStream).state = .streaming from rfl)
        exact ⟨.head hact hsteps, hrests⟩
    · rw [if_neg hattach]
      refine finishResponse_drives hstate hunsent (.inr ?_)
      rw [Bool.and_eq_true, not_and_or] at hattach
      exact hattach.imp Bool.eq_false_of_not_eq_true fun h => by simpa using h

variable (env) in
theorem driveWrite_drives (fuel : ℕ) (hstate : c.state = .writing) :
    Drives env world c (driveWrite env fuel c) := by
  rw [driveWrite]
  rcases hloop : writeLoop env (c.pendingBytes - c.writeOffset) c with ⟨c₁, flow⟩
  obtain ⟨hsteps, hstate₁, hunsent⟩ := writeLoop_steps hstate (le_of_eq c.length_unsent) hloop
  cases flow with
  | exit interest => exact .of_state .writing hsteps hstate₁ (by decide)
  | next => exact (afterWrite_drives fuel hstate₁ (hunsent rfl)).trans hsteps

theorem parse_frame {result : Except ParseError (ParsedRequest View)}
    (h : parse env c = (result, c')) : ∃ requestParser,
      c' = { c with requestParser := requestParser, ticks := c.ticks + 1 } := by
  simp only [parse, Prod.mk.injEq] at h
  exact ⟨_, h.2.symm⟩

theorem parse_state {result : Except ParseError (ParsedRequest View)}
    (h : parse env c = (result, c')) : c'.state = c.state := by
  obtain ⟨_, rfl⟩ := parse_frame h
  rfl

variable (env) in
theorem state_noteFirstBytes (c : Connection σ) : (noteFirstBytes env c).state = c.state := by
  rw [noteFirstBytes]
  split_ifs <;> rfl

variable (env) in
theorem driveReadBody_drives (fuel : ℕ) (hstate : c.state = .readingBody) :
    Drives env world c (driveReadBody env fuel c) := by
  induction fuel generalizing c with
  | zero => exact .of_state .readingBody (.refl c) hstate (by decide)
  | succ fuel ih =>
    rw [driveReadBody]
    rcases hparse : parse env c with ⟨result, c₁⟩
    have hstate₁ : c₁.state = .readingBody := (parse_state hparse).trans hstate
    cases result with
    | ok parsed =>
      exact (driveWrite_drives env fuel rfl).trans (.single (.serve (.inr hstate) hparse))
    | error error =>
      dsimp only
      split_ifs with hne
      · exact (driveWrite_drives env fuel rfl).trans (.single (.reject (.inr hstate) hparse hne))
      · rw [not_not] at hne
        subst hne
        have hact : Action env world c c₁ := .parseShort (.inr hstate) hparse
        rcases hreceive : receive env c₁ with ⟨c₂, flow⟩
        cases flow with
        | exit interest =>
          obtain ⟨hsteps, hend⟩ := receive_exit_steps (.inr hstate₁) (.inr ⟨c, hparse⟩) hreceive
            nofun
          refine ⟨.head hact hsteps, fun _ => ?_⟩
          rcases hend with hend | hend
          · exact rests_of_state (hend.trans hstate₁) (by decide)
          · exact rests_of_state hend (by decide)
        | next =>
          obtain ⟨c₃, bytes, hread, hbytes, rfl⟩ := receive_next hreceive
          have hread' : Action env world c₁ (c₃.commit bytes) :=
            .readBody hstate₁ ⟨c, hparse⟩ hread hbytes
          exact (ih (c := c₃.commit bytes) ((read_state hread).trans hstate₁)).trans
            (.head hact (.single hread'))

/-- The state in which the inner loop of `drive_read_headers` leaves the connection. -/
def Reading.Leaves (c : Connection σ) : Reading → Prop
  | .answered => c.state = .writing
  | .bodyPending => c.state = .readingBody
  | .exit _ => c.state = .readingHeaders ∨ c.state = .closing
  | .unfinished => c.state = .readingHeaders

/-- One more read, and around again. -/
def readMore (env : Environment σ) (fuel : ℕ) (c : Connection σ) : Connection σ × Reading :=
  match receive env c with
  | (c, .exit interest) => (c, .exit interest)
  | (c, .next) => readRequest env fuel (noteFirstBytes env c)

theorem readRequest_succ (env : Environment σ) (fuel : ℕ) (c : Connection σ) :
    readRequest env (fuel + 1) c =
      if c.readBuffer.isEmpty then readMore env fuel c
      else
        match parse env c with
        | (.ok parsed, c) => (serve env parsed c, .answered)
        | (.error error, c) =>
          if error ≠ .needsMoreData then (reject env error.status c, .answered)
          else if c.requestParser.waitingForBody then (enterState env .readingBody c, .bodyPending)
          else readMore env fuel c :=
  rfl

theorem readRequest_steps (fuel : ℕ) (hstate : c.state = .readingHeaders) {outcome : Reading}
    (h : readRequest env fuel c = (c', outcome)) : Steps env world c c' ∧ outcome.Leaves c' := by
  induction fuel generalizing c with
  | zero =>
    cases h
    exact ⟨.refl _, hstate⟩
  | succ fuel ih =>
    rw [readRequest_succ] at h
    -- the read that follows when the bytes are not enough
    have hmore : ∀ {c₁ : Connection σ}, c₁.state = .readingHeaders →
        (c₁.readBuffer.isEmpty = true ∧ c₁.state = .readingHeaders ∨ ParsedShort env c₁) →
        readMore env fuel c₁ = (c', outcome) → Steps env world c₁ c' ∧ outcome.Leaves c' := by
      intro c₁ hstate₁ hshort hread
      rw [readMore] at hread
      rcases hreceive : receive env c₁ with ⟨c₂, flow⟩
      rw [hreceive] at hread
      cases flow with
      | exit interest =>
        obtain ⟨hsteps, hend⟩ := receive_exit_steps (.inl hstate₁) hshort hreceive nofun
        cases hread
        exact ⟨hsteps, hend.imp_left (·.trans hstate₁)⟩
      | next =>
        obtain ⟨c₃, bytes, hread', hbytes, rfl⟩ := receive_next hreceive
        have hact : Action env world _ _ := .readHead hstate₁ hshort hread' hbytes
        have hstate₃ : (noteFirstBytes env (c₃.commit bytes)).state = .readingHeaders := by
          rw [state_noteFirstBytes]
          exact (read_state hread').trans hstate₁
        obtain ⟨hsteps, hleaves⟩ := ih hstate₃ hread
        exact ⟨.head hact hsteps, hleaves⟩
    split_ifs at h with hempty
    · exact hmore hstate (.inl ⟨hempty, hstate⟩) h
    · rcases hparse : parse env c with ⟨result, c₁⟩
      have hstate₁ : c₁.state = .readingHeaders := (parse_state hparse).trans hstate
      rw [hparse] at h
      cases result with
      | ok parsed =>
        cases h
        exact ⟨.single (.serve (.inl hstate) hparse), rfl⟩
      | error error =>
        dsimp only at h
        by_cases hne : error ≠ .needsMoreData
        · rw [if_pos hne] at h
          cases h
          exact ⟨.single (.reject (.inl hstate) hparse hne), rfl⟩
        · rw [if_neg hne] at h
          rw [not_not] at hne
          subst hne
          have hact : Action env world c c₁ := .parseShort (.inl hstate) hparse
          split_ifs at h with hbody
          · cases h
            have hbuffer : c₁.readBuffer.isEmpty = false := by
              obtain ⟨_, rfl⟩ := parse_frame hparse
              exact Bool.eq_false_of_not_eq_true hempty
            exact ⟨.head hact (.single (.awaitBody hstate₁ ⟨c, hparse⟩ hbuffer hbody)), rfl⟩
          · obtain ⟨hsteps, hleaves⟩ := hmore hstate₁ (.inr ⟨c, hparse⟩) h
            exact ⟨.head hact hsteps, hleaves⟩

theorem readPasses_drives (fuel passes : ℕ) (hstate : c.state = .readingHeaders) :
    Drives env world c (readPasses env fuel passes c) := by
  induction passes generalizing c with
  | zero => exact .of_state .readingHeaders (.refl c) hstate (by decide)
  | succ passes ih =>
    have hgoOn : ∀ {c₁ : Connection σ} {driven : Driven σ}, Drives env world c₁ driven →
        Drives env world c₁ (if driven.1.state ≠ .readingHeaders then driven
          else readPasses env fuel passes driven.1) := by
      intro c₁ driven hdriven
      split_ifs with hreading
      · exact hdriven
      · exact (ih (not_not.1 hreading)).trans hdriven.steps
    rw [readPasses]
    rcases hread : readRequest env fuel c with ⟨c₁, outcome⟩
    obtain ⟨hsteps, hleaves⟩ := readRequest_steps fuel hstate hread
    cases outcome with
    | answered => exact (hgoOn (driveWrite_drives env fuel hleaves)).trans hsteps
    | bodyPending => exact (hgoOn (driveReadBody_drives env fuel hleaves)).trans hsteps
    | exit interest =>
      rcases hleaves with hleaves | hleaves
      · exact .of_state .readingHeaders hsteps hleaves (by decide)
      · exact .of_state .closing hsteps hleaves (by decide)
    | unfinished => exact .of_state .readingHeaders hsteps hleaves (by decide)

theorem driveHandshake_drives (fuel : ℕ) (hstate : c.state = .handshaking) :
    Drives env world c (driveHandshake env fuel c) := by
  have hact : Action env world c { c with transport := (env.transport.handshake c.transport).2 } :=
    .handshake hstate
  rw [driveHandshake]
  rcases hshake : env.transport.handshake c.transport with ⟨status, transport⟩
  rw [hshake] at hact
  have hblocked : ∀ interest, Drives env world c ({ c with transport := transport }, interest) :=
    fun interest => .of_state .handshaking (.single hact) hstate (by decide)
  cases status with
  | ok => exact (readPasses_drives fuel _ rfl).trans (.head hact (.single (.handshaken hstate)))
  | wantRead => exact hblocked _
  | wantWrite => exact hblocked _
  | closed => exact hblocked _
  | error => exact hblocked _

/-- The outcome of a call on a connection whose stream may be at rest already. -/
structure Occurs (env : Environment σ) (world : σ → σ → Prop) (c : Connection σ)
    (driven : Driven σ) : Prop where
  steps : Steps env world c driven.1
  /-- A stream at rest is left at rest. -/
  rests : Rests c → driven.2 ≠ none → Rests driven.1

theorem Drives.occurs {driven : Driven σ} (h : Drives env world c driven) :
    Occurs env world c driven :=
  ⟨h.steps, fun _ => h.rests⟩

theorem Occurs.refl (interest : Option EpollInterest) : Occurs env world c (c, interest) :=
  ⟨.refl c, fun h _ => h⟩

theorem step_occurs (fuel : ℕ) (epollEvents : UInt32) :
    Occurs env world c (step env fuel epollEvents c) := by
  rw [step]
  split_ifs
  · exact .refl _
  · cases hstate : c.state with
    | handshaking => exact (driveHandshake_drives fuel hstate).occurs
    | readingHeaders => exact (readPasses_drives fuel _ hstate).occurs
    | readingBody =>
      have hbody : Drives env world c _ := driveReadBody_drives env fuel hstate
      dsimp only
      split_ifs with hagain
      · exact ((readPasses_drives fuel _ hagain.1).trans hbody.steps).occurs
      · exact hbody.occurs
    | writing =>
      have hwrite : Drives env world c _ := driveWrite_drives env fuel hstate
      dsimp only
      split_ifs with hagain
      · exact ((readPasses_drives fuel _ hagain).trans hwrite.steps).occurs
      · exact hwrite.occurs
    | streaming =>
      obtain ⟨hsteps, -, hrests⟩ := driveStream_steps env fuel hstate
      exact ⟨hsteps, fun _ => hrests⟩
    | closing =>
      obtain ⟨hsteps, hclosing⟩ := drain_steps env kCloseDrainPasses hstate
      exact (Drives.of_state .closing hsteps hclosing (by decide)).occurs

theorem onDeadlineExpired_drives (fuel : ℕ) : Drives env world c (onDeadlineExpired env fuel c) := by
  have hclose : Drives env world c (Connection.close env c, some .done) := by
    obtain ⟨hsteps, hclosing⟩ := close_steps env c
    exact .of_state .closing (.head .close hsteps) hclosing (by decide)
  -- a connection that reads answers the timeout, unless the peer has sent nothing
  have hreading : c.readsRequests → Drives env world c
      (if !c.sawAnyBytes then (Connection.close env c, some .done)
        else driveWrite env fuel (reject env .requestTimeout c)) := by
    intro hstate
    split_ifs with hsaw
    · exact hclose
    · exact (driveWrite_drives env fuel rfl).trans (.single (.timeOut hstate (by simpa using hsaw)))
  rw [onDeadlineExpired]
  cases hstate : c.state with
  | readingHeaders => exact hreading (.inl hstate)
  | readingBody => exact hreading (.inr hstate)
  | handshaking => exact hclose
  | writing => exact hclose
  | streaming => exact hclose
  | closing => exact hclose

theorem onStreamNotified_occurs (fuel : ℕ) : Occurs env world c (onStreamNotified env fuel c) := by
  rw [onStreamNotified]
  split_ifs with hstate
  · exact .refl _
  · exact .refl _
  · obtain ⟨hsteps, -, hrests⟩ := driveStream_steps env fuel (not_not.1 hstate)
    exact ⟨hsteps, fun _ => hrests⟩

/-- What an occurrence does at the other side of the transport can happen in `world`. -/
def Occurrence.Within (world : σ → σ → Prop) : Occurrence σ → Prop
  | .elsewhere change => ∀ transport, world transport (change transport)
  | .step _ _ | .deadlineExpired _ | .streamNotified _ => True

/-- A world in which anything can happen. -/
def anything : σ → σ → Prop := fun _ _ => True

variable (env) in
theorem occur_occurs (c : Connection σ) {occurrence : Occurrence σ}
    (hwithin : occurrence.Within world) : Occurs env world c (occur env c occurrence) := by
  cases occurrence with
  | step fuel epollEvents => exact step_occurs fuel epollEvents
  | deadlineExpired fuel => exact (onDeadlineExpired_drives fuel).occurs
  | streamNotified fuel => exact onStreamNotified_occurs fuel
  | elsewhere change =>
    exact ⟨.single (.elsewhere _ (hwithin _)), fun _ hnone => absurd rfl hnone⟩

theorem within_anything (occurrence : Occurrence σ) : occurrence.Within anything := by
  cases occurrence <;> first | exact trivial | exact fun _ => trivial

/-! ### Runs -/

/-- The connections between two calls: every call of the run has returned. -/
inductive Reachable (env : Environment σ) (transport : σ) : Connection σ → Prop
  | init : Reachable env transport (init env transport)
  | call {c c' : Connection σ} (h : Reachable env transport c) (occurrence : Occurrence σ)
      {interest : EpollInterest} (hcall : occur env c occurrence = (c', some interest)) :
      Reachable env transport c'
  | elsewhere {c : Connection σ} (h : Reachable env transport c) (change : σ → σ) :
      Reachable env transport { c with transport := change c.transport }

/-- A call that returned, in a run. -/
theorem Reachable.next {transport : σ} (h : Reachable env transport c) (occurrence : Occurrence σ)
    {interest : EpollInterest} (hcall : (occur env c occurrence).2 = some interest) :
    Reachable env transport (occur env c occurrence).1 := h.call occurrence (Prod.ext rfl hcall)

theorem Reachable.steps {transport : σ} (h : Reachable env transport c) :
    Steps env anything (Connection.init env transport) c := by
  induction h with
  | init => exact .refl _
  | @call c₀ _ _ occurrence _ hcall ih =>
    have hoccurs := (occur_occurs env c₀ (within_anything occurrence)).steps
    rw [hcall] at hoccurs
    exact ih.trans hoccurs
  | elsewhere _ change ih => exact ih.tail (.elsewhere _ trivial)

theorem Reachable.rests {transport : σ} (h : Reachable env transport c) : Rests c := by
  induction h with
  | init =>
    have hstate : (Connection.init env transport).state = .handshaking := rfl
    exact rests_of_state hstate (by decide)
  | @call c₀ _ _ occurrence _ hcall ih =>
    have hoccurs := (occur_occurs env c₀ (within_anything occurrence)).rests ih
    rw [hcall] at hoccurs
    exact hoccurs nofun
  | elsewhere _ change ih => exact ih

variable (env) in
theorem run_steps_within (c : Connection σ) {occurrences : List (Occurrence σ)}
    (hwithin : ∀ occurrence ∈ occurrences, occurrence.Within world) :
    Steps env world c (run env c occurrences) := by
  induction occurrences using List.reverseRecOn with
  | nil => exact .refl c
  | append_singleton occurrences occurrence ih =>
    have hsteps := ih fun o ho => hwithin o (List.mem_append_left _ ho)
    rw [run, List.foldl_append]
    exact hsteps.trans (occur_occurs env _ (hwithin occurrence (by simp))).steps

variable (env) in
theorem run_steps (c : Connection σ) (occurrences : List (Occurrence σ)) :
    Steps env anything c (run env c occurrences) :=
  run_steps_within env c fun occurrence _ => within_anything occurrence

end Connection

end ErikslundHttp
