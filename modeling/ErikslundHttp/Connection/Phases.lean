import ErikslundHttp.Connection.Actions
import ErikslundHttp.Connection.Sequential

/-!
# The phases of a connection

The invariant `Inv` of a connection has one clause for each phase of the state machine.

* `Idle`: between requests everything has been sent.
* `Answering` and `Streams`: while a response is written or streamed, what has been sent and what is
  left to send make up the output.
* `Safe`: a connection that closes has sent a part of it.

Each function that writes has one lemma that says which phase it leads to: a write of any length
moves bytes from one side of the output to the other (`Sends`), so only the end of a response
changes the phase.
-/

namespace ErikslundHttp

/-- The states in which a connection has answered every request it has read. -/
def ConnectionState.isReading : ConnectionState → Bool
  | .handshaking | .readingHeaders | .readingBody => true
  | .writing | .streaming | .closing => false

namespace Connection

variable {σ : Type} {env : Environment σ} {c c' : Connection σ}

/-! ### Phases -/

/-- The read buffer holds the bytes received and not consumed yet. -/
structure Core (env : Environment σ) (c : Connection σ) : Prop where
  /-- The buffer holds what was received and not consumed. -/
  readable : c.readBuffer.readable = c.ledger.received.drop c.ledger.consumed.sum
  consumed_le : c.ledger.consumed.sum ≤ c.ledger.received.length
  /-- The dispatches are those of the sequential server. -/
  served : ServedInOrder env c.ledger.received c.ledger.consumed c.ledger.dispatches

/-- The bytes sent are a part of the output. -/
structure Safe (env : Environment σ) (c : Connection σ) : Prop extends Core env c where
  /-- What was sent is a beginning of what the sequential server sends. -/
  sent : ∃ e, Ending env c.ledger e ∧
    c.ledger.sent <+: responses env c.ledger.dispatches ++ e

/-- A connection that reads: every request was answered, and the parser has seen a part of the
bytes buffered. -/
structure Idle (env : Environment σ) (c : Connection σ) : Prop extends Core env c where
  /-- Every response has been sent completely. -/
  sent : c.ledger.sent = responses env c.ledger.dispatches
  pending : c.pendingResponse = none
  stream : c.stream = none
  /-- Every dispatch has been counted. -/
  count : c.requestsServed = c.ledger.dispatches.length
  /-- The parser has seen a beginning of the buffer, and waits for more. -/
  parser : ∃ b, Waiting env.pton env.options.limits b c.requestParser ∧
    b <+: c.readBuffer.readable

/-- The response being written answers the last request. -/
structure AnswersRequest (env : Environment σ) (c : Connection σ) (earlier : List Dispatch)
    (d : Dispatch) : Prop where
  dispatches : c.ledger.dispatches = earlier ++ [d]
  /-- What is left to send completes the last response. -/
  sent : c.ledger.sent ++ c.unsent = responses env c.ledger.dispatches
  /-- The response of the router to the request. -/
  pending : c.pendingResponse = some (answer env d.request)
  stream : c.stream = (answer env d.request).stream
  request : c.request.map View.bytes = d.request
  /-- The request is counted when its response has been sent. -/
  count : c.requestsServed = earlier.length
  /-- The stream has not begun. -/
  pulls : c.pulls = 0
  /-- The parser is ready for the next request. -/
  parser : c.requestParser = {}

/-- The response being written is the error response `e`. -/
structure AnswersError (env : Environment σ) (c : Connection σ) (e : Bytes) : Prop where
  ending : Ending env c.ledger e
  /-- What is left to send completes the error response. -/
  sent : c.ledger.sent ++ c.unsent = responses env c.ledger.dispatches ++ e
  pending : c.pendingResponse.any Response.isStream = false
  stream : c.stream = none
  /-- The connection closes after it. -/
  keepAlive : c.request.keepAlive = false

/-- A connection that writes a response. -/
structure Answering (env : Environment σ) (c : Connection σ) : Prop extends Core env c where
  response : (∃ earlier d, AnswersRequest env c earlier d) ∨ ∃ e, AnswersError env c e

/-- A connection that streams the answer to the last request `d` from `source`; the source is
released when its last bytes are queued. -/
structure Streams (env : Environment σ) (c : Connection σ) (d : Dispatch)
    (source : StreamSource) : Prop extends Core env c where
  /-- The stream answers the request dispatched last. -/
  last : c.ledger.dispatches.getLast? = some d
  /-- A `HEAD` request gets no stream. -/
  method : d.request.method ≠ .head
  answers : (answer env d.request).stream = some source
  /-- The source is detached when it has finished. -/
  stream : c.stream = none ∨ c.stream = some source
  /-- The bytes that the source gave follow the head. -/
  sent : c.ledger.sent ++ c.unsent =
    responses env c.ledger.dispatches ++ streamOutput source c.pulls

/-- What holds of a connection between two calls. -/
inductive Inv (env : Environment σ) (c : Connection σ) : Prop
  | idle (hstate : c.state.isReading = true) (h : Idle env c)
  | answering (hstate : c.state = .writing) (h : Answering env c)
  | streaming (hstate : c.state = .streaming) (d : Dispatch) (source : StreamSource)
      (h : Streams env c d source)
  | closed (hstate : c.state = .closing) (h : Safe env c)

/-! ### Every phase is safe -/

theorem Idle.safe (h : Idle env c) : Safe env c :=
  ⟨h.toCore, [], .nothing, by rw [h.sent, List.append_nil]⟩

theorem Answering.safe (h : Answering env c) : Safe env c := by
  refine ⟨h.toCore, ?_⟩
  rcases h.response with ⟨earlier, d, hd⟩ | ⟨e, he⟩
  · exact ⟨[], .nothing, by rw [List.append_nil, ← hd.sent]; exact List.prefix_append _ _⟩
  · exact ⟨e, he.ending, ⟨c.unsent, he.sent⟩⟩

theorem Streams.safe {d : Dispatch} {source : StreamSource} (h : Streams env c d source) :
    Safe env c :=
  ⟨h.toCore, streamOutput source c.pulls, .stream d source c.pulls h.last h.method h.answers,
    ⟨c.unsent, h.sent⟩⟩

theorem Inv.safe (h : Inv env c) : Safe env c := by
  cases h with
  | idle _ h => exact h.safe
  | answering _ h => exact h.safe
  | streaming _ d source h => exact h.safe
  | closed _ h => exact h

theorem Inv.toIdle (h : Inv env c) (hreading : c.state.isReading = true) : Idle env c := by
  cases h with
  | idle _ h => exact h
  | answering hstate _ => rw [hstate] at hreading; cases hreading
  | streaming hstate d source _ => rw [hstate] at hreading; cases hreading
  | closed hstate _ => rw [hstate] at hreading; cases hreading

theorem Inv.toAnswering (h : Inv env c) (hwriting : c.state = .writing) : Answering env c := by
  cases h with
  | idle hstate _ => rw [hwriting] at hstate; cases hstate
  | answering _ h => exact h
  | streaming hstate d source _ => rw [hwriting] at hstate; cases hstate
  | closed hstate _ => rw [hwriting] at hstate; cases hstate

theorem Inv.toStreams (h : Inv env c) (hstreaming : c.state = .streaming) :
    ∃ d source, Streams env c d source := by
  cases h with
  | idle hstate _ => rw [hstreaming] at hstate; cases hstate
  | answering hstate _ => rw [hstreaming] at hstate; cases hstate
  | streaming _ d source h => exact ⟨d, source, h⟩
  | closed hstate _ => rw [hstreaming] at hstate; cases hstate

/-! ### Closing -/

theorem ledger_releaseStreamSource (c : Connection σ) :
    c.releaseStreamSource.ledger = c.ledger := by
  rw [releaseStreamSource]
  dsimp only
  split
  · exact ledger_record .detached _
  · rfl

variable (env) in
theorem beginClose_frame (c : Connection σ) : (beginClose env c).ledger = c.ledger ∧
    (beginClose env c).readBuffer = c.readBuffer := by
  obtain ⟨trace, heq⟩ := c.releaseStreamSource_frame
  rw [beginClose]
  split_ifs with h
  · exact ⟨rfl, rfl⟩
  · have hbuffer : c.releaseStreamSource.readBuffer = c.readBuffer := by rw [heq]
    exact ⟨c.ledger_releaseStreamSource, hbuffer⟩

theorem Ending.of_sent {l : Ledger} {e : Bytes} (h : Ending env l e) (sent : Bytes) :
    Ending env { l with sent := sent } e := by
  cases h with
  | nothing => exact .nothing
  | timeout now => exact .timeout now
  | malformed error now hne herror => exact .malformed error now hne herror
  | stream d source calls hlast hmethod hsource =>
    exact .stream d source calls hlast hmethod hsource

theorem Core.of_eq (h : Core env c) (hbuffer : c'.readBuffer.readable = c.readBuffer.readable)
    {sent : Bytes} (hledger : c'.ledger = { c.ledger with sent := sent }) : Core env c' := by
  refine ⟨?_, ?_, ?_⟩
  · rw [hbuffer, hledger]
    exact h.readable
  · rw [hledger]
    exact h.consumed_le
  · rw [hledger]
    exact h.served

theorem Safe.of_eq (h : Safe env c) (hbuffer : c'.readBuffer = c.readBuffer)
    (hledger : c'.ledger = c.ledger) : Safe env c' := by
  refine ⟨h.toCore.of_eq (congrArg Buffer.readable hbuffer) hledger, ?_⟩
  rw [hledger]
  exact h.sent

theorem Safe.beginClose (h : Safe env c) : Inv env (beginClose env c) := by
  obtain ⟨hledger, hbuffer⟩ := beginClose_frame env c
  exact .closed (state_beginClose env c) (h.of_eq hbuffer hledger)

/-! ### Sending -/

/-- `c'` is `c` after the transport accepted the next `count` bytes. -/
structure Sends (c c' : Connection σ) (count : ℕ) : Prop where
  /-- Only the members that a write touches change. -/
  frame : ∃ transport trace deadline ticks waiting, c' = { c with
    transport := transport
    trace := trace
    writeOffset := c.writeOffset + count
    deadline := deadline
    ticks := ticks
    streamWaitingForWriteProgress := waiting }
  /-- The bytes sent come from the front of those left. -/
  ledger : c'.ledger = { c.ledger with sent := c.ledger.sent ++ c.unsent.take count }

namespace Sends

variable {count : ℕ}

theorem unsent_eq (h : Sends c c' count) : c'.unsent = c.unsent.drop count := by
  obtain ⟨_, _, _, _, _, rfl⟩ := h.frame
  simp only [unsent, List.drop_drop]

/-- What was sent and what is left to send stay the same bytes. -/
theorem sent_append_unsent (h : Sends c c' count) :
    c'.ledger.sent ++ c'.unsent = c.ledger.sent ++ c.unsent := by
  rw [h.ledger, h.unsent_eq, List.append_assoc, List.take_append_drop]

theorem core (h : Sends c c' count) (hc : Core env c) : Core env c' := by
  refine hc.of_eq ?_ h.ledger
  obtain ⟨_, _, _, _, _, rfl⟩ := h.frame
  rfl

theorem answering (h : Sends c c' count) (hc : Answering env c) : Answering env c' := by
  refine ⟨h.core hc.toCore, ?_⟩
  have hsent := h.sent_append_unsent
  have hledger := h.ledger
  obtain ⟨_, _, _, _, _, rfl⟩ := h.frame
  rcases hc.response with ⟨earlier, d, hd⟩ | ⟨e, he⟩
  · refine .inl ⟨earlier, d, ?_, ?_, hd.pending, hd.stream, hd.request, hd.count, hd.pulls,
      hd.parser⟩
    · rw [hledger]
      exact hd.dispatches
    · rw [hsent, hd.sent, hledger]
  · refine .inr ⟨e, ?_, ?_, he.pending, he.stream, he.keepAlive⟩
    · rw [hledger]
      exact he.ending.of_sent _
    · rw [hsent, he.sent, hledger]

theorem streams (h : Sends c c' count) {d : Dispatch} {source : StreamSource}
    (hc : Streams env c d source) : Streams env c' d source := by
  have hcore := h.core hc.toCore
  have hsent := h.sent_append_unsent
  have hledger := h.ledger
  obtain ⟨_, _, _, _, _, rfl⟩ := h.frame
  refine ⟨hcore, ?_, hc.method, hc.answers, hc.stream, ?_⟩
  · rw [hledger]
    exact hc.last
  · rw [hsent, hc.sent, hledger]

theorem state_eq (h : Sends c c' count) : c'.state = c.state := by
  obtain ⟨_, _, _, _, _, rfl⟩ := h.frame
  rfl

theorem refl (c : Connection σ) : Sends c c 0 :=
  ⟨⟨c.transport, c.trace, c.deadline, c.ticks, c.streamWaitingForWriteProgress, rfl⟩, by simp⟩

theorem trans {c'' : Connection σ} {count' : ℕ} (h : Sends c c' count)
    (h' : Sends c' c'' count') : Sends c c'' (count + count') := by
  have hledger := h'.ledger
  rw [h.unsent_eq, h.ledger, List.append_assoc, ← List.take_add] at hledger
  obtain ⟨_, _, _, _, _, rfl⟩ := h.frame
  obtain ⟨transport, trace, deadline, ticks, waiting, rfl⟩ := h'.frame
  exact ⟨⟨transport, trace, deadline, ticks, waiting, by rw [Nat.add_assoc]⟩, hledger⟩

end Sends

/-- A call of `writev` sends the bytes it accepts. -/
theorem writev_sends {status : TransportStatus} {accepted : ℕ}
    (h : writev env c = (c', status, accepted)) :
    (status ≠ .ok → Sends c c' 0) ∧ (status = .ok → Sends c (c'.advance accepted) accepted) := by
  simp only [writev, Prod.mk.injEq] at h
  obtain ⟨rfl, hstatus, haccepted⟩ := h
  have hledger := ledger_record (.writev (batchFrom c.writeOffset c.writeVectors) status accepted) c
  rw [hstatus, haccepted]
  refine ⟨fun hne => ⟨⟨_, _, c.deadline, c.ticks, c.streamWaitingForWriteProgress, rfl⟩, ?_⟩,
    fun hok => ⟨⟨_, _, c.deadline, c.ticks, c.streamWaitingForWriteProgress, rfl⟩, ?_⟩⟩
  · refine hledger.trans ?_
    rw [List.take_zero, List.append_nil]
    cases status with
    | ok => exact absurd rfl hne
    | wantRead => rfl
    | wantWrite => rfl
    | closed => rfl
    | error => rfl
  · refine hledger.trans ?_
    rw [hok, unsent, ← flatten_batchFrom]
    rfl

theorem writeLoop_sends {rounds : ℕ} {flow : Flow} (h : writeLoop env rounds c = (c', flow)) :
    ∃ count, Sends c c' count := by
  induction rounds generalizing c with
  | zero =>
    cases h
    exact ⟨0, .refl _⟩
  | succ rounds ih =>
    rw [writeLoop] at h
    split_ifs at h with hbatch
    · cases h
      exact ⟨0, .refl _⟩
    rcases hwrite : writev env c with ⟨c₁, status, accepted⟩
    obtain ⟨hblocked, hok⟩ := writev_sends hwrite
    rw [hwrite] at h
    cases status with
    | wantRead =>
      cases h
      exact ⟨0, hblocked (by decide)⟩
    | wantWrite =>
      cases h
      exact ⟨0, hblocked (by decide)⟩
    | closed =>
      cases h
      exact ⟨0, hblocked (by decide)⟩
    | error =>
      cases h
      exact ⟨0, hblocked (by decide)⟩
    | ok =>
      have hsends := hok rfl
      dsimp only at h
      split_ifs at h with hzero hmore
      · cases h
        subst hzero
        exact ⟨0, hsends⟩
      · obtain ⟨count, hrest⟩ := ih h
        exact ⟨accepted + count, hsends.trans hrest⟩
      · cases h
        exact ⟨accepted, hsends⟩

/-! ### Streaming -/

variable (env) in
theorem Sends.noteWriteProgress {count : ℕ} (h : Sends c c' count) :
    Sends c (noteWriteProgress env c') count := by
  have hledger := h.ledger
  obtain ⟨transport, trace, _, _, _, rfl⟩ := h.frame
  exact ⟨⟨transport, trace, _, _, _, rfl⟩, hledger⟩

variable (env) in
theorem Sends.awaitWriteProgress {count : ℕ} (h : Sends c c' count) :
    Sends c (awaitWriteProgress env c') count := by
  have hledger := h.ledger
  rw [Connection.awaitWriteProgress]
  split_ifs
  · exact h
  · obtain ⟨transport, trace, _, _, _, rfl⟩ := h.frame
    exact ⟨⟨transport, trace, _, _, _, rfl⟩, hledger⟩

theorem Streams.settleWrites {d : Dispatch} {source : StreamSource} (h : Streams env c d source)
    (hempty : c.unsent = []) (pending : ℕ) :
    Streams env (settleWrites env pending c) d source ∧ Settled (settleWrites env pending c) ∧
      (Connection.settleWrites env pending c).state = c.state := by
  have hsent := h.sent
  rw [hempty] at hsent
  rw [Connection.settleWrites]
  split_ifs <;>
    exact ⟨⟨h.toCore.of_eq rfl rfl, h.last, h.method, h.answers, h.stream, hsent⟩,
      ⟨rfl, rfl, rfl⟩, rfl⟩

/-- After a call of `pull`, the bytes it gave are queued, unless it was idle. -/
theorem Streams.pulled {d : Dispatch} {source : StreamSource} (h : Streams env c d source)
    (hempty : c.unsent = []) (hledger : c'.ledger = c.ledger)
    (hbuffer : c'.readBuffer = c.readBuffer) (hstream : c'.stream = none ∨ c'.stream = some source)
    (hpulls : c'.pulls = c.pulls + 1)
    (hunsent : c'.unsent =
      if (source.pull c.pulls).2 = some .idle then [] else (source.pull c.pulls).1) :
    Streams env c' d source := by
  refine ⟨h.toCore.of_eq (congrArg Buffer.readable hbuffer) hledger, ?_, h.method, h.answers,
    hstream, ?_⟩
  · rw [hledger]
    exact h.last
  · have hsent := h.sent
    rw [hempty, List.append_nil] at hsent
    rw [hledger, hpulls, hunsent, streamOutput_succ, ← List.append_assoc, ← hsent]

/-- The vectors of a connection with nothing to send get the bytes that are appended. -/
theorem Settled.unsent_pushWriteBuffer (h : Settled c) (bytes : Bytes) :
    (appendToWriteBuffer env bytes c).pushWriteBuffer.unsent = bytes := by
  simp [unsent, pushWriteBuffer, appendToWriteBuffer, h.vectors, h.offset, h.buffer]

/-- What a call of `pull` gave, and that only an idle call drops it. -/
theorem pull_ledger {source : StreamSource} {scratch : Bytes} {answer : Pull}
    (h : c.pull source = (c', scratch, answer)) : c'.ledger = c.ledger ∧
      (if (source.pull c.pulls).2 = some .idle then [] else (source.pull c.pulls).1) =
        if answer = .idle then [] else scratch := by
  simp only [pull, Prod.mk.injEq] at h
  obtain ⟨rfl, rfl, rfl⟩ := h
  refine ⟨ledger_record _ _, ?_⟩
  rcases (source.pull c.pulls).2 with _ | answer
  · rfl
  · cases answer <;> rfl

theorem Streams.source_eq {d : Dispatch} {source source' : StreamSource}
    (h : Streams env c d source) (hstream : c.stream = some source') : source' = source := by
  rcases h.stream with hnone | hsome
  · rw [hnone] at hstream
    cases hstream
  · exact Option.some.inj (hstream.symm.trans hsome)

/-- A call that gave nothing leaves the stream as it was. -/
theorem Streams.pullNothing {d : Dispatch} {source : StreamSource} (h : Streams env c d source)
    (hsettled : Settled c) {scratch : Bytes} {answer : Pull}
    (hpull : c.pull source = (c', scratch, answer)) (hanswer : answer = .idle ∨ scratch = []) :
    Streams env c' d source := by
  obtain ⟨hledger, hkept⟩ := pull_ledger hpull
  obtain ⟨trace, rfl⟩ := pull_frame hpull
  refine h.pulled hsettled.unsent_eq hledger rfl h.stream rfl
    (hsettled.unsent_eq.trans (Eq.trans ?_ hkept.symm))
  rcases hanswer with rfl | rfl
  · rfl
  · rw [ite_self]

/-- The bytes of a call are there to be written. -/
theorem Streams.pullBytes {d : Dispatch} {source : StreamSource} (h : Streams env c d source)
    (hsettled : Settled c) {scratch : Bytes} {answer : Pull}
    (hpull : c.pull source = (c', scratch, answer)) (hanswer : answer ≠ .idle) :
    Streams env (appendToWriteBuffer env scratch c').pushWriteBuffer d source := by
  obtain ⟨hledger, hkept⟩ := pull_ledger hpull
  obtain ⟨trace, rfl⟩ := pull_frame hpull
  have hsettled' : Settled { c with pulls := c.pulls + 1, trace := trace } :=
    ⟨hsettled.vectors, hsettled.offset, hsettled.buffer⟩
  rw [if_neg hanswer] at hkept
  refine h.pulled hsettled.unsent_eq hledger rfl h.stream rfl ?_
  exact (hsettled'.unsent_pushWriteBuffer scratch).trans hkept.symm

theorem Streams.releaseStreamSource {d : Dispatch} {source : StreamSource}
    (h : Streams env c d source) : Streams env c.releaseStreamSource d source := by
  have hledger := c.ledger_releaseStreamSource
  obtain ⟨trace, heq⟩ := c.releaseStreamSource_frame
  rw [heq] at hledger ⊢
  refine ⟨h.toCore.of_eq rfl hledger, ?_, h.method, h.answers, .inl rfl, ?_⟩
  · rw [hledger]
    exact h.last
  · rw [hledger]
    exact h.sent

/-! ### The end of a response -/

theorem completeResponse_frame (c : Connection σ) :
    c.completeResponse.ledger = c.ledger ∧ ∃ trace, c.completeResponse = { c.clearWrites with
      requestsServed := c.requestsServed + 1
      stream := none
      streamWaitingForWriteProgress := false
      trace := trace
      pendingResponse := none } := by
  obtain ⟨trace, heq⟩ := releaseStreamSource_frame
    { c.record .completed with requestsServed := c.requestsServed + 1 }
  have hledger := ledger_releaseStreamSource
    { c.record .completed with requestsServed := c.requestsServed + 1 }
  refine ⟨hledger.trans (ledger_record .completed c), trace, ?_⟩
  rw [completeResponse, heq]
  rfl

/-- A request that is answered completely leaves the connection ready for the next one. -/
theorem AnswersRequest.idle {earlier : List Dispatch} {d : Dispatch} (hc : Core env c)
    (h : AnswersRequest env c earlier d) (hempty : c.unsent = []) :
    Idle env (awaitRequest env c.completeResponse) := by
  obtain ⟨hledger, trace, heq⟩ := c.completeResponse_frame
  have hbuffer : (awaitRequest env c.completeResponse).readBuffer.readable =
      c.readBuffer.readable := by
    rw [heq]
    exact Buffer.readable_compactAndReclaim _ _ _
  have hledger' : (awaitRequest env c.completeResponse).ledger = c.ledger := hledger
  have hsent := h.sent
  rw [hempty, List.append_nil] at hsent
  refine ⟨hc.of_eq hbuffer hledger', ?_, ?_, ?_, ?_, [], ?_, List.nil_prefix⟩
  · rw [hledger', hsent]
  · rw [heq]
    rfl
  · rw [heq]
    rfl
  · rw [hledger', h.dispatches, heq, List.length_append]
    exact congrArg (· + 1) h.count
  · have hparser : (awaitRequest env c.completeResponse).requestParser = {} := by
      rw [heq]
      exact h.parser
    rw [hparser]
    exact .fresh

/-- The next request follows the answer to a request, not an error response. -/
theorem Answering.nextRequest (h : Answering env c) (hempty : c.unsent = [])
    (hkeep : KeepsAlive env c) : Idle env (awaitRequest env c.completeResponse) := by
  rcases h.response with ⟨earlier, d, hd⟩ | ⟨e, he⟩
  · exact hd.idle h.toCore hempty
  · have hrequest := hkeep.2.1
    rw [he.keepAlive] at hrequest
    cases hrequest

theorem Answering.completeResponse (h : Answering env c) : Safe env c.completeResponse := by
  obtain ⟨hledger, trace, heq⟩ := c.completeResponse_frame
  exact h.safe.of_eq (by rw [heq]; rfl) hledger

theorem ledger_attachStream (c : Connection σ) : c.attachStream.ledger = c.ledger :=
  ledger_record .attached c.clearWrites

theorem Answering.attach {source : StreamSource} (h : Answering env c) (hempty : c.unsent = [])
    (hstream : c.stream = some source) (hmethod : c.request.method ≠ .head) :
    ∃ d, Streams env (enterState env .streaming c.attachStream) d source := by
  have hledger : (enterState env .streaming c.attachStream).ledger = c.ledger :=
    c.ledger_attachStream
  rcases h.response with ⟨earlier, d, hd⟩ | ⟨e, he⟩
  · refine ⟨d, h.toCore.of_eq rfl hledger, ?_, ?_, ?_, .inr hstream, ?_⟩
    · rw [hledger, hd.dispatches, List.getLast?_concat]
    · rw [← hd.request]
      exact hmethod
    · rw [← hd.stream, hstream]
    · -- the head of the response is sent, and nothing was pulled
      have hpulls : (enterState env .streaming c.attachStream).pulls = 0 := hd.pulls
      have hunsent : (enterState env .streaming c.attachStream).unsent = [] := rfl
      rw [hledger, hpulls, hunsent, ← hd.sent, hempty]
      exact (List.append_nil _).symm
  · rw [he.stream] at hstream
    cases hstream

end Connection

end ErikslundHttp
