import ErikslundHttp.Connection.Phases

/-!
# A connection is a sequential server

Over every run, whatever its transport does, a connection dispatches the requests that
`parse_request` finds one after the other in the bytes received, and the transport accepts a part
from the front of the answers to them, in order.

* `parse_idle`: the resumed parser of an idle connection says what `parse_request` says.
* `action_inv`: reading leads from an idle connection to a response or stays idle, and each action
  on a response leaves it or ends it; so every action keeps the invariant.
* `connection_refines_sequential_server`: every run does.
-/

namespace ErikslundHttp

namespace Connection

variable {σ : Type} {env : Environment σ} {world : σ → σ → Prop} {c c' : Connection σ}

/-! ### Reading -/

/-- Bytes that arrive keep a connection idle. -/
theorem Idle.extend (h : Idle env c) (bytes : Bytes)
    (hbuffer : c'.readBuffer.readable = c.readBuffer.readable ++ bytes)
    (hledger : c'.ledger = { c.ledger with received := c.ledger.received ++ bytes })
    (hpending : c'.pendingResponse = c.pendingResponse) (hstream : c'.stream = c.stream)
    (hcount : c'.requestsServed = c.requestsServed) (hparser : c'.requestParser = c.requestParser) :
    Idle env c' := by
  obtain ⟨b, hwaiting, hb⟩ := h.parser
  refine ⟨⟨?_, ?_, ?_⟩, ?_, hpending.trans h.pending, hstream.trans h.stream, ?_, b, ?_, ?_⟩
  · rw [hbuffer, hledger, h.readable]
    exact (List.drop_append_of_le_length h.consumed_le).symm
  · rw [hledger]
    exact h.consumed_le.trans (by simp)
  · rw [hledger]
    exact h.served.append bytes
  · rw [hledger]
    exact h.sent
  · rw [hledger, hcount]
    exact h.count
  · rw [hparser]
    exact hwaiting
  · rw [hbuffer]
    exact hb.trans (List.prefix_append _ _)

theorem Idle.of_eq (h : Idle env c) (hbuffer : c'.readBuffer.readable = c.readBuffer.readable)
    (hledger : c'.ledger = c.ledger) (hpending : c'.pendingResponse = c.pendingResponse)
    (hstream : c'.stream = c.stream) (hcount : c'.requestsServed = c.requestsServed)
    (hparser : c'.requestParser = c.requestParser) : Idle env c' :=
  h.extend [] (by rw [hbuffer, List.append_nil])
    (by rw [hledger, List.append_nil]) hpending hstream hcount hparser

theorem read_idle (h : Idle env c) {status : TransportStatus} {bytes : Bytes}
    (hr : read env c = (c', status, bytes)) :
    (status ≠ .ok ∨ bytes = [] → Idle env c') ∧ (status = .ok → Idle env (c'.commit bytes)) ∧
      c'.state = c.state := by
  simp only [read, Prod.mk.injEq] at hr
  obtain ⟨rfl, hstatus, hbytes⟩ := hr
  have hledger := ledger_record (.read c.readBuffer status bytes) c
  rw [hstatus, hbytes]
  refine ⟨fun hnothing => ?_, fun hok => ?_, rfl⟩
  · refine h.of_eq (Buffer.readable_writableTail _ _ _) (hledger.trans ?_) rfl rfl rfl rfl
    cases status with
    | ok => rw [hnothing.resolve_left (by decide), Ledger.post, List.append_nil]
    | wantRead => rfl
    | wantWrite => rfl
    | closed => rfl
    | error => rfl
  · refine h.extend bytes ?_ (hledger.trans (by rw [hok]; rfl)) rfl rfl rfl rfl
    exact (Buffer.readable_commit _ _).trans (by rw [Buffer.readable_writableTail])

theorem noteFirstBytes_idle (h : Idle env c) :
    Idle env (noteFirstBytes env c) ∧ (noteFirstBytes env c).state = c.state := by
  rw [noteFirstBytes]
  split_ifs
  · exact ⟨h, rfl⟩
  · exact ⟨h.of_eq rfl rfl rfl rfl rfl rfl, rfl⟩

/-- A parse of an idle connection says what `parse_request` says of the bytes buffered. -/
theorem parse_idle (h : Idle env c) {result : Except ParseError (ParsedRequest View)}
    (hp : parse env c = (result, c')) :
    Idle env c' ∧ c'.state = c.state ∧
      parseBytes env.pton env.options.limits c'.readBuffer.readable =
        result.map ParsedRequest.content ∧
      ∀ parsed, result = .ok parsed → c'.requestParser = {} := by
  obtain ⟨b, hwaiting, hb⟩ := h.parser
  simp only [parse, Prod.mk.injEq] at hp
  obtain ⟨hresult, rfl⟩ := hp
  let call : Presentation := ⟨env.steadyClock c.ticks, c.readBuffer.base + c.readBuffer.readCursor,
    c.readBuffer.readable⟩
  have hsame := hwaiting.parse_map_content (c := call) hb
  refine ⟨⟨⟨h.readable, h.consumed_le, h.served⟩, h.sent, h.pending, h.stream, h.count,
    c.readBuffer.readable, ?_, List.prefix_refl _⟩, rfl, ?_, fun parsed hok => ?_⟩
  · exact Waiting.parse hwaiting (c := call) hb
  · rw [← hresult]
    exact hsame.symm
  · exact hwaiting.parse_ok (c := call) hb (Prod.ext (hresult.trans hok) rfl)

/-! ### Answers -/

/-- The vectors hold the encoded response. -/
theorem flatten_vectors (encoded : EncodedResponse) :
    (encoded.head :: if !encoded.suppressBody && !encoded.body.isEmpty then [encoded.body]
      else []).flatten = encoded.wire := by
  rw [EncodedResponse.wire, EncodedResponse.wireBody]
  cases encoded.suppressBody with
  | true => simp
  | false =>
    cases hbody : encoded.body with
    | nil => simp
    | cons byte bytes => simp

variable (env) in
theorem unsent_serialize (response : Response) (c : Connection σ) :
    (serialize env response c).unsent = (encodeResponse env.deflate (env.systemClock c.ticks)
      (c.request.map View.bytes) response (encodingOptions env
        (!response.isStream && c.request.keepAlive &&
          decide (c.requestsServed + 1 < env.options.maxRequestsPerConnection.toNat)))).wire := by
  rw [unsent, serialize, List.drop_zero, Buffer.readable_append, Buffer.readable_clear,
    List.nil_append]
  exact flatten_vectors _

theorem attach_map (request : Request View) (receivedAt : TimePoint) :
    (attach env request receivedAt).map View.bytes =
      attach env (request.map View.bytes) receivedAt := by
  rw [attach, attach]
  split <;> rfl

theorem attach_receivedAt {α : Type} (request : Request α) (receivedAt : TimePoint) :
    (attach env request receivedAt).receivedAt = receivedAt := by
  rw [attach]
  split <;> rfl

/-- The time of a parse is replaced when the request is adopted. -/
theorem attach_content (parsed : ParsedRequest View) (receivedAt : TimePoint) :
    attach env parsed.content.request receivedAt =
      (attach env parsed.request receivedAt).map View.bytes := by
  rw [attach_map]
  rfl

/-- What `serve` dispatches. -/
def dispatchOf (env : Environment σ) (parsed : ParsedRequest View) (c : Connection σ) : Dispatch :=
  ⟨(attach env parsed.request (env.steadyClock c.ticks)).map View.bytes,
    env.systemClock (c.ticks + 1)⟩

variable (env) in
theorem serve_eq (hpending : c.pendingResponse = none) (parsed : ParsedRequest View) :
    serve env parsed c = enterState env .writing (serialize env
      (answer env (dispatchOf env parsed c).request)
      ((adoptParsedRequest env parsed c).record
        (.dispatched (dispatchOf env parsed c).request (dispatchOf env parsed c).now))) := by
  have hpending' : (adoptParsedRequest env parsed c).pendingResponse = none := hpending
  rw [serve, dispatchAndSerialize, hpending']
  rfl

variable (env) in
theorem trace_serve (hpending : c.pendingResponse = none) (parsed : ParsedRequest View) :
    (serve env parsed c).trace = c.trace ++
      [(c.ticks, .consumed c.readBuffer.size parsed.consumedBytes)] ++
      [(c.ticks + 1, .dispatched (dispatchOf env parsed c).request
        (dispatchOf env parsed c).now)] := by
  rw [serve_eq env hpending]
  rfl

variable (env) in
theorem trace_reject (status : Status) (c : Connection σ) : (reject env status c).trace =
    c.trace ++ [(c.ticks + 1, .rejected status (env.systemClock (c.ticks + 1)))] := rfl

variable (env) in
theorem ledger_serve (hpending : c.pendingResponse = none) (parsed : ParsedRequest View) :
    (serve env parsed c).ledger = { c.ledger with
      consumed := c.ledger.consumed ++ [parsed.consumedBytes]
      dispatches := c.ledger.dispatches ++ [dispatchOf env parsed c] } := by
  have hadopted : (adoptParsedRequest env parsed c).ledger =
      { c.ledger with consumed := c.ledger.consumed ++ [parsed.consumedBytes] } :=
    ledger_record (.consumed c.readBuffer.size parsed.consumedBytes) c
  rw [serve_eq env hpending]
  refine (ledger_record (.dispatched _ _) (adoptParsedRequest env parsed c)).trans ?_
  rw [hadopted]
  rfl

theorem serve_core (h : Idle env c) {parsed : ParsedRequest View}
    (hparsed : parseBytes env.pton env.options.limits c.readBuffer.readable =
      .ok parsed.content) : Core env (serve env parsed c) := by
  have hledger := ledger_serve env h.pending parsed
  have hbuffer : (serve env parsed c).readBuffer = c.readBuffer.consume parsed.consumedBytes := by
    rw [serve_eq env h.pending]
    rfl
  have hle : parsed.consumedBytes ≤ c.readBuffer.readable.length := consumedBytes_le hparsed
  have hroom : c.ledger.consumed.sum + parsed.consumedBytes ≤ c.ledger.received.length := by
    have hc := h.consumed_le
    rw [h.readable, List.length_drop] at hle
    omega
  refine ⟨?_, ?_, ?_⟩
  · rw [hbuffer, hledger, c.readBuffer.readable_consume (by rwa [← Buffer.length_readable]),
      h.readable, List.drop_drop, List.sum_append, List.sum_singleton]
  · rw [hledger, List.sum_append, List.sum_singleton]
    exact hroom
  · rw [hledger]
    refine h.served.concat ⟨parsed.content, ?_, rfl, ?_⟩
    · rw [← h.readable]
      exact hparsed
    · rw [dispatchOf, ← attach_content, attach_receivedAt]

/-- A request that the buffer holds is dispatched, and its response is there to be written. -/
theorem serve_answering (h : Idle env c) {parsed : ParsedRequest View}
    (hparsed : parseBytes env.pton env.options.limits c.readBuffer.readable =
      .ok parsed.content) (hparser : c.requestParser = {}) :
    Answering env (serve env parsed c) ∧ (serve env parsed c).state = .writing := by
  have hledger := ledger_serve env h.pending parsed
  have hserve := serve_eq env h.pending parsed
  refine ⟨⟨serve_core h hparsed, .inl ⟨c.ledger.dispatches, dispatchOf env parsed c, ?_, ?_, ?_, ?_,
    ?_, ?_, ?_, ?_⟩⟩, ?_⟩
  · rw [hledger]
  · rw [hledger, responses_concat, ← h.count, h.sent, hserve]
    congr 1
    exact unsent_serialize env _ _
  · rw [hserve]
    rfl
  · rw [hserve]
    change (if (answer env (dispatchOf env parsed c).request).isStream then
      (answer env (dispatchOf env parsed c).request).stream else c.stream) = _
    rw [h.stream, Response.isStream]
    cases (answer env (dispatchOf env parsed c).request).stream <;> rfl
  · rw [hserve]
    rfl
  · rw [hserve]
    exact h.count
  · rw [hserve]
    rfl
  · rw [hserve]
    exact hparser
  · rw [hserve]
    rfl

/-- Of the request, an encoded response depends on the method and the accepted coding only. -/
theorem encodeResponse_congr {r r' : Request Bytes} (hmethod : r.method = r'.method)
    (hgzip : r.wantsGzip = r'.wantsGzip) (deflate : Deflate) (now : SystemTime)
    (response : Response) (options : ResponseEncodingOptions) :
    encodeResponse deflate now r response options =
      encodeResponse deflate now r' response options := by
  simp only [encodeResponse, hmethod, hgzip]

/-- An error response is there to be written. -/
theorem reject_answering (h : Idle env c) {status : Status}
    (hending : ∀ now, Ending env c.ledger (errorWire env status now)) :
    Answering env (reject env status c) ∧ (reject env status c).state = .writing := by
  have hledger : (reject env status c).ledger = c.ledger :=
    ledger_record (.rejected status (env.systemClock (c.ticks + 1))) { c with ticks := c.ticks + 1 }
  refine ⟨⟨h.toCore.of_eq rfl hledger, .inr ⟨errorWire env status (env.systemClock (c.ticks + 1)),
    ?_, ?_, rfl, h.stream, rfl⟩⟩, rfl⟩
  · rw [hledger]
    exact hending _
  · rw [hledger, h.sent]
    congr 1
    refine (unsent_serialize env (errorResponse status) _).trans ?_
    rw [errorWire]
    exact congrArg EncodedResponse.wire (encodeResponse_congr rfl rfl _ _ _ _)

/-- The result of a parse that is an error other than a wish for more data. -/
theorem reject_malformed (h : Idle env c) {error : ParseError} (hne : error ≠ .needsMoreData)
    (herror : parseBytes env.pton env.options.limits c.readBuffer.readable = .error error) :
    Answering env (reject env error.status c) ∧ (reject env error.status c).state = .writing := by
  rw [h.readable] at herror
  exact reject_answering h fun now => .malformed error now hne herror

/-! ### Every action keeps the invariant -/

theorem isReading_of_readsRequests (h : c.readsRequests) : c.state.isReading = true := by
  rcases h with h | h <;> rw [h] <;> rfl

theorem Inv.idleOf (h : Inv env c) {state : ConnectionState} (hstate : c.state = state)
    (hreading : state.isReading = true) : Idle env c := h.toIdle (hstate.symm ▸ hreading)

theorem Idle.inv (h : Idle env c) {state : ConnectionState} (hstate : c.state = state)
    (hreading : state.isReading = true) : Inv env c := .idle (hstate.symm ▸ hreading) h

theorem discard_frame {status : TransportStatus} {bytes : Bytes}
    (h : discard env c = (c', status, bytes)) :
    c'.ledger = c.ledger ∧ c'.readBuffer = c.readBuffer ∧ c'.state = c.state := by
  simp only [discard, Prod.mk.injEq] at h
  obtain ⟨rfl, -, -⟩ := h
  exact ⟨ledger_record (.drained _ _) c, rfl, rfl⟩

theorem Inv.elsewhere (h : Inv env c) (transport : σ) :
    Inv env { c with transport := transport } := by
  cases h with
  | idle hstate h => exact .idle hstate (h.of_eq rfl rfl rfl rfl rfl rfl)
  | answering hstate h =>
    have hsends : Sends c { c with transport := transport } 0 :=
      ⟨⟨transport, c.trace, c.deadline, c.ticks, c.streamWaitingForWriteProgress, rfl⟩, by
        rw [List.take_zero, List.append_nil]; rfl⟩
    exact .answering hstate (hsends.answering h)
  | streaming hstate d source h =>
    exact .streaming hstate d source ⟨h.toCore.of_eq rfl rfl, h.last, h.method, h.answers,
      h.stream, h.sent⟩
  | closed hstate h => exact .closed hstate (h.of_eq rfl rfl)

/-- A write that accepts nothing sends nothing. -/
theorem writev_sends_nothing {status : TransportStatus} {accepted : ℕ}
    (h : writev env c = (c', status, accepted)) (hnothing : status ≠ .ok ∨ accepted = 0) :
    Sends c c' 0 := by
  obtain ⟨hblocked, hok⟩ := writev_sends h
  by_cases hstatus : status = .ok
  · have hsends := hok hstatus
    rwa [hnothing.resolve_left (not_not.2 hstatus)] at hsends
  · exact hblocked hstatus

theorem action_inv (h : Action env world c c') (hinv : Inv env c) : Inv env c' := by
  cases h with
  | handshake _ => exact hinv.elsewhere _
  | handshaken hstate => exact .idle rfl ((hinv.idleOf hstate rfl).of_eq rfl rfl rfl rfl rfl rfl)
  | readNothing hstate _ hread hnothing =>
    have hreading := isReading_of_readsRequests hstate
    obtain ⟨hidle, -, hsame⟩ := read_idle (hinv.toIdle hreading) hread
    exact .idle (hsame ▸ hreading) (hidle hnothing)
  | readHead hstate _ hread _ =>
    obtain ⟨-, hidle, hsame⟩ := read_idle (hinv.idleOf hstate rfl) hread
    obtain ⟨hidle', hsame'⟩ := noteFirstBytes_idle (hidle rfl)
    exact hidle'.inv (hsame'.trans (hsame.trans hstate)) rfl
  | readBody hstate _ hread _ =>
    obtain ⟨-, hidle, hsame⟩ := read_idle (hinv.idleOf hstate rfl) hread
    exact (hidle rfl).inv (hsame.trans hstate) rfl
  | parseShort hstate hparse =>
    have hreading := isReading_of_readsRequests hstate
    obtain ⟨hidle, hsame, -⟩ := parse_idle (hinv.toIdle hreading) hparse
    exact .idle (hsame ▸ hreading) hidle
  | awaitBody hstate _ _ _ => exact .idle rfl ((hinv.idleOf hstate rfl).of_eq rfl rfl rfl rfl rfl rfl)
  | serve hstate hparse =>
    obtain ⟨hidle, -, hsame, hfresh⟩ :=
      parse_idle (hinv.toIdle (isReading_of_readsRequests hstate)) hparse
    obtain ⟨hanswering, hwriting⟩ := serve_answering hidle hsame (hfresh _ rfl)
    exact .answering hwriting hanswering
  | reject hstate hparse hne =>
    obtain ⟨hidle, -, hsame, -⟩ :=
      parse_idle (hinv.toIdle (isReading_of_readsRequests hstate)) hparse
    obtain ⟨hanswering, hwriting⟩ := reject_malformed hidle hne hsame
    exact .answering hwriting hanswering
  | timeOut hstate _ =>
    obtain ⟨hanswering, hwriting⟩ := reject_answering
      (hinv.toIdle (isReading_of_readsRequests hstate)) fun now => .timeout now
    exact .answering hwriting hanswering
  | writeNothing hstate _ hwrite hnothing =>
    have hsends := writev_sends_nothing hwrite hnothing
    exact .answering (hsends.state_eq.trans hstate) (hsends.answering (hinv.toAnswering hstate))
  | write hstate _ hwrite _ =>
    have hsends := (writev_sends hwrite).2 rfl
    exact .answering (hsends.state_eq.trans hstate) (hsends.answering (hinv.toAnswering hstate))
  | nextRequest hstate hunsent hkeep =>
    exact .idle rfl ((hinv.toAnswering hstate).nextRequest hunsent hkeep)
  | lastResponse hstate _ _ _ => exact (hinv.toAnswering hstate).completeResponse.beginClose
  | attach source hstate hunsent hstream _ hmethod _ =>
    obtain ⟨d, hstreams⟩ := (hinv.toAnswering hstate).attach hunsent hstream hmethod
    exact .streaming rfl d source hstreams
  | attachThrows source hstate _ _ _ _ _ =>
    have hsafe : Safe env c.attachStream :=
      (hinv.toAnswering hstate).safe.of_eq rfl c.ledger_attachStream
    exact hsafe.beginClose
  | streamNothing hstate _ hwrite _ hnothing =>
    obtain ⟨d, source, hstreams⟩ := hinv.toStreams hstate
    have hsends := (writev_sends_nothing hwrite hnothing).awaitWriteProgress env
    exact .streaming (hsends.state_eq.trans hstate) d source (hsends.streams hstreams)
  | streamWrite hstate _ hwrite _ =>
    obtain ⟨d, source, hstreams⟩ := hinv.toStreams hstate
    have hsends := ((writev_sends hwrite).2 rfl).noteWriteProgress env
    exact .streaming (hsends.state_eq.trans hstate) d source (hsends.streams hstreams)
  | streamFailed hstate _ hwrite hterminal =>
    obtain ⟨d, source, hstreams⟩ := hinv.toStreams hstate
    have hsends := (writev_sends hwrite).1 (by rintro rfl; cases hterminal)
    exact (hsends.streams hstreams).safe.beginClose
  | settle hstate hunsent =>
    obtain ⟨d, source, hstreams⟩ := hinv.toStreams hstate
    obtain ⟨hstreams', -, hsame⟩ := hstreams.settleWrites hunsent c.pendingBytes
    exact .streaming (hsame.trans hstate) d source hstreams'
  | pullNothing source hstate hsettled hstream hpull hanswer =>
    obtain ⟨d, source', hstreams⟩ := hinv.toStreams hstate
    obtain rfl := hstreams.source_eq hstream
    have hstreams' := hstreams.pullNothing hsettled hpull (hanswer.imp_right And.right)
    obtain ⟨trace, rfl⟩ := pull_frame hpull
    exact .streaming hstate d source hstreams'
  | pullBytes source hstate hsettled hstream hpull _ =>
    obtain ⟨d, source', hstreams⟩ := hinv.toStreams hstate
    obtain rfl := hstreams.source_eq hstream
    have hstreams' := hstreams.pullBytes hsettled hpull (by decide)
    obtain ⟨trace, rfl⟩ := pull_frame hpull
    exact .streaming hstate d source hstreams'
  | pullLast source hstate hsettled hstream hpull _ =>
    obtain ⟨d, source', hstreams⟩ := hinv.toStreams hstate
    obtain rfl := hstreams.source_eq hstream
    have hstreams' := (hstreams.pullBytes hsettled hpull (by decide)).releaseStreamSource
    obtain ⟨trace, rfl⟩ := pull_frame hpull
    refine .streaming ?_ d source hstreams'
    obtain ⟨trace', heq⟩ := releaseStreamSource_frame (appendToWriteBuffer env _
      { c with pulls := c.pulls + 1, trace := trace }).pushWriteBuffer
    rw [heq]
    exact hstate
  | pullEnd source hstate hsettled hstream hpull =>
    obtain ⟨d, source', hstreams⟩ := hinv.toStreams hstate
    obtain rfl := hstreams.source_eq hstream
    exact (hstreams.pullNothing hsettled hpull (.inr rfl)).safe.beginClose
  | close => exact hinv.safe.beginClose
  | discard hstate hread =>
    obtain ⟨hledger, hbuffer, hsame⟩ := discard_frame hread
    exact .closed (hsame.trans hstate) (hinv.safe.of_eq hbuffer hledger)
  | elsewhere transport _ => exact hinv.elsewhere transport

/-! ### Runs -/

theorem init_inv (transport : σ) : Inv env (init env transport) :=
  .idle rfl ⟨⟨rfl, Nat.le_refl _, trivial⟩, rfl, rfl, rfl, rfl, [], .fresh, List.nil_prefix⟩

theorem Steps.inv {transport : σ} (h : Steps env world (Connection.init env transport) c) : Inv env c :=
  h.invariant (fun _ _ => action_inv) (init_inv transport)

/-- A property that actions keep where the invariant holds, holds in every state of every run. -/
theorem Steps.induct {I : Connection σ → Prop}
    (hI : ∀ c c', Action env world c c' → Inv env c → I c → I c') {transport : σ}
    (hinit : I (Connection.init env transport))
    (h : Steps env world (Connection.init env transport) c) : I c :=
  (h.invariant (I := fun c => Inv env c ∧ I c)
    (fun c c' hact hc => ⟨action_inv hact hc.1, hI c c' hact hc.1 hc.2⟩)
    ⟨init_inv transport, hinit⟩).2

variable (env) in
theorem run_inv (transport : σ) (occurrences : List (Occurrence σ)) :
    Inv env (run env (init env transport) occurrences) :=
  (run_steps env _ occurrences).inv

/-- **A connection is a sequential server.**  After any run, whatever the transport did, the
requests handed to the router are those that `parse_request` finds one after the other in the bytes
received outside `drive_close`, each with the peer, the secure flag and the certificate of the
connection; and the bytes that the transport accepted are a part, from the front, of the answers to
these requests and what may follow them.  The answer to a request depends on the request and on
whether the connection may take another one after it. -/
theorem connection_refines_sequential_server (env : Environment σ) (transport : σ)
    (occurrences : List (Occurrence σ)) :
    let l := (run env (init env transport) occurrences).ledger
    ServedInOrder env l.received l.consumed l.dispatches ∧
      ∃ e, Ending env l e ∧ l.sent <+: responses env l.dispatches ++ e := by
  intro l
  have h := (run_inv env transport occurrences).safe
  exact ⟨h.served, h.sent⟩

end Connection

end ErikslundHttp
