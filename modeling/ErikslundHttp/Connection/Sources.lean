import ErikslundHttp.Connection.Refinement

/-!
# The sources of streams

A connection takes a source from the response to a request, may attach it and pull from it, and
releases it: at the end of the response, at the end of the stream, when it closes, or when it is
destroyed.

* `sources` reads from a trace which sources were taken and which calls each of them got.
* `Lifecycle`: a call belongs to the source that was taken last, which is the one the connection
  holds.
* `stream_source_lifecycle`: what the calls on every source are once the connection is gone.
-/

namespace ErikslundHttp

/-- An event that concerns no source. -/
def Event.isQuiet : Event → Bool
  | .dispatched _ _ | .attached | .pulled _ _ | .detached => false
  | _ => true

namespace Connection

variable {σ : Type}

/-! ### The calls on a source -/

/-- A call on a source; `on_attached` with the ledger of the connection at that time. -/
inductive SourceCall where
  | attached (ledger : Ledger)
  | pulled
  | detached

/-- A source taken from the response to `request`, and the calls on it. -/
structure SourceLife where
  /-- The request whose answer is the stream. -/
  request : Request Bytes
  source : StreamSource
  /-- What happened to the source, in order. -/
  calls : List SourceCall

/-- The ledger of a trace and the sources taken in it, the last one first. -/
structure Sources where
  ledger : Ledger := {}
  /-- Those taken so far, the last one first. -/
  lives : List SourceLife := []

/-- A call on the source that was taken last; there must be one. -/
def Sources.call (s : Sources) (call : SourceCall) : Option Sources :=
  match s.lives with
  | [] => none
  | life :: lives => some { s with lives := { life with calls := life.calls ++ [call] } :: lives }

/-- The source of a stream response is taken when it is dispatched. -/
def Sources.take (env : Environment σ) (s : Sources) (request : Request Bytes) :
    List SourceLife :=
  match (answer env request).stream with
  | some source => ⟨request, source, []⟩ :: s.lives
  | none => s.lives

/-- What an event says about the sources; none if it may not happen. -/
def Sources.post (env : Environment σ) (s : Sources) (event : Event) : Option Sources :=
  match event with
  | .dispatched request _ => some ⟨s.ledger.post event, s.take env request⟩
  | .attached => s.call (.attached s.ledger)
  | .pulled _ _ => s.call .pulled
  | .detached => s.call .detached
  | event => some { s with ledger := s.ledger.post event }

/-- What a trace says about them. -/
def sources (env : Environment σ) (trace : List (ℕ × Event)) : Option Sources :=
  trace.foldlM (fun s entry => s.post env entry.2) {}

/-- Every byte of the response to `request` was accepted, and no later request was dispatched. -/
def HeadSent (env : Environment σ) (l : Ledger) (request : Request Bytes) : Prop :=
  l.sent = responses env l.dispatches ∧ ∃ now, l.dispatches.getLast? = some ⟨request, now⟩

/-- The calls on a source that is attached. -/
def SourceLife.Attended (env : Environment σ) (life : SourceLife) : Prop :=
  ∃ l count, life.calls = .attached l :: List.replicate count .pulled ∧
    life.request.method ≠ .head ∧ HeadSent env l life.request

/-- The calls on a source that was released: `on_detached` alone, or after `on_attached`, when the
head was sent, and the calls of `pull`. -/
def SourceLife.Over (env : Environment σ) (life : SourceLife) : Prop :=
  life.calls = [.detached] ∨ ∃ l count,
    life.calls = .attached l :: List.replicate count .pulled ++ [.detached] ∧
    life.request.method ≠ .head ∧ HeadSent env l life.request

variable {env : Environment σ} {world : σ → σ → Prop} {c c' : Connection σ} {trace : List (ℕ × Event)}

theorem sources_concat (env : Environment σ) (trace : List (ℕ × Event)) (entry : ℕ × Event) :
    sources env (trace ++ [entry]) =
      (sources env trace).bind fun s => s.post env entry.2 := by
  rw [sources, List.foldlM_append]
  show ((sources env trace).bind fun s => (s.post env entry.2).bind some) = _
  congr 1
  funext s
  cases s.post env entry.2 <;> rfl

theorem sources_quiet {s : Sources} {entry : ℕ × Event} (h : sources env trace = some s)
    (hquiet : entry.2.isQuiet = true) :
    sources env (trace ++ [entry]) = some ⟨s.ledger.post entry.2, s.lives⟩ := by
  obtain ⟨tick, event⟩ := entry
  rw [sources_concat, h, Option.bind_some]
  cases event <;> first | rfl | cases hquiet

theorem dispatches_post_quiet (l : Ledger) {event : Event} (hquiet : event.isQuiet = true) :
    (l.post event).dispatches = l.dispatches := by
  cases event with
  | read buffer status bytes => cases status <;> rfl
  | writev vectors status accepted => cases status <;> rfl
  | drained status bytes => rfl
  | consumed size bytes => rfl
  | dispatched request now => cases hquiet
  | rejected status now => rfl
  | completed => rfl
  | attached => cases hquiet
  | pulled bytes answer => cases hquiet
  | detached => cases hquiet

/-- The sources are those of the stream responses that were dispatched, in order. -/
theorem sources_taken {s : Sources} (h : sources env trace = some s) :
    s.ledger = trace.foldl (fun l entry => l.post entry.2) {} ∧
      s.lives.reverse.map (fun life => (life.request, life.source)) =
        s.ledger.dispatches.filterMap fun d =>
          (answer env d.request).stream.map fun source => (d.request, source) := by
  induction trace using List.reverseRecOn generalizing s with
  | nil =>
    cases h
    exact ⟨rfl, rfl⟩
  | append_singleton trace entry ih =>
    rw [sources_concat, Option.bind_eq_some_iff] at h
    obtain ⟨s₀, h₀, hpost⟩ := h
    obtain ⟨hledger, htaken⟩ := ih h₀
    obtain ⟨tick, event⟩ := entry
    rw [List.foldl_concat, ← hledger]
    -- a call changes neither the ledger nor which sources there are
    have hcall : ∀ call, s₀.call call = some s → s.ledger = s₀.ledger ∧
        s.lives.reverse.map (fun life => (life.request, life.source)) =
          s₀.lives.reverse.map fun life => (life.request, life.source) := by
      intro call hs
      rw [Sources.call] at hs
      split at hs
      · cases hs
      · rename_i life lives hlives
        cases hs
        refine ⟨rfl, ?_⟩
        rw [hlives]
        simp
    by_cases hquiet : event.isQuiet = true
    · have hs := (sources_concat env trace (tick, event)).symm.trans (sources_quiet h₀ hquiet)
      rw [h₀, Option.bind_some, hpost] at hs
      cases hs
      refine ⟨rfl, ?_⟩
      rw [dispatches_post_quiet _ hquiet]
      exact htaken
    · cases event with
      | dispatched request now =>
        cases hpost
        refine ⟨rfl, ?_⟩
        show (s₀.take env request).reverse.map _ = (s₀.ledger.dispatches ++ [_]).filterMap _
        rw [List.filterMap_append, ← htaken, Sources.take]
        cases hstream : (answer env request).stream with
        | none => simp [hstream]
        | some source => simp [hstream]
      | attached =>
        obtain ⟨hsame, hlives⟩ := hcall _ hpost
        exact ⟨hsame, by rw [hlives, hsame]; exact htaken⟩
      | pulled bytes answer =>
        obtain ⟨hsame, hlives⟩ := hcall _ hpost
        exact ⟨hsame, by rw [hlives, hsame]; exact htaken⟩
      | detached =>
        obtain ⟨hsame, hlives⟩ := hcall _ hpost
        exact ⟨hsame, by rw [hlives, hsame]; exact htaken⟩
      | read buffer status bytes => exact absurd rfl hquiet
      | drained status bytes => exact absurd rfl hquiet
      | writev vectors status accepted => exact absurd rfl hquiet
      | consumed size bytes => exact absurd rfl hquiet
      | rejected status now => exact absurd rfl hquiet
      | completed => exact absurd rfl hquiet

/-! ### The source a connection holds -/

/-- Every source taken so far was released. -/
def Free (env : Environment σ) (c : Connection σ) : Prop :=
  ∃ lives, sources env c.trace = some ⟨c.ledger, lives⟩ ∧ c.stream = none ∧
    ∀ life ∈ lives, life.Over env

/-- The connection holds the source that was taken last; the others were released. -/
def Holds (env : Environment σ) (c : Connection σ) (life : SourceLife) : Prop :=
  ∃ lives, sources env c.trace = some ⟨c.ledger, life :: lives⟩ ∧ c.stream = some life.source ∧
    ∀ life' ∈ lives, life'.Over env

/-- Where the source of a connection is in its life. -/
inductive Lifecycle (env : Environment σ) (c : Connection σ) : Prop
  | free (h : Free env c)
  | taken (life : SourceLife) (h : Holds env c life) (hstate : c.state = .writing)
      (hcalls : life.calls = [])
      (hlast : ∃ now, c.ledger.dispatches.getLast? = some ⟨life.request, now⟩)
  | attached (life : SourceLife) (h : Holds env c life) (hstate : c.state = .streaming)
      (hcalls : life.Attended env)

theorem ledger_eq_of_trace (h : c'.trace = c.trace) : c'.ledger = c.ledger := by
  rw [ledger, h, ledger]

theorem ledger_eq_post {entry : ℕ × Event} (h : c'.trace = c.trace ++ [entry]) :
    c'.ledger = c.ledger.post entry.2 := by
  rw [ledger, h, List.foldl_concat, ledger]

theorem Free.of_eq (h : Free env c) (htrace : c'.trace = c.trace) (hstream : c'.stream = c.stream) :
    Free env c' := by
  obtain ⟨lives, hs, hnone, hover⟩ := h
  exact ⟨lives, by rw [htrace, ledger_eq_of_trace htrace, hs], hstream.trans hnone, hover⟩

theorem Free.quiet (h : Free env c) (entry : ℕ × Event) (htrace : c'.trace = c.trace ++ [entry])
    (hquiet : entry.2.isQuiet = true) (hstream : c'.stream = c.stream) : Free env c' := by
  obtain ⟨lives, hs, hnone, hover⟩ := h
  refine ⟨lives, ?_, hstream.trans hnone, hover⟩
  rw [htrace, sources_quiet hs hquiet, ledger_eq_post htrace]

theorem Lifecycle.of_eq (h : Lifecycle env c) (htrace : c'.trace = c.trace)
    (hstream : c'.stream = c.stream) (hstate : c'.state = c.state) : Lifecycle env c' := by
  have hledger := ledger_eq_of_trace htrace
  cases h with
  | free h => exact .free (h.of_eq htrace hstream)
  | taken life h hwriting hcalls hlast =>
    obtain ⟨lives, hs, hsome, hover⟩ := h
    exact .taken life ⟨lives, by rw [htrace, hledger, hs], hstream.trans hsome, hover⟩
      (hstate.trans hwriting) hcalls (by rw [hledger]; exact hlast)
  | attached life h hstreaming hcalls =>
    obtain ⟨lives, hs, hsome, hover⟩ := h
    exact .attached life ⟨lives, by rw [htrace, hledger, hs], hstream.trans hsome, hover⟩
      (hstate.trans hstreaming) hcalls

/-- An event that concerns no source. -/
theorem Lifecycle.quiet (h : Lifecycle env c) (entry : ℕ × Event)
    (htrace : c'.trace = c.trace ++ [entry]) (hquiet : entry.2.isQuiet = true)
    (hstream : c'.stream = c.stream) (hstate : c'.state = c.state) : Lifecycle env c' := by
  have hledger := ledger_eq_post htrace
  have hsources : ∀ {s : Sources}, sources env c.trace = some s →
      sources env c'.trace = some ⟨s.ledger.post entry.2, s.lives⟩ := by
    intro s hs
    rw [htrace, sources_quiet hs hquiet]
  cases h with
  | free h => exact .free (h.quiet entry htrace hquiet hstream)
  | taken life h hwriting hcalls hlast =>
    obtain ⟨lives, hs, hsome, hover⟩ := h
    refine .taken life ⟨lives, by rw [hsources hs, hledger], hstream.trans hsome, hover⟩
      (hstate.trans hwriting) hcalls ?_
    rw [hledger, dispatches_post_quiet _ hquiet]
    exact hlast
  | attached life h hstreaming hcalls =>
    obtain ⟨lives, hs, hsome, hover⟩ := h
    exact .attached life ⟨lives, by rw [hsources hs, hledger], hstream.trans hsome, hover⟩
      (hstate.trans hstreaming) hcalls

theorem Lifecycle.toFree (h : Lifecycle env c) {state : ConnectionState} (hstate : c.state = state)
    (hwriting : state ≠ .writing) (hstreaming : state ≠ .streaming) : Free env c := by
  cases h with
  | free h => exact h
  | taken _ _ h _ _ => exact absurd (hstate.symm.trans h) hwriting
  | attached _ _ h _ => exact absurd (hstate.symm.trans h) hstreaming

/-! ### Calls on the source -/

/-- A call on the source that the connection holds. -/
theorem Holds.call {life : SourceLife} (h : Holds env c life) (entry : ℕ × Event)
    (call : SourceCall) (htrace : c'.trace = c.trace ++ [entry])
    (hpost : ∀ s : Sources, s.ledger = c.ledger → s.post env entry.2 = s.call call)
    (hledger : c'.ledger = c.ledger) (hstream : c'.stream = c.stream) :
    Holds env c' { life with calls := life.calls ++ [call] } := by
  obtain ⟨lives, hs, hsome, hover⟩ := h
  refine ⟨lives, ?_, hstream.trans hsome, hover⟩
  rw [htrace, sources_concat, hs, Option.bind_some, hpost _ rfl, hledger]
  rfl

/-- The source that the connection holds is released. -/
theorem Holds.release {life : SourceLife} (h : Holds env c life)
    (hcalls : life.calls = [] ∨ life.Attended env) : Free env c.releaseStreamSource := by
  have hledger := c.ledger_releaseStreamSource
  obtain ⟨lives, hs, hsome, hover⟩ := h
  have htrace : c.releaseStreamSource.trace = c.trace ++ [(c.ticks, .detached)] := by
    rw [releaseStreamSource]
    dsimp only
    rw [hsome]
    rfl
  obtain ⟨trace', heq⟩ := c.releaseStreamSource_frame
  refine ⟨{ life with calls := life.calls ++ [.detached] } :: lives, ?_, by rw [heq], ?_⟩
  · rw [htrace, sources_concat, hs, hledger]
    rfl
  · intro life' hlife'
    rcases List.mem_cons.1 hlife' with rfl | hlife'
    · rcases hcalls with hnone | ⟨l, count, hattended, hmethod, hsent⟩
      · exact .inl (by rw [hnone]; rfl)
      · exact .inr ⟨l, count, by rw [hattended], hmethod, hsent⟩
    · exact hover life' hlife'

theorem Free.release (h : Free env c) : Free env c.releaseStreamSource := by
  obtain ⟨lives, hs, hnone, hover⟩ := h
  have heq : c.releaseStreamSource = { c with streamWaitingForWriteProgress := false } := by
    rw [releaseStreamSource]
    dsimp only
    rw [hnone]
  rw [heq]
  exact ⟨lives, hs, hnone, hover⟩

theorem Lifecycle.release (h : Lifecycle env c) : Free env c.releaseStreamSource := by
  cases h with
  | free h => exact h.release
  | taken life h _ hcalls _ => exact h.release (.inl hcalls)
  | attached life h _ hcalls => exact h.release (.inr hcalls)

/-- A connection that closes has released its source. -/
theorem Lifecycle.beginClose (h : Lifecycle env c) : Lifecycle env (beginClose env c) := by
  rw [Connection.beginClose]
  split_ifs with hclosing
  · exact h
  · exact .free (h.release.of_eq rfl rfl)

theorem Lifecycle.completeResponse (h : Lifecycle env c) : Free env c.completeResponse := by
  have hrecorded : Lifecycle env
      { c.record .completed with requestsServed := c.requestsServed + 1 } :=
    h.quiet (c.ticks, .completed) rfl rfl rfl rfl
  exact hrecorded.release.of_eq rfl rfl

/-- The source of a stream response is taken when the request is served. -/
theorem Free.serve (h : Free env c) (hidle : Idle env c) (parsed : ParsedRequest View) :
    Lifecycle env (serve env parsed c) := by
  have hledger := ledger_serve env hidle.pending parsed
  have hadopted : Free env (adoptParsedRequest env parsed c) :=
    h.quiet (c.ticks, .consumed c.readBuffer.size parsed.consumedBytes) rfl rfl rfl
  obtain ⟨lives, hs, hnone, hover⟩ := hadopted
  have hserve := serve_eq env hidle.pending parsed
  have htrace : (Connection.serve env parsed c).trace =
      (adoptParsedRequest env parsed c).trace ++ [((adoptParsedRequest env parsed c).ticks,
        .dispatched (dispatchOf env parsed c).request (dispatchOf env parsed c).now)] := by
    rw [hserve]
    rfl
  have hstream : (Connection.serve env parsed c).stream =
      if (answer env (dispatchOf env parsed c).request).isStream then
        (answer env (dispatchOf env parsed c).request).stream else none := by
    rw [hserve, ← hidle.stream]
    rfl
  have hlast : (Connection.serve env parsed c).ledger.dispatches.getLast? =
      some (dispatchOf env parsed c) := by
    rw [hledger, List.getLast?_concat]
  have hsources : sources env (Connection.serve env parsed c).trace =
      some ⟨(Connection.serve env parsed c).ledger,
        Sources.take env ⟨(adoptParsedRequest env parsed c).ledger, lives⟩
          (dispatchOf env parsed c).request⟩ := by
    rw [htrace, sources_concat, hs, ledger_eq_post htrace]
    rfl
  rw [Response.isStream] at hstream
  rw [Sources.take] at hsources
  cases hsource : (answer env (dispatchOf env parsed c).request).stream with
  | none =>
    rw [hsource] at hstream hsources
    exact .free ⟨lives, hsources, hstream, hover⟩
  | some source =>
    rw [hsource] at hstream hsources
    refine .taken ⟨(dispatchOf env parsed c).request, source, []⟩ ⟨lives, hsources, hstream, hover⟩
      ?_ rfl ⟨_, hlast⟩
    rw [hserve]
    rfl

/-- The source is attached when the head of its response was sent. -/
theorem Lifecycle.attachStream (h : Lifecycle env c) (hanswering : Answering env c)
    (hstate : c.state = .writing) (hunsent : c.unsent = []) {source : StreamSource}
    (hstream : c.stream = some source) (hmethod : c.request.method ≠ .head) :
    ∃ life, Holds env c.attachStream life ∧ life.Attended env := by
  cases h with
  | free h =>
    obtain ⟨lives, hs, hnone, hover⟩ := h
    rw [hnone] at hstream
    cases hstream
  | attached life h hstreaming hcalls =>
    rw [hstate] at hstreaming
    cases hstreaming
  | taken life h _ hcalls hlast =>
    rcases hanswering.response with ⟨earlier, d, hd⟩ | ⟨e, he⟩
    · have hsent := hd.sent
      rw [hunsent, List.append_nil] at hsent
      have hrequest : d.request = life.request := by
        obtain ⟨now, hnow⟩ := hlast
        rw [hd.dispatches, List.getLast?_concat, Option.some.injEq] at hnow
        rw [hnow]
      refine ⟨_, h.call (c.ticks, .attached) (.attached c.ledger) rfl ?_
        c.ledger_attachStream rfl, c.ledger, 0, ?_, ?_, hsent, hlast⟩
      · intro s hs
        rw [← hs]
        rfl
      · rw [hcalls]
        rfl
      · show life.request.method ≠ .head
        rw [← hrequest, ← hd.request]
        exact hmethod
    · rw [he.stream] at hstream
      cases hstream

theorem Lifecycle.pull (h : Lifecycle env c) (hstate : c.state = .streaming)
    {source : StreamSource} (hstream : c.stream = some source) {scratch : Bytes} {answer : Pull}
    (hpull : c.pull source = (c', scratch, answer)) : Lifecycle env c' := by
  have hledger := (pull_ledger hpull).1
  simp only [Connection.pull, Prod.mk.injEq] at hpull
  obtain ⟨rfl, -, -⟩ := hpull
  cases h with
  | free h =>
    obtain ⟨lives, hs, hnone, hover⟩ := h
    rw [hnone] at hstream
    cases hstream
  | taken life h hwriting hcalls hlast =>
    rw [hstate] at hwriting
    cases hwriting
  | attached life h _ hcalls =>
    obtain ⟨l, count, hattended, hmethod, hsent⟩ := hcalls
    refine .attached _ (h.call _ .pulled rfl (fun s _ => rfl) hledger rfl) hstate
      ⟨l, count + 1, ?_, hmethod, hsent⟩
    rw [hattended, List.replicate_succ']
    rfl

theorem Lifecycle.pushWriteBuffer (h : Lifecycle env c) (bytes : Bytes) :
    Lifecycle env (appendToWriteBuffer env bytes c).pushWriteBuffer := h.of_eq rfl rfl rfl

/-! ### Every action keeps the lifecycle -/

theorem Lifecycle.writev (h : Lifecycle env c) {status : TransportStatus} {accepted : ℕ}
    (hwrite : writev env c = (c', status, accepted)) : Lifecycle env c' := by
  simp only [Connection.writev, Prod.mk.injEq] at hwrite
  obtain ⟨rfl, -, -⟩ := hwrite
  exact h.quiet (c.ticks, .writev _ _ _) rfl rfl rfl rfl

theorem Lifecycle.read (h : Lifecycle env c) {status : TransportStatus} {bytes : Bytes}
    (hread : read env c = (c', status, bytes)) : Lifecycle env c' := by
  simp only [Connection.read, Prod.mk.injEq] at hread
  obtain ⟨rfl, -, -⟩ := hread
  exact h.quiet (c.ticks, .read _ _ _) rfl rfl rfl rfl

theorem Free.parse (h : Free env c) {result : Except ParseError (ParsedRequest View)}
    (hparse : parse env c = (result, c')) : Free env c' := by
  obtain ⟨_, rfl⟩ := parse_frame hparse
  exact h.of_eq rfl rfl

theorem Free.reject (h : Free env c) (status : Status) : Lifecycle env (reject env status c) :=
  .free (h.quiet (c.ticks + 1, .rejected status (env.systemClock (c.ticks + 1))) rfl rfl
    rfl)

theorem Lifecycle.freeOfReads (h : Lifecycle env c) (hstate : c.readsRequests) : Free env c := by
  rcases hstate with hstate | hstate
  · exact h.toFree hstate (by decide) (by decide)
  · exact h.toFree hstate (by decide) (by decide)

theorem action_lifecycle (h : Action env world c c') (hinv : Inv env c) (hc : Lifecycle env c) :
    Lifecycle env c' := by
  cases h with
  | handshake _ => exact hc.of_eq rfl rfl rfl
  | handshaken hstate => exact .free ((hc.toFree hstate (by decide) (by decide)).of_eq rfl rfl)
  | readNothing _ _ hread _ => exact hc.read hread
  | readHead hstate _ hread _ =>
    have hfree := ((hc.read hread).toFree ((read_state hread).trans hstate) (by decide) (by decide))
    rw [noteFirstBytes]
    split_ifs
    · exact .free (hfree.of_eq rfl rfl)
    · exact .free (hfree.of_eq rfl rfl)
  | readBody _ _ hread _ => exact (hc.read hread).of_eq rfl rfl rfl
  | parseShort hstate hparse => exact .free ((hc.freeOfReads hstate).parse hparse)
  | awaitBody hstate _ _ _ => exact .free ((hc.freeOfReads (.inl hstate)).of_eq rfl rfl)
  | serve hstate hparse =>
    obtain ⟨hidle, -⟩ := parse_idle (hinv.toIdle (isReading_of_readsRequests hstate)) hparse
    exact ((hc.freeOfReads hstate).parse hparse).serve hidle _
  | reject hstate hparse _ => exact ((hc.freeOfReads hstate).parse hparse).reject _
  | timeOut hstate _ => exact (hc.freeOfReads hstate).reject _
  | writeNothing _ _ hwrite _ => exact hc.writev hwrite
  | write _ _ hwrite _ => exact (hc.writev hwrite).of_eq rfl rfl rfl
  | nextRequest _ _ _ => exact .free (hc.completeResponse.of_eq rfl rfl)
  | lastResponse _ _ _ _ => exact (Lifecycle.free hc.completeResponse).beginClose
  | attach source hstate hunsent hstream _ hmethod _ =>
    obtain ⟨life, ⟨lives, hs, hsome, hover⟩, hcalls⟩ :=
      hc.attachStream (hinv.toAnswering hstate) hstate hunsent hstream hmethod
    exact .attached life ⟨lives, hs, hsome, hover⟩ rfl hcalls
  | attachThrows source hstate hunsent hstream _ hmethod _ =>
    obtain ⟨life, hholds, hcalls⟩ :=
      hc.attachStream (hinv.toAnswering hstate) hstate hunsent hstream hmethod
    have hopen : c.attachStream.state ≠ .closing := by
      show c.state ≠ .closing
      rw [hstate]
      decide
    rw [beginClose, if_neg hopen]
    exact .free ((hholds.release (.inr hcalls)).of_eq rfl rfl)
  | streamNothing _ _ hwrite _ _ =>
    rw [awaitWriteProgress]
    split_ifs
    · exact hc.writev hwrite
    · exact (hc.writev hwrite).of_eq rfl rfl rfl
  | streamWrite _ _ hwrite _ => exact (hc.writev hwrite).of_eq rfl rfl rfl
  | streamFailed _ _ hwrite _ => exact (hc.writev hwrite).beginClose
  | settle _ _ =>
    rw [settleWrites]
    split_ifs
    · exact hc.of_eq rfl rfl rfl
    · exact hc.of_eq rfl rfl rfl
  | pullNothing source hstate _ hstream hpull _ => exact hc.pull hstate hstream hpull
  | pullBytes source hstate _ hstream hpull _ =>
    exact (hc.pull hstate hstream hpull).pushWriteBuffer _
  | pullLast source hstate _ hstream hpull _ =>
    exact .free ((hc.pull hstate hstream hpull).pushWriteBuffer _).release
  | pullEnd source hstate _ hstream hpull => exact (hc.pull hstate hstream hpull).beginClose
  | close => exact hc.beginClose
  | discard _ hread =>
    simp only [discard, Prod.mk.injEq] at hread
    obtain ⟨rfl, -, -⟩ := hread
    exact hc.quiet (c.ticks, .drained _ _) rfl rfl rfl rfl
  | elsewhere _ _ => exact hc.of_eq rfl rfl rfl

/-! ### Runs -/

/-- The source that was taken last, if it was not released. -/
def Sources.held (s : Sources) : Option StreamSource :=
  match s.lives with
  | [] => none
  | life :: _ =>
    match life.calls.getLast? with
    | some .detached => none
    | _ => some life.source

theorem SourceLife.Over.getLast? {life : SourceLife} (h : life.Over env) :
    life.calls.getLast? = some .detached := by
  rcases h with h | ⟨l, count, h, -⟩
  · rw [h]
    rfl
  · rw [h, List.getLast?_append]
    rfl

theorem SourceLife.Attended.getLast? {life : SourceLife} (h : life.Attended env) :
    life.calls.getLast? ≠ some .detached := by
  obtain ⟨l, count, h, -⟩ := h
  intro hlast
  have hmem := List.mem_of_getLast? hlast
  rw [h] at hmem
  rcases List.mem_cons.1 hmem with heq | hmem
  · cases heq
  · cases List.eq_of_mem_replicate hmem

/-- A source is not pulled from once it was detached. -/
theorem SourceLife.Over.pulled {life : SourceLife} (h : life.Over env)
    {earlier later : List SourceCall} (hcalls : life.calls = earlier ++ .pulled :: later) :
    (∃ l, SourceCall.attached l ∈ earlier) ∧ SourceCall.detached ∉ earlier := by
  have hfront : life.calls.dropLast = earlier ++ (SourceCall.pulled :: later).dropLast := by
    rw [hcalls, List.dropLast_append_of_ne_nil (List.cons_ne_nil _ _)]
  rcases h with h | ⟨l, count, h, -⟩
  · -- the only call is `on_detached`
    rw [h] at hcalls
    cases earlier with
    | nil => cases (List.cons.inj hcalls).1
    | cons call earlier => cases earlier <;> cases (List.cons.inj hcalls).2
  · rw [h, List.dropLast_concat] at hfront
    refine ⟨⟨l, ?_⟩, fun hmem => ?_⟩
    · cases earlier with
      | nil =>
        rw [h] at hcalls
        cases (List.cons.inj hcalls).1
      | cons call earlier =>
        rw [(List.cons.inj hfront).1]
        exact List.mem_cons_self
    · have hmem' : SourceCall.detached ∈
          SourceCall.attached l :: List.replicate count SourceCall.pulled := by
        rw [hfront]
        exact List.mem_append_left _ hmem
      rcases List.mem_cons.1 hmem' with heq | hmem'
      · cases heq
      · cases List.eq_of_mem_replicate hmem'

theorem Lifecycle.held (h : Lifecycle env c) :
    ∃ s, sources env c.trace = some s ∧ c.stream = s.held := by
  cases h with
  | free h =>
    obtain ⟨lives, hs, hnone, hover⟩ := h
    refine ⟨_, hs, hnone.trans ?_⟩
    cases lives with
    | nil => rfl
    | cons life lives =>
      rw [Sources.held]
      dsimp only
      rw [(hover life List.mem_cons_self).getLast?]
  | taken life h _ hcalls _ =>
    obtain ⟨lives, hs, hsome, -⟩ := h
    refine ⟨_, hs, hsome.trans ?_⟩
    rw [Sources.held]
    dsimp only
    rw [hcalls]
    rfl
  | attached life h _ hcalls =>
    obtain ⟨lives, hs, hsome, -⟩ := h
    refine ⟨_, hs, hsome.trans ?_⟩
    rw [Sources.held]
    dsimp only
    split
    · rename_i hlast
      exact absurd hlast hcalls.getLast?
    · rfl

/-- The destructor. -/
def destroy (c : Connection σ) : Connection σ := c.releaseStreamSource

variable (env) in
theorem run_lifecycle (transport : σ) (occurrences : List (Occurrence σ)) :
    Lifecycle env (run env (init env transport) occurrences) :=
  (run_steps env _ occurrences).induct (fun _ _ => action_lifecycle)
    (.free ⟨[], rfl, rfl, nofun⟩)

/-- **The lifecycle of a stream source.**  After any run, the source that a connection holds is the
one it took last, if that was not released.  Once the connection is destroyed, the sources are those
of the stream responses it dispatched, and each got `on_detached` last and once; before it, if at
all, `on_attached` once, for a request other than HEAD and when every byte of the head was accepted,
and then any number of calls of `pull`.  So no source is pulled from after `on_detached`. -/
theorem stream_source_lifecycle (env : Environment σ) (transport : σ)
    (occurrences : List (Occurrence σ)) :
    let c := run env (init env transport) occurrences
    (∃ s, sources env c.trace = some s ∧ c.stream = s.held) ∧
      ∃ s, sources env c.destroy.trace = some s ∧ s.ledger = c.ledger ∧
        s.lives.reverse.map (fun life => (life.request, life.source)) =
          (s.ledger.dispatches.filterMap fun d =>
            (answer env d.request).stream.map fun source => (d.request, source)) ∧
        ∀ life ∈ s.lives, life.Over env ∧
          ∀ earlier later, life.calls = earlier ++ .pulled :: later →
            (∃ l, SourceCall.attached l ∈ earlier) ∧ SourceCall.detached ∉ earlier := by
  intro c
  have h := run_lifecycle env transport occurrences
  obtain ⟨lives, hs, -, hover⟩ := h.release
  refine ⟨h.held, _, hs, c.ledger_releaseStreamSource, (sources_taken hs).2, fun life hlife => ?_⟩
  exact ⟨hover life hlife, fun earlier later hcalls => (hover life hlife).pulled hcalls⟩

end Connection

end ErikslundHttp
