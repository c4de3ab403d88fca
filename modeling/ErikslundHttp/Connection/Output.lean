import ErikslundHttp.Connection.RequestDeadline

/-!
# The output of a connection

The bytes of a connection leave it through its write vectors: `write_offset_` counts how many of
them the transport has accepted.  The vectors are replaced only when nothing of them is left to
send.  The events that say so are the `turns`: a response was completed, a stream attached, or its
source pulled.

* `Effect` is what an action may do to the vectors, the offset and the transport.
* `action_effect`: every action has one of these effects.
* `Outputs` says how far the output of an earlier state has come in a later one.
-/

namespace ErikslundHttp

/-- The event is a call of `writev`. -/
def Event.isWritev : Event → Bool
  | .writev _ _ _ => true
  | _ => false

/-- The event comes after the last byte of the vectors. -/
def Event.turns : Event → Bool
  | .completed | .attached | .pulled _ _ => true
  | _ => false

/-- The bytes that were accepted at the event. -/
def Event.sends : Event → Bytes
  | .writev vectors .ok accepted => vectors.flatten.take accepted
  | _ => []

namespace Connection

variable {σ : Type}

/-! ### Effects -/

/-- The events neither write nor turn. -/
def Quiet (events : List (ℕ × Event)) : Prop :=
  ∀ entry ∈ events, entry.2.isWritev = false ∧ entry.2.turns = false

/-- What happens to a transport other than a write. -/
inductive Moves (env : Environment σ) (world : σ → σ → Prop) : σ → σ → Prop
  | same {s : σ} : Moves env world s s
  | handshake {s : σ} : Moves env world s (env.transport.handshake s).2
  | read {s : σ} (capacity : ℕ) : Moves env world s (env.transport.read s capacity).2.2
  | shutdown {s : σ} : Moves env world s (env.transport.shutdown s).2
  | elsewhere {s s' : σ} (hworld : world s s') : Moves env world s s'

/-- Nothing was written, and no vectors were dropped. -/
structure Passes (env : Environment σ) (world : σ → σ → Prop) (c c' : Connection σ) : Prop where
  /-- It adds events that send nothing. -/
  trace : ∃ events, Quiet events ∧ c'.trace = c.trace ++ events
  /-- The transport makes moves of its own only. -/
  moves : Moves env world c.transport c'.transport

/-- The connection has a response to send. -/
def outputs (c : Connection σ) : Prop := c.state = .writing ∨ c.state = .streaming

/-- What an action does to the output. -/
inductive Effect (env : Environment σ) (world : σ → σ → Prop) (c c' : Connection σ) : Prop
  | reads (hstate : c.state.isReading = true) (hstate' : c'.state.isReading = true)
      (h : Passes env world c c')
  | begins (hstate : c.state.isReading = true) (hstate' : c'.state = .writing)
      (hoffset : c'.writeOffset = 0) (h : Passes env world c c')
  | stays (hstate : c'.state = c.state) (hvectors : c'.writeVectors = c.writeVectors)
      (hoffset : c'.writeOffset = c.writeOffset) (h : Passes env world c c')
  | writes {c₁ : Connection σ} {status : TransportStatus} {accepted : ℕ} (houtputs : c.outputs)
      (hunsent : c.unsent ≠ []) (hwrite : writev env c = (c₁, status, accepted))
      (hstate : c'.state = c.state) (hvectors : c'.writeVectors = c.writeVectors)
      (hoffset : c'.writeOffset = c.writeOffset + if status = .ok then accepted else 0)
      (htrace : c'.trace = c₁.trace) (htransport : c'.transport = c₁.transport)
  | fails {c₁ : Connection σ} {status : TransportStatus} {accepted : ℕ} (houtputs : c.outputs)
      (hunsent : c.unsent ≠ []) (hwrite : writev env c = (c₁, status, accepted))
      (hterminal : status.isTerminal = true) (hstate : c'.state = .closing)
      (h : Passes env world c₁ c')
  | turns (entry : ℕ × Event) (houtputs : c.outputs) (hunsent : c.unsent = [])
      (hentry : entry.2.turns = true)
      (htrace : ∃ events, Quiet events ∧ c'.trace = c.trace ++ [entry] ++ events)
      (hmoves : Moves env world c.transport c'.transport)
      (hstate : entry.2 = .completed ∧ c.state = .writing ∧ c'.state.isReading = true ∨
        c'.state = .closing ∨ c'.state = .streaming ∧ c'.writeOffset = 0)
  | settles (hstate : c.state = .streaming) (hunsent : c.unsent = [])
      (hstate' : c'.state = .streaming) (hsettled : Settled c') (htrace : c'.trace = c.trace)
      (htransport : c'.transport = c.transport)
  | closes (hstate : c'.state = .closing) (h : Passes env world c c')

variable {env : Environment σ} {world : σ → σ → Prop} {c c' : Connection σ}

/-! ### The parts of an action -/

theorem Quiet.nil : Quiet [] := fun _ hentry => absurd hentry List.not_mem_nil

theorem Quiet.single {entry : ℕ × Event} (hwritev : entry.2.isWritev = false)
    (hturns : entry.2.turns = false) : Quiet [entry] := by
  intro e he
  rw [List.mem_singleton.1 he]
  exact ⟨hwritev, hturns⟩

theorem Quiet.append {events later : List (ℕ × Event)} (h : Quiet events) (h' : Quiet later) :
    Quiet (events ++ later) := by
  intro entry hentry
  exact (List.mem_append.1 hentry).elim (h entry) (h' entry)

/-- Only the transport changed. -/
theorem Passes.of_eq (htrace : c'.trace = c.trace)
    (hmoves : Moves env world c.transport c'.transport) : Passes env world c c' :=
  ⟨⟨[], .nil, by rw [htrace, List.append_nil]⟩, hmoves⟩

/-- One more event. -/
theorem Passes.of_concat {entry : ℕ × Event} (htrace : c'.trace = c.trace ++ [entry])
    (hwritev : entry.2.isWritev = false) (hturns : entry.2.turns = false)
    (hmoves : Moves env world c.transport c'.transport) : Passes env world c c' :=
  ⟨⟨[entry], .single hwritev hturns, htrace⟩, hmoves⟩

theorem releaseStreamSource_quiet (c : Connection σ) :
    ∃ events, Quiet events ∧ c.releaseStreamSource.trace = c.trace ++ events := by
  rw [releaseStreamSource]
  dsimp only
  split
  · exact ⟨[(c.ticks, .detached)], .single rfl rfl, rfl⟩
  · exact ⟨[], .nil, (List.append_nil _).symm⟩

variable (env world) in
theorem beginClose_passes (c : Connection σ) : Passes env world c (beginClose env c) := by
  rw [beginClose]
  split_ifs
  · exact .of_eq rfl .same
  · refine ⟨c.releaseStreamSource_quiet, ?_⟩
    obtain ⟨trace, heq⟩ := c.releaseStreamSource_frame
    have htransport : c.releaseStreamSource.transport = c.transport := by rw [heq]
    show Moves env world c.transport (env.transport.shutdown c.releaseStreamSource.transport).2
    rw [htransport]
    exact .shutdown

theorem completeResponse_turns (c : Connection σ) : ∃ events, Quiet events ∧
    c.completeResponse.trace = c.trace ++ [(c.ticks, .completed)] ++ events :=
  releaseStreamSource_quiet { c.record .completed with requestsServed := c.requestsServed + 1 }

theorem read_passes {status : TransportStatus} {bytes : Bytes}
    (h : read env c = (c', status, bytes)) : Passes env world c c' := by
  refine .of_concat (trace_read h) rfl rfl ?_
  simp only [Connection.read, Prod.mk.injEq] at h
  obtain ⟨rfl, -, -⟩ := h
  exact .read _

theorem discard_passes {status : TransportStatus} {bytes : Bytes}
    (h : discard env c = (c', status, bytes)) : Passes env world c c' := by
  simp only [discard, Prod.mk.injEq] at h
  obtain ⟨rfl, -, -⟩ := h
  -- The one event is what the discarded bytes leave in the trace.
  exact ⟨⟨[(c.ticks, .drained _ _)], .single rfl rfl, rfl⟩, .read _⟩

theorem parse_passes {result : Except ParseError (ParsedRequest View)}
    (h : parse env c = (result, c')) : Passes env world c c' := by
  obtain ⟨_, rfl⟩ := parse_frame h
  exact .of_eq rfl .same

variable (env world) in
theorem serve_passes (parsed : ParsedRequest View) (c : Connection σ) :
    Passes env world c (serve env parsed c) ∧ (serve env parsed c).writeOffset = 0 := by
  have hconsumed : Quiet [(c.ticks, Event.consumed c.readBuffer.size parsed.consumedBytes)] :=
    .single rfl rfl
  rw [serve, dispatchAndSerialize]
  split
  · exact ⟨⟨⟨_, hconsumed, rfl⟩, .same⟩, rfl⟩
  · have hdispatched : Quiet [(c.ticks + 1, Event.dispatched
        ((attach env parsed.request (env.steadyClock c.ticks)).map View.bytes)
        (env.systemClock (c.ticks + 1)))] := .single rfl rfl
    refine ⟨⟨⟨_, hconsumed.append hdispatched, ?_⟩, .same⟩, rfl⟩
    rw [← List.append_assoc]
    rfl

variable (env world) in
theorem reject_passes (status : Status) (c : Connection σ) :
    Passes env world c (reject env status c) ∧ (reject env status c).writeOffset = 0 :=
  ⟨.of_concat (trace_reject env status c) rfl rfl .same, rfl⟩

theorem Passes.trans_eq {c'' : Connection σ} (h : Passes env world c c')
    (htrace : c''.trace = c'.trace) (htransport : c''.transport = c'.transport) :
    Passes env world c c'' := by
  obtain ⟨events, hquiet, heq⟩ := h.trace
  exact ⟨⟨events, hquiet, htrace.trans heq⟩, htransport ▸ h.moves⟩

/-- The first of two passes leaves the transport as it is. -/
theorem Passes.eq_trans {c₀ : Connection σ} (htrace : c.trace = c₀.trace)
    (htransport : c.transport = c₀.transport) (h : Passes env world c c') :
    Passes env world c₀ c' := by
  obtain ⟨events, hquiet, heq⟩ := h.trace
  exact ⟨⟨events, hquiet, htrace ▸ heq⟩, htransport ▸ h.moves⟩

theorem parse_same {result : Except ParseError (ParsedRequest View)}
    (h : parse env c = (result, c')) : c'.trace = c.trace ∧ c'.transport = c.transport := by
  obtain ⟨_, rfl⟩ := parse_frame h
  exact ⟨rfl, rfl⟩

variable (env) in
theorem noteFirstBytes_same (c : Connection σ) : (noteFirstBytes env c).trace = c.trace ∧
    (noteFirstBytes env c).transport = c.transport := by
  rw [noteFirstBytes]
  split_ifs
  · exact ⟨rfl, rfl⟩
  · exact ⟨rfl, rfl⟩

/-- A call of `pull`, and what follows it. -/
theorem effect_pull {c₁ : Connection σ} {source : StreamSource} {scratch : Bytes} {answer : Pull}
    (hstate : c.state = .streaming) (hsettled : Settled c)
    (hpull : c.pull source = (c₁, scratch, answer)) (h : Passes env world c₁ c')
    (hstate' : c'.state = .closing ∨ c'.state = .streaming ∧ c'.writeOffset = 0) :
    Effect env world c c' := by
  obtain ⟨events, hquiet, heq⟩ := h.trace
  have hmoves := h.moves
  simp only [Connection.pull, Prod.mk.injEq] at hpull
  obtain ⟨rfl, -, -⟩ := hpull
  exact .turns (c.ticks, .pulled _ _) (.inr hstate) hsettled.unsent_eq rfl ⟨events, hquiet, heq⟩
    hmoves (.inr hstate')

theorem pull_offset {source : StreamSource} {scratch : Bytes} {answer : Pull}
    (h : c.pull source = (c', scratch, answer)) : c'.writeOffset = c.writeOffset := by
  obtain ⟨trace, rfl⟩ := pull_frame h
  rfl

/-- A write that leaves the connection open. -/
theorem effect_write {c₁ : Connection σ} {status : TransportStatus} {accepted : ℕ}
    (houtputs : c.outputs) (hunsent : c.unsent ≠ [])
    (hwrite : writev env c = (c₁, status, accepted)) (hstate : c'.state = c₁.state)
    (hvectors : c'.writeVectors = c₁.writeVectors)
    (hoffset : c'.writeOffset = c₁.writeOffset + if status = .ok then accepted else 0)
    (htrace : c'.trace = c₁.trace) (htransport : c'.transport = c₁.transport) :
    Effect env world c c' := by
  obtain ⟨transport, trace, heq⟩ := writev_frame hwrite
  have hsame : c₁.state = c.state ∧ c₁.writeVectors = c.writeVectors ∧
      c₁.writeOffset = c.writeOffset := by
    rw [heq]
    exact ⟨rfl, rfl, rfl⟩
  obtain ⟨hstate₁, hvectors₁, hoffset₁⟩ := hsame
  exact .writes houtputs hunsent hwrite (hstate.trans hstate₁) (hvectors.trans hvectors₁)
    (hoffset₁ ▸ hoffset) htrace htransport

/-- A write that accepted nothing counts nothing. -/
theorem ite_accepted {status : TransportStatus} {accepted : ℕ}
    (hnothing : status ≠ .ok ∨ accepted = 0) : (if status = .ok then accepted else 0) = 0 := by
  split_ifs with hok
  · exact hnothing.resolve_left (not_not.2 hok)
  · rfl

variable (env) in
theorem awaitWriteProgress_frame (c : Connection σ) : ∃ waiting deadline ticks,
    awaitWriteProgress env c = { c with
      streamWaitingForWriteProgress := waiting, deadline := deadline, ticks := ticks } := by
  rw [awaitWriteProgress]
  split_ifs
  · exact ⟨_, _, _, rfl⟩
  · exact ⟨_, _, _, rfl⟩

/-- Every action has one of the effects. -/
theorem action_effect (h : Action env world c c') : Effect env world c c' := by
  have hreads : ∀ {state : ConnectionState}, c.state = state → state.isReading = true →
      c.state.isReading = true := by
    intro state hstate hreading
    rw [hstate]
    exact hreading
  cases h with
  | handshake hstate => exact .stays rfl rfl rfl (.of_eq rfl .handshake)
  | handshaken hstate => exact .reads (hreads hstate rfl) rfl (.of_eq rfl .same)
  | readNothing hstate _ hread _ =>
    have hreading := isReading_of_readsRequests hstate
    exact .reads hreading ((read_state hread).symm ▸ hreading) (read_passes hread)
  | @readHead c₁ bytes hstate _ hread _ =>
    obtain ⟨htrace, htransport⟩ := noteFirstBytes_same env (c₁.commit bytes)
    refine .reads (hreads hstate rfl) ?_ ((read_passes hread).trans_eq htrace htransport)
    rw [state_noteFirstBytes]
    exact (read_state hread).symm ▸ hreads hstate rfl
  | readBody hstate _ hread _ =>
    refine .reads (hreads hstate rfl) ?_ ((read_passes hread).trans_eq rfl rfl)
    exact (read_state hread).symm ▸ hreads hstate rfl
  | parseShort hstate hparse =>
    have hreading := isReading_of_readsRequests hstate
    exact .reads hreading ((parse_state hparse).symm ▸ hreading) (parse_passes hparse)
  | awaitBody hstate _ _ _ => exact .reads (hreads hstate rfl) rfl (.of_eq rfl .same)
  | @serve c₁ parsed hstate hparse =>
    obtain ⟨hpasses, hoffset⟩ := serve_passes env world parsed c₁
    obtain ⟨htrace, htransport⟩ := parse_same hparse
    exact .begins (isReading_of_readsRequests hstate) rfl hoffset
      (hpasses.eq_trans htrace htransport)
  | @reject c₁ error hstate hparse _ =>
    obtain ⟨hpasses, hoffset⟩ := reject_passes env world error.status c₁
    obtain ⟨htrace, htransport⟩ := parse_same hparse
    exact .begins (isReading_of_readsRequests hstate) rfl hoffset
      (hpasses.eq_trans htrace htransport)
  | timeOut hstate _ =>
    obtain ⟨hpasses, hoffset⟩ := reject_passes env world .requestTimeout c
    exact .begins (isReading_of_readsRequests hstate) rfl hoffset hpasses
  | writeNothing hstate hunsent hwrite hnothing =>
    refine effect_write (.inl hstate) hunsent hwrite rfl rfl ?_ rfl rfl
    rw [ite_accepted hnothing, Nat.add_zero]
  | write hstate hunsent hwrite _ =>
    refine effect_write (.inl hstate) hunsent hwrite rfl rfl ?_ rfl rfl
    rw [if_pos rfl]
    rfl
  | nextRequest hstate hunsent _ =>
    obtain ⟨trace, heq⟩ := c.completeResponse_frame.2
    have htransport : c.completeResponse.transport = c.transport := by rw [heq]; rfl
    refine .turns (c.ticks, .completed) (.inl hstate) hunsent rfl c.completeResponse_turns ?_
      (.inl ⟨rfl, hstate, rfl⟩)
    show Moves env world c.transport c.completeResponse.transport
    rw [htransport]
    exact .same
  | lastResponse hstate hunsent _ _ =>
    obtain ⟨events, hquiet, htrace⟩ := c.completeResponse_turns
    obtain ⟨later, hquiet', htrace'⟩ := (beginClose_passes env world c.completeResponse).trace
    obtain ⟨trace, heq⟩ := c.completeResponse_frame.2
    have htransport : c.completeResponse.transport = c.transport := by rw [heq]; rfl
    refine .turns (c.ticks, .completed) (.inl hstate) hunsent rfl
      ⟨events ++ later, hquiet.append hquiet', ?_⟩ ?_ (.inr (.inl (state_beginClose env _)))
    · rw [htrace', htrace, List.append_assoc]
    · rw [← htransport]
      exact (beginClose_passes env world c.completeResponse).moves
  | attach source hstate hunsent _ _ _ _ =>
    exact .turns (c.ticks, .attached) (.inl hstate) hunsent rfl
      ⟨[], .nil, (List.append_nil _).symm⟩ .same (.inr (.inr ⟨rfl, rfl⟩))
  | attachThrows source hstate hunsent _ _ _ _ =>
    obtain ⟨later, hquiet, htrace⟩ := (beginClose_passes env world c.attachStream).trace
    exact .turns (c.ticks, .attached) (.inl hstate) hunsent rfl ⟨later, hquiet, htrace⟩
      (beginClose_passes env world c.attachStream).moves (.inr (.inl (state_beginClose env _)))
  | @streamNothing c₁ status accepted hstate hunsent hwrite _ hnothing =>
    obtain ⟨waiting, deadline, ticks, heq⟩ := awaitWriteProgress_frame env c₁
    rw [heq]
    refine effect_write (.inr hstate) hunsent hwrite rfl rfl ?_ rfl rfl
    rw [ite_accepted hnothing, Nat.add_zero]
  | streamWrite hstate hunsent hwrite _ =>
    refine effect_write (.inr hstate) hunsent hwrite rfl rfl ?_ rfl rfl
    rw [if_pos rfl]
    rfl
  | streamFailed hstate hunsent hwrite hterminal =>
    exact .fails (.inr hstate) hunsent hwrite hterminal (state_beginClose env _)
      (beginClose_passes env world _)
  | settle hstate hunsent =>
    obtain ⟨hsettled, hstate'⟩ := settleWrites_settled env c.pendingBytes c
    refine .settles hstate hunsent (hstate'.trans hstate) hsettled ?_ ?_
    · rw [settleWrites]
      split_ifs <;> rfl
    · rw [settleWrites]
      split_ifs <;> rfl
  | pullNothing source hstate hsettled _ hpull _ =>
    exact effect_pull hstate hsettled hpull (.of_eq rfl .same)
      (.inr ⟨(pull_state hpull).trans hstate, (pull_offset hpull).trans hsettled.offset⟩)
  | pullBytes source hstate hsettled _ hpull _ =>
    exact effect_pull hstate hsettled hpull (.of_eq rfl .same)
      (.inr ⟨(pull_state hpull).trans hstate, (pull_offset hpull).trans hsettled.offset⟩)
  | @pullLast c₁ source scratch hstate hsettled _ hpull _ =>
    obtain ⟨trace, heq⟩ :=
      (appendToWriteBuffer env scratch c₁).pushWriteBuffer.releaseStreamSource_frame
    refine effect_pull hstate hsettled hpull
      ⟨(appendToWriteBuffer env scratch c₁).pushWriteBuffer.releaseStreamSource_quiet, ?_⟩
      (.inr ⟨?_, ?_⟩)
    · rw [heq]
      exact .same
    · rw [heq]
      exact (pull_state hpull).trans hstate
    · rw [heq]
      exact (pull_offset hpull).trans hsettled.offset
  | pullEnd source hstate hsettled _ hpull =>
    exact effect_pull hstate hsettled hpull (beginClose_passes env world _)
      (.inl (state_beginClose env _))
  | close => exact .closes (state_beginClose env c) (beginClose_passes env world c)
  | discard hstate hread =>
    exact .closes ((discard_frame hread).2.2.trans hstate) (discard_passes hread)
  | elsewhere transport hworld => exact .stays rfl rfl rfl (.of_eq rfl (.elsewhere hworld))

/-! ### The bytes sent -/

/-- The bytes that were accepted at the events, in order. -/
def sentIn (events : List (ℕ × Event)) : Bytes := events.flatMap fun entry => entry.2.sends

/-- A transport that counts what it accepts. -/
structure Metered (env : Environment σ) (world : σ → σ → Prop) (meter : σ → Bytes) : Prop where
  /-- What is not a write sends nothing. -/
  moves : ∀ s s', Moves env world s s' → meter s' = meter s
  /-- A write sends the beginning that it reports. -/
  writev : ∀ s vectors, meter (env.transport.writev s vectors).2.2 = meter s ++
    if (env.transport.writev s vectors).1 = .ok then
      vectors.flatten.take (env.transport.writev s vectors).2.1 else []

theorem sentIn_append (events later : List (ℕ × Event)) :
    sentIn (events ++ later) = sentIn events ++ sentIn later := List.flatMap_append

theorem sentIn_single (entry : ℕ × Event) : sentIn [entry] = entry.2.sends :=
  List.flatMap_singleton _ _

theorem sends_eq_nil {event : Event} (h : event.isWritev = false) : event.sends = [] := by
  cases event with
  | writev _ _ _ => cases h
  | _ => rfl

theorem sends_eq_nil_of_turns {event : Event} (h : event.turns = true) : event.sends = [] := by
  cases event with
  | writev _ _ _ => cases h
  | _ => rfl

theorem Quiet.sentIn_eq {events : List (ℕ × Event)} (h : Quiet events) : sentIn events = [] :=
  List.flatMap_eq_nil_iff.2 fun entry hentry => sends_eq_nil (h entry hentry).1

theorem sent_post (l : Ledger) (event : Event) : (l.post event).sent = l.sent ++ event.sends := by
  cases event with
  | read _ status _ => cases status <;> exact (List.append_nil _).symm
  | writev _ status _ => cases status <;> first | rfl | exact (List.append_nil _).symm
  | _ => exact (List.append_nil _).symm

/-- The ledger has the bytes sent in the trace. -/
theorem ledger_sent (c : Connection σ) : c.ledger.sent = sentIn c.trace := by
  rw [ledger]
  induction c.trace using List.reverseRecOn with
  | nil => rfl
  | append_singleton trace entry ih =>
    rw [List.foldl_concat, sent_post, ih, sentIn_append, sentIn_single]

theorem sends_writev (vectors : List Bytes) (status : TransportStatus) (accepted : ℕ) :
    (Event.writev vectors status accepted).sends =
      if status = .ok then vectors.flatten.take accepted else [] := by
  cases status <;> rfl

section Meter

variable {meter : σ → Bytes}

theorem Metered.passes (h : Metered env world meter) (hc : Passes env world c c') :
    meter c'.transport = meter c.transport := h.moves _ _ hc.moves

theorem Metered.writes (h : Metered env world meter) {status : TransportStatus} {accepted : ℕ}
    (hwrite : Connection.writev env c = (c', status, accepted)) : ∃ entry,
      c'.trace = c.trace ++ [entry] ∧ meter c'.transport = meter c.transport ++ entry.2.sends ∧
      entry.2.sends = (if status = .ok then c.unsent.take accepted else []) ∧
      accepted ≤ c.unsent.length ∧ entry.2.turns = false := by
  have htrace := trace_writev hwrite
  have hle := env.transport.writev_le c.transport (batchFrom c.writeOffset c.writeVectors)
  have hmeter := h.writev c.transport (batchFrom c.writeOffset c.writeVectors)
  rw [flatten_batchFrom] at hle hmeter
  simp only [Connection.writev, Prod.mk.injEq] at hwrite
  obtain ⟨rfl, rfl, rfl⟩ := hwrite
  refine ⟨_, htrace, ?_, ?_, hle, rfl⟩
  · rw [sends_writev, flatten_batchFrom]
    exact hmeter
  · rw [sends_writev, flatten_batchFrom]
    rfl

/-- The meter counts the bytes of the trace. -/
theorem Metered.effect (h : Metered env world meter) (heffect : Effect env world c c') :
    ∃ events, c'.trace = c.trace ++ events ∧
      meter c'.transport = meter c.transport ++ sentIn events := by
  have hpasses : ∀ {c₁ c₂ : Connection σ}, Passes env world c₁ c₂ →
      ∃ events, c₂.trace = c₁.trace ++ events ∧
        meter c₂.transport = meter c₁.transport ++ sentIn events := by
    intro c₁ c₂ hc
    obtain ⟨events, hquiet, htrace⟩ := hc.trace
    refine ⟨events, htrace, ?_⟩
    rw [hquiet.sentIn_eq, List.append_nil]
    exact h.passes hc
  cases heffect with
  | reads _ _ hc => exact hpasses hc
  | begins _ _ _ hc => exact hpasses hc
  | stays _ _ _ hc => exact hpasses hc
  | writes _ _ hwrite _ _ _ htrace htransport =>
    obtain ⟨entry, htrace₁, hmeter, -⟩ := h.writes hwrite
    refine ⟨[entry], htrace.trans htrace₁, ?_⟩
    rw [htransport, hmeter, sentIn_single]
  | fails _ _ hwrite _ _ hc =>
    obtain ⟨entry, htrace₁, hmeter₁, -⟩ := h.writes hwrite
    obtain ⟨events, htrace, hmeter⟩ := hpasses hc
    refine ⟨[entry] ++ events, ?_, ?_⟩
    · rw [htrace, htrace₁, List.append_assoc]
    · rw [hmeter, hmeter₁, sentIn_append, sentIn_single, List.append_assoc]
  | turns entry _ _ hentry htrace hmoves _ =>
    obtain ⟨events, hquiet, htrace⟩ := htrace
    refine ⟨[entry] ++ events, by rw [htrace, List.append_assoc], ?_⟩
    have hsends := sends_eq_nil_of_turns hentry
    rw [sentIn_append, hquiet.sentIn_eq, sentIn_single, hsends, List.append_nil, List.append_nil]
    exact h.moves _ _ hmoves
  | settles _ _ _ _ htrace htransport =>
    exact ⟨[], by rw [htrace, List.append_nil], by rw [htransport]; exact (List.append_nil _).symm⟩
  | closes _ hc => exact hpasses hc

end Meter

/-! ### The output since a call -/

/-- Up to the first turn, a part of `output` was sent; all of it, if there was one. -/
def SentInOrder (output : Bytes) (events : List (ℕ × Event)) : Prop :=
  ∀ before later, events = before ++ later → (∀ entry ∈ before, entry.2.turns = false) →
    sentIn before <+: output ∧
      ∀ entry ∈ later.head?, entry.2.turns = true → sentIn before = output

theorem SentInOrder.nil (output : Bytes) : SentInOrder output [] := by
  intro before later heq _
  obtain ⟨rfl, rfl⟩ := List.append_eq_nil_iff.1 heq.symm
  exact ⟨List.nil_prefix, by simp⟩

theorem SentInOrder.concat {output : Bytes} {events : List (ℕ × Event)}
    (h : SentInOrder output events) {entry : ℕ × Event}
    (hnext : (∀ e ∈ events ++ [entry], e.2.turns = false) →
      sentIn (events ++ [entry]) <+: output)
    (hturn : (∀ e ∈ events, e.2.turns = false) → entry.2.turns = true →
      sentIn events = output) :
    SentInOrder output (events ++ [entry]) := by
  intro before later heq hnone
  rcases List.eq_nil_or_concat later with rfl | ⟨later, last, rfl⟩
  · rw [List.append_nil] at heq
    subst heq
    exact ⟨hnext hnone, by simp⟩
  · rw [List.concat_eq_append, ← List.append_assoc] at heq
    obtain ⟨rfl, hlast⟩ := List.append_inj' heq rfl
    obtain ⟨hsent, hall⟩ := h before later rfl hnone
    refine ⟨hsent, fun e he hturns => ?_⟩
    cases later with
    | nil =>
      simp only [List.append_nil] at hturn
      cases hlast
      simp only [List.concat_eq_append, List.nil_append, List.head?_cons, Option.mem_def,
        Option.some.injEq] at he
      subst he
      exact hturn hnone hturns
    | cons first later => exact hall e (by simpa using he) hturns

/-- After a turn, anything may be sent. -/
theorem SentInOrder.append_turned {output : Bytes} {events : List (ℕ × Event)}
    (h : SentInOrder output events) (hturned : ∃ entry ∈ events, entry.2.turns = true)
    (later : List (ℕ × Event)) : SentInOrder output (events ++ later) := by
  obtain ⟨entry, hentry, hturns⟩ := hturned
  induction later using List.reverseRecOn with
  | nil => rwa [List.append_nil]
  | append_singleton later last ih =>
    rw [← List.append_assoc]
    refine ih.concat (fun hnone => ?_) fun hnone _ => ?_
    · rw [hnone entry (List.mem_append_left _ (List.mem_append_left _ hentry))] at hturns
      cases hturns
    · rw [hnone entry (List.mem_append_left _ hentry)] at hturns
      cases hturns

theorem SentInOrder.append_quiet {output : Bytes} {events later : List (ℕ × Event)}
    (h : SentInOrder output events) (hquiet : Quiet later) :
    SentInOrder output (events ++ later) := by
  induction later using List.reverseRecOn with
  | nil => rwa [List.append_nil]
  | append_singleton later last ih =>
    have hlater := ih fun e he => hquiet e (List.mem_append_left _ he)
    obtain ⟨hwritev, hturns⟩ := hquiet last (by simp)
    rw [← List.append_assoc]
    refine hlater.concat (fun hnone => ?_) fun _ hyes => ?_
    · rw [sentIn_append, sentIn_single, sends_eq_nil hwritev, List.append_nil]
      exact (hlater _ [] (List.append_nil _).symm
        fun e he => hnone e (List.mem_append_left _ he)).1
    · rw [hturns] at hyes
      cases hyes

/-- Where the output of `c₀` stands in `c`, after `events`. -/
inductive Position (c₀ c : Connection σ) (events : List (ℕ × Event)) : Prop
  | turned (h : ∃ entry ∈ events, entry.2.turns = true)
  | closed (hstate : c.state = .closing)
  | within (hnone : ∀ entry ∈ events, entry.2.turns = false) (hstate : c.state = c₀.state)
      (hvectors : c.writeVectors = c₀.writeVectors)
      (hoffset : c.writeOffset = (sentIn events).length)
      (hsent : sentIn events = c₀.writeVectors.flatten.take c.writeOffset)
  | settled (hnone : ∀ entry ∈ events, entry.2.turns = false) (hstate : c.state = .streaming)
      (hstate₀ : c₀.state = .streaming) (hvectors : c.writeVectors = [])
      (hoffset : c.writeOffset = 0) (hsent : sentIn events = c₀.writeVectors.flatten)

/-- The output of `c₀`, in a later state `c`. -/
structure Outputs (meter : σ → Bytes) (c₀ c : Connection σ) (events : List (ℕ × Event)) :
    Prop where
  /-- These events came in between. -/
  trace : c.trace = c₀.trace ++ events
  /-- The transport has accepted what they sent. -/
  meter : meter c.transport = meter c₀.transport ++ sentIn events
  /-- The writes send the vectors from their beginning on, without a gap. -/
  order : SentInOrder c₀.writeVectors.flatten events
  /-- How far they have come. -/
  position : Position c₀ c events

theorem outputs_refl (meter : σ → Bytes) (hoffset : c.writeOffset = 0) :
    Outputs meter c c [] := by
  refine ⟨(List.append_nil _).symm, (List.append_nil _).symm, .nil _,
    .within (by simp) rfl rfl hoffset ?_⟩
  rw [hoffset, List.take_zero]
  rfl

theorem not_isReading (h : c.outputs) : c.state.isReading = false := by
  rcases h with h | h <;> rw [h] <;> rfl

theorem ne_closing (h : c.outputs) : c.state ≠ .closing := by
  rcases h with h | h <;> rw [h] <;> decide

/-- A connection that closes sends nothing. -/
theorem Effect.of_closing (h : Effect env world c c') (hstate : c.state = .closing) :
    Passes env world c c' ∧ c'.state = .closing := by
  have hreading : ¬ c.state.isReading = true := by
    rw [hstate]
    decide
  cases h with
  | reads h _ _ => exact absurd h hreading
  | begins h _ _ _ => exact absurd h hreading
  | stays hsame _ _ hc => exact ⟨hc, hsame.trans hstate⟩
  | writes h _ _ _ _ _ _ _ => exact absurd hstate (ne_closing h)
  | fails h _ _ _ _ _ => exact absurd hstate (ne_closing h)
  | turns _ h _ _ _ _ _ => exact absurd hstate (ne_closing h)
  | settles h _ _ _ _ _ => cases h.symm.trans hstate
  | closes hclosing hc => exact ⟨hc, hclosing⟩

section Meter

variable {meter : σ → Bytes} {c₀ : Connection σ} {events : List (ℕ × Event)}

theorem Outputs.passes (h : Outputs meter c₀ c events) (hmeter : Metered env world meter)
    (hc : Passes env world c c')
    (hposition : ∀ later, Quiet later → Position c₀ c' (events ++ later)) :
    ∃ later, Outputs meter c₀ c' later := by
  obtain ⟨later, hquiet, htrace⟩ := hc.trace
  refine ⟨events ++ later, ?_, ?_, h.order.append_quiet hquiet, hposition later hquiet⟩
  · rw [htrace, h.trace, List.append_assoc]
  · rw [hmeter.passes hc, h.meter, sentIn_append, hquiet.sentIn_eq, List.append_nil]

theorem Quiet.turns_append {later : List (ℕ × Event)} (h : Quiet later)
    (hnone : ∀ entry ∈ events, entry.2.turns = false) :
    ∀ entry ∈ events ++ later, entry.2.turns = false := by
  intro entry hentry
  exact (List.mem_append.1 hentry).elim (hnone entry) fun hlater => (h entry hlater).2

/-- Nothing happens to the output. -/
theorem Position.quiet (h : Position c₀ c events) {later : List (ℕ × Event)} (hquiet : Quiet later)
    (hstate : c'.state = c.state) (hvectors : c'.writeVectors = c.writeVectors)
    (hoffset : c'.writeOffset = c.writeOffset) : Position c₀ c' (events ++ later) := by
  have hsame : sentIn (events ++ later) = sentIn events := by
    rw [sentIn_append, hquiet.sentIn_eq, List.append_nil]
  cases h with
  | turned h =>
    obtain ⟨entry, hentry, hturns⟩ := h
    exact .turned ⟨entry, List.mem_append_left _ hentry, hturns⟩
  | closed h => exact .closed (hstate.trans h)
  | within hnone hstate₀ hvectors₀ hoffset₀ hsent =>
    refine .within (hquiet.turns_append hnone) (hstate.trans hstate₀)
      (hvectors.trans hvectors₀) ?_ ?_
    · rw [hsame, hoffset, hoffset₀]
    · rw [hsame, hoffset, hsent]
  | settled hnone hstreaming hstate₀ hvectors₀ hoffset₀ hsent =>
    exact .settled (hquiet.turns_append hnone) (hstate.trans hstreaming) hstate₀
      (hvectors.trans hvectors₀) (hoffset.trans hoffset₀) (hsame.trans hsent)

/-- The output is not over: the connection still sends it, or has sent it all. -/
theorem Position.outputs (h : Position c₀ c events) (hc₀ : c₀.outputs)
    (hnone : ∀ entry ∈ events, entry.2.turns = false) (hopen : c.state ≠ .closing) :
    c.outputs ∧ (c.unsent = [] → sentIn events = c₀.writeVectors.flatten) := by
  cases h with
  | turned h =>
    obtain ⟨entry, hentry, hturns⟩ := h
    rw [hnone entry hentry] at hturns
    cases hturns
  | closed h => exact absurd h hopen
  | within _ hstate hvectors _ hsent =>
    refine ⟨?_, fun hunsent => ?_⟩
    · rw [Connection.outputs, hstate]
      exact hc₀
    · rw [unsent, hvectors, List.drop_eq_nil_iff] at hunsent
      rw [hsent, List.take_of_length_le hunsent]
  | settled _ hstate _ _ _ hsent => exact ⟨.inr hstate, fun _ => hsent⟩

/-- A write goes on with the output where the last one ended. -/
theorem Position.writes (h : Position c₀ c events) (hunsent : c.unsent ≠ [])
    (hnone : ∀ entry ∈ events, entry.2.turns = false) (hopen : c.state ≠ .closing) :
    c.state = c₀.state ∧ c.writeVectors = c₀.writeVectors ∧
      c.writeOffset = (sentIn events).length ∧
      sentIn events = c₀.writeVectors.flatten.take c.writeOffset := by
  cases h with
  | turned h =>
    obtain ⟨entry, hentry, hturns⟩ := h
    rw [hnone entry hentry] at hturns
    cases hturns
  | closed h => exact absurd h hopen
  | within _ hstate hvectors hoffset hsent => exact ⟨hstate, hvectors, hoffset, hsent⟩
  | settled _ _ _ hvectors _ _ =>
    refine absurd ?_ hunsent
    rw [unsent, hvectors, List.flatten_nil, List.drop_nil]

/-- What a write sends is the next part of the output. -/
theorem Outputs.writev (h : Outputs meter c₀ c events) (hmeter : Metered env world meter)
    (houtputs : c.outputs) (hunsent : c.unsent ≠ [])
    (hnone : ∀ entry ∈ events, entry.2.turns = false)
    {status : TransportStatus} {accepted : ℕ}
    (hwrite : Connection.writev env c = (c', status, accepted)) :
    ∃ entry, c'.trace = c₀.trace ++ (events ++ [entry]) ∧ entry.2.turns = false ∧
      meter c'.transport = meter c₀.transport ++ sentIn (events ++ [entry]) ∧
      SentInOrder c₀.writeVectors.flatten (events ++ [entry]) ∧
      c.writeOffset + (if status = .ok then accepted else 0) = (sentIn (events ++ [entry])).length ∧
      sentIn (events ++ [entry]) = c₀.writeVectors.flatten.take
        (c.writeOffset + if status = .ok then accepted else 0) := by
  obtain ⟨-, hvectors, hoffset, hsent⟩ :=
    h.position.writes hunsent hnone (ne_closing houtputs)
  obtain ⟨entry, htrace, hcount, hsends, hle, hturns⟩ := hmeter.writes hwrite
  -- the bytes accepted follow the ones sent before
  have hnext : sentIn (events ++ [entry]) = c₀.writeVectors.flatten.take
      (c.writeOffset + if status = .ok then accepted else 0) := by
    rw [sentIn_append, sentIn_single, hsends, List.take_add, ← hsent, unsent, hvectors]
    split_ifs
    · rfl
    · rw [List.take_zero]
  have hlength : c.writeOffset + (if status = .ok then accepted else 0) =
      (sentIn (events ++ [entry])).length := by
    rw [sentIn_append, sentIn_single, hsends, List.length_append, ← hoffset]
    split_ifs
    · rw [List.length_take, Nat.min_eq_left hle]
    · rfl
  refine ⟨entry, ?_, hturns, ?_, ?_, hlength, hnext⟩
  · rw [htrace, h.trace, List.append_assoc]
  · rw [hcount, h.meter, sentIn_append, sentIn_single, List.append_assoc]
  · refine h.order.concat (fun _ => ?_) fun _ hyes => ?_
    · rw [hnext]
      exact List.take_prefix _ _
    · rw [hturns] at hyes
      cases hyes

/-- A turn comes when everything was sent. -/
theorem Outputs.turns (h : Outputs meter c₀ c events) (hmeter : Metered env world meter)
    (hsent : sentIn events = c₀.writeVectors.flatten) {entry : ℕ × Event}
    (hentry : entry.2.turns = true)
    (htrace : ∃ later, Quiet later ∧ c'.trace = c.trace ++ [entry] ++ later)
    (hmoves : Moves env world c.transport c'.transport) :
    ∃ later, Outputs meter c₀ c' later := by
  obtain ⟨later, hquiet, htrace⟩ := htrace
  have hsends := sends_eq_nil_of_turns hentry
  have hmem : entry ∈ events ++ [entry] := List.mem_append_right _ List.mem_cons_self
  refine ⟨events ++ [entry] ++ later, ?_, ?_, ?_,
    .turned ⟨entry, List.mem_append_left _ hmem, hentry⟩⟩
  · rw [htrace, h.trace]
    simp only [List.append_assoc]
  · rw [hmeter.moves _ _ hmoves, h.meter, sentIn_append, sentIn_append, hquiet.sentIn_eq,
      sentIn_single, hsends, List.append_nil, List.append_nil]
  · refine SentInOrder.append_quiet ?_ hquiet
    refine h.order.concat (fun hnone => ?_) fun _ _ => hsent
    rw [hnone entry hmem] at hentry
    cases hentry

theorem Outputs.effect (h : Outputs meter c₀ c events) (hmeter : Metered env world meter)
    (hc₀ : c₀.outputs) (heffect : Effect env world c c') : ∃ later, Outputs meter c₀ c' later := by
  by_cases hturned : ∃ entry ∈ events, entry.2.turns = true
  · obtain ⟨later, htrace, hcount⟩ := hmeter.effect heffect
    obtain ⟨entry, hentry, hturns⟩ := id hturned
    refine ⟨events ++ later, ?_, ?_, h.order.append_turned hturned later,
      .turned ⟨entry, List.mem_append_left _ hentry, hturns⟩⟩
    · rw [htrace, h.trace, List.append_assoc]
    · rw [hcount, h.meter, sentIn_append, List.append_assoc]
  by_cases hclosing : c.state = .closing
  · obtain ⟨hc, hclosing'⟩ := heffect.of_closing hclosing
    exact h.passes hmeter hc fun _ _ => .closed hclosing'
  -- before the first turn the output of `c₀` is sent
  have hnone : ∀ entry ∈ events, entry.2.turns = false := by
    intro entry hentry
    exact Bool.eq_false_of_not_eq_true fun hyes => hturned ⟨entry, hentry, hyes⟩
  obtain ⟨houtputs, hall⟩ := h.position.outputs hc₀ hnone hclosing
  have hreading := not_isReading houtputs
  cases heffect with
  | reads hstate _ _ => cases hreading.symm.trans hstate
  | begins hstate _ _ _ => cases hreading.symm.trans hstate
  | stays hstate hvectors hoffset hc =>
    exact h.passes hmeter hc fun later hquiet => h.position.quiet hquiet hstate hvectors hoffset
  | writes _ hunsent hwrite hstate hvectors hoffset htrace htransport =>
    obtain ⟨entry, htrace₁, hturns, hcount, horder, hlength, hsent⟩ :=
      h.writev hmeter houtputs hunsent hnone hwrite
    obtain ⟨hstate₀, hvectors₀, -⟩ := h.position.writes hunsent hnone hclosing
    refine ⟨events ++ [entry], htrace.trans htrace₁, by rw [htransport, hcount], horder,
      .within ?_ (hstate.trans hstate₀) (hvectors.trans hvectors₀) (hoffset.trans hlength) ?_⟩
    · intro e he
      exact (List.mem_append.1 he).elim (hnone e) fun hlast =>
        (List.mem_singleton.1 hlast).symm ▸ hturns
    · rw [hoffset]
      exact hsent
  | fails _ hunsent hwrite _ hstate hc =>
    obtain ⟨entry, htrace₁, -, hcount, horder, -⟩ := h.writev hmeter houtputs hunsent hnone hwrite
    obtain ⟨later, hquiet, htrace⟩ := hc.trace
    refine ⟨events ++ [entry] ++ later, ?_, ?_, horder.append_quiet hquiet, .closed hstate⟩
    · rw [htrace, htrace₁, List.append_assoc]
    · rw [hmeter.passes hc, hcount, sentIn_append _ later, hquiet.sentIn_eq, List.append_nil]
  | turns entry _ hunsent hentry htrace hmoves _ =>
    exact h.turns hmeter (hall hunsent) hentry htrace hmoves
  | settles hstate hunsent hstate' hsettled htrace htransport =>
    refine ⟨events, htrace.trans h.trace, by rw [htransport, h.meter], h.order, ?_⟩
    refine .settled hnone hstate' ?_ hsettled.vectors hsettled.offset (hall hunsent)
    cases h.position with
    | turned h => exact absurd h hturned
    | closed h => exact absurd h hclosing
    | within _ hstate₀ _ _ _ => exact hstate₀.symm.trans hstate
    | settled _ _ hstate₀ _ _ _ => exact hstate₀
  | closes hstate hc => exact h.passes hmeter hc fun _ _ => .closed hstate

theorem Steps.outputs (h : Steps env world c c') (hmeter : Metered env world meter)
    (houtputs : c.outputs) (hoffset : c.writeOffset = 0) : ∃ events, Outputs meter c c' events := by
  refine h.invariant (I := fun x => ∃ events, Outputs meter c x events) ?_
    ⟨[], outputs_refl meter hoffset⟩
  intro c₁ c₂ haction hc₁
  obtain ⟨events, hc₁⟩ := hc₁
  exact hc₁.effect hmeter houtputs (action_effect haction)

end Meter

/-! ### Calls -/

/-- A call of `drive_write` or `drive_stream`, or anything else that happens to a connection. -/
inductive Call (σ : Type) where
  | drive (fuel : ℕ)
  | other (occurrence : Occurrence σ)

/-- The function that writes in the state of the connection. -/
def drive (env : Environment σ) (fuel : ℕ) (c : Connection σ) : Driven σ :=
  match c.state with
  | .writing => driveWrite env fuel c
  | .streaming => driveStream env fuel c
  | .handshaking | .readingHeaders | .readingBody | .closing => (c, none)

/-- What a call leaves. -/
def call (env : Environment σ) (c : Connection σ) : Call σ → Connection σ
  | .drive fuel => (drive env fuel c).1
  | .other occurrence => (occur env c occurrence).1

/-- What some calls leave. -/
def runCalls (env : Environment σ) (c : Connection σ) (calls : List (Call σ)) : Connection σ :=
  calls.foldl (call env) c

/-- Between the calls the transport changes as the world lets it. -/
def Call.Within (world : σ → σ → Prop) : Call σ → Prop
  | .drive _ => True
  | .other occurrence => occurrence.Within world

variable (env) in
theorem call_steps (c : Connection σ) {x : Call σ} (hwithin : x.Within world) :
    Steps env world c (call env c x) := by
  cases x with
  | other occurrence => exact (occur_occurs env c hwithin).steps
  | drive fuel =>
    rw [call, drive]
    cases hstate : c.state with
    | writing => exact (driveWrite_drives env fuel hstate).steps
    | streaming => exact (driveStream_steps env fuel hstate).1
    | handshaking => exact .refl c
    | readingHeaders => exact .refl c
    | readingBody => exact .refl c
    | closing => exact .refl c

variable (env) in
theorem runCalls_steps (c : Connection σ) {calls : List (Call σ)}
    (hwithin : ∀ x ∈ calls, x.Within world) : Steps env world c (runCalls env c calls) := by
  induction calls generalizing c with
  | nil => exact .refl c
  | cons x calls ih =>
    have hfirst := call_steps env c (hwithin x List.mem_cons_self)
    exact hfirst.trans (ih _ fun y hy => hwithin y (List.mem_cons_of_mem _ hy))

end Connection

end ErikslundHttp
