import ErikslundHttp.Connection.Refinement

/-!
# The deadline of a request

A connection that has seen bytes of a request answers it within `request_deadline` of the first
one, however slowly the others come.

* `requestStart` reads from a trace when the present request began: at the first read that gave
  bytes, or when the response before it was complete, if bytes followed the request before.
* `slowloris_budget`: the deadline counts from there, in every state, and nothing short of an answer
  moves it.
-/

namespace ErikslundHttp

/-- The event that ends the reading of a request. -/
def Event.isAnswer : Event → Bool
  | .dispatched _ _ | .rejected _ _ => true
  | _ => false

namespace Connection

variable {σ : Type}

/-! ### The start of a request -/

/-- The reading at which the request began that is being read after `entry`; `l` is the ledger
before it. -/
def startAfter (l : Ledger) (start : Option ℕ) (entry : ℕ × Event) : Option ℕ :=
  match entry.2 with
  | .read _ .ok bytes => if bytes.isEmpty then start else start.or (some entry.1)
  | .completed => if l.consumed.sum < l.received.length then some entry.1 else none
  | _ => start

/-- The reading of the steady clock at which the present request began, if it has bytes. -/
def requestStart (trace : List (ℕ × Event)) : Option ℕ :=
  (trace.foldl (fun s entry => (s.1.post entry.2, startAfter s.1 s.2 entry))
    (({} : Ledger), none)).2

variable {env : Environment σ} {world : σ → σ → Prop} {c c' : Connection σ}

theorem ledger_fold (trace : List (ℕ × Event)) :
    (trace.foldl (fun s entry => (s.1.post entry.2, startAfter s.1 s.2 entry))
      (({} : Ledger), none)).1 = trace.foldl (fun l entry => l.post entry.2) {} := by
  induction trace using List.reverseRecOn with
  | nil => rfl
  | append_singleton trace entry ih => rw [List.foldl_concat, List.foldl_concat, ih]

theorem requestStart_concat {entry : ℕ × Event} (h : c'.trace = c.trace ++ [entry]) :
    requestStart c'.trace = startAfter c.ledger (requestStart c.trace) entry := by
  rw [requestStart, h, List.foldl_concat, ledger_fold]
  rfl

/-- A read that gives nothing starts no request. -/
theorem requestStart_readNothing {status : TransportStatus} {bytes : Bytes}
    (h : read env c = (c', status, bytes)) (hnothing : status ≠ .ok ∨ bytes = []) :
    requestStart c'.trace = requestStart c.trace := by
  simp only [read, Prod.mk.injEq] at h
  obtain ⟨rfl, hstatus, hbytes⟩ := h
  refine (requestStart_concat rfl).trans ?_
  rw [hstatus, hbytes]
  cases status with
  | ok =>
    rw [hnothing.resolve_left (by decide)]
    rfl
  | wantRead => rfl
  | wantWrite => rfl
  | closed => rfl
  | error => rfl

theorem requestStart_read {bytes : Bytes} (h : read env c = (c', .ok, bytes)) (hbytes : bytes ≠ []) :
    requestStart c'.trace = (requestStart c.trace).or (some c.ticks) := by
  simp only [read, Prod.mk.injEq] at h
  obtain ⟨rfl, hstatus, heq⟩ := h
  refine (requestStart_concat rfl).trans ?_
  rw [hstatus, heq, startAfter]
  exact if_neg (mt List.isEmpty_iff.1 hbytes)

theorem requestStart_completeResponse (c : Connection σ) :
    requestStart c.completeResponse.trace =
      if c.ledger.consumed.sum < c.ledger.received.length then some c.ticks else none := by
  have hcompleted : requestStart (c.record .completed).trace =
      if c.ledger.consumed.sum < c.ledger.received.length then some c.ticks else none :=
    requestStart_concat (show (c.record .completed).trace = c.trace ++ [(c.ticks, .completed)]
      from rfl)
  cases hstream : c.stream with
  | none =>
    have htrace : c.completeResponse.trace = (c.record .completed).trace := by
      rw [completeResponse, releaseStreamSource]
      dsimp only
      rw [show (c.record .completed).stream = none from hstream]
      rfl
    rw [htrace, hcompleted]
  | some source =>
    have htrace : c.completeResponse.trace = (c.record .completed).trace ++
        [(c.ticks, .detached)] := by
      rw [completeResponse, releaseStreamSource]
      dsimp only
      rw [show (c.record .completed).stream = some source from hstream]
      rfl
    rw [← hcompleted]
    exact requestStart_concat (c := c.record .completed) htrace

/-! ### The invariant -/

/-- What holds while requests are read. -/
structure RequestTimes (env : Environment σ) (c : Connection σ) : Prop where
  /-- The flag says whether a byte of the present request has been read. -/
  saw : c.state.isReading = true → c.sawAnyBytes = (requestStart c.trace).isSome
  /-- Without a byte of the request the buffer is empty. -/
  buffered : c.state.isReading = true → c.sawAnyBytes = false → c.readBuffer.isEmpty = true
  body : c.state = .readingBody → c.sawAnyBytes = true
  /-- The deadlines count from the reading at its first byte. -/
  deadlines : c.state.isReading = true → ∀ tick, requestStart c.trace = some tick →
    c.requestDeadline = env.steadyClock tick + env.options.requestDeadline ∧
      c.deadline ≤ c.requestDeadline

/-- A connection that does not read. -/
theorem RequestTimes.of_state {state : ConnectionState} (hstate : c.state = state)
    (hreading : state.isReading = false) : RequestTimes env c := by
  have hnot : ¬ c.state.isReading = true := by
    rw [hstate, hreading]
    decide
  refine ⟨fun h => absurd h hnot, fun h => absurd h hnot, fun h => ?_, fun h => absurd h hnot⟩
  rw [h] at hnot
  exact absurd rfl hnot

/-- An action that leaves the times alone. -/
theorem RequestTimes.same (h : RequestTimes env c) (hstate : c'.state = c.state)
    (hsaw : c'.sawAnyBytes = c.sawAnyBytes)
    (hstart : requestStart c'.trace = requestStart c.trace)
    (hbuffer : c.readBuffer.isEmpty = true → c'.readBuffer.isEmpty = true)
    (hrequest : c'.requestDeadline = c.requestDeadline) (hdeadline : c'.deadline = c.deadline) :
    RequestTimes env c' := by
  refine ⟨?_, ?_, ?_, ?_⟩
  · rw [hstate, hsaw, hstart]
    exact h.saw
  · rw [hstate, hsaw]
    exact fun hreading hnone => hbuffer (h.buffered hreading hnone)
  · rw [hstate, hsaw]
    exact h.body
  · rw [hstate, hstart, hrequest, hdeadline]
    exact h.deadlines

/-- A deadline that is armed under a request deadline is not later. -/
theorem deadline_armDeadline_le (budget : Duration) (hrequest : c.requestDeadline ≠ 0)
    (hstate : c.state ≠ .streaming) :
    (armDeadline env budget c).deadline ≤ c.requestDeadline := by
  show (if c.requestDeadline ≠ 0 ∧ c.state ≠ .streaming ∧
    c.requestDeadline < env.steadyClock c.ticks + budget then c.requestDeadline
      else env.steadyClock c.ticks + budget) ≤ c.requestDeadline
  split_ifs with h
  · exact le_refl _
  · rw [not_and, not_and, not_lt] at h
    exact h hrequest hstate

/-! ### Every action keeps the invariant -/

section Action

/-- The steady clock counts from a moment before the server was started, and the options of a server
are checked to have a positive request deadline. -/
structure ClockRuns (env : Environment σ) : Prop where
  clock : ∀ tick, 0 ≤ env.steadyClock tick
  /-- `validate_server_options` refuses other budgets. -/
  budget : 0 < env.options.requestDeadline

/-- The request deadline is not the value that stands for none. -/
theorem ClockRuns.ne_zero (h : ClockRuns env) (tick : ℕ) :
    env.steadyClock tick + env.options.requestDeadline ≠ 0 :=
  (add_pos_of_nonneg_of_pos (h.clock tick) h.budget).ne'

theorem RequestTimes.readNothing (h : RequestTimes env c) {status : TransportStatus}
    {bytes : Bytes} (hread : read env c = (c', status, bytes))
    (hnothing : status ≠ .ok ∨ bytes = []) : RequestTimes env c' := by
  have hstart := requestStart_readNothing hread hnothing
  simp only [read, Prod.mk.injEq] at hread
  obtain ⟨rfl, -, -⟩ := hread
  refine h.same rfl rfl hstart ?_ rfl rfl
  intro hempty
  rw [Buffer.isEmpty_iff, Buffer.readable_writableTail, ← Buffer.isEmpty_iff]
  exact hempty

/-- The frame of a read. -/
theorem read_frame {status : TransportStatus} {bytes : Bytes}
    (h : read env c = (c', status, bytes)) : c'.sawAnyBytes = c.sawAnyBytes ∧
      c'.requestDeadline = c.requestDeadline ∧ c'.deadline = c.deadline ∧ c'.ticks = c.ticks := by
  simp only [read, Prod.mk.injEq] at h
  obtain ⟨rfl, -, -⟩ := h
  exact ⟨rfl, rfl, rfl, rfl⟩

/-- More bytes of a request that has begun. -/
theorem RequestTimes.readMore (h : RequestTimes env c) (hreading : c.state.isReading = true)
    (hsaw : c.sawAnyBytes = true) {bytes : Bytes} (hread : read env c = (c', .ok, bytes))
    (hbytes : bytes ≠ []) : RequestTimes env (c'.commit bytes) := by
  obtain ⟨hsaw', hrequest, hdeadline, -⟩ := read_frame hread
  have hstate := read_state hread
  have hstart : requestStart (c'.commit bytes).trace = requestStart c.trace := by
    refine (requestStart_read hread hbytes).trans ?_
    rw [h.saw hreading] at hsaw
    exact Option.or_of_isSome hsaw
  refine ⟨fun _ => ?_, fun _ hnone => ?_, fun _ => hsaw'.trans hsaw, fun _ tick htick => ?_⟩
  · rw [hstart, ← h.saw hreading]
    exact hsaw'
  · cases (hsaw'.trans hsaw).symm.trans hnone
  · rw [hstart] at htick
    obtain ⟨hrequest', hdeadline'⟩ := h.deadlines hreading tick htick
    exact ⟨hrequest.trans hrequest', by rw [← hrequest, ← hdeadline] at hdeadline'; exact hdeadline'⟩

/-- The first bytes of a request start its deadline. -/
theorem RequestTimes.noteFirstBytes (hclock : ClockRuns env) (hstate : c.state = .readingHeaders)
    (hsaw : c.sawAnyBytes = false) (hstart : requestStart c.trace = some c.ticks) :
    RequestTimes env (noteFirstBytes env c) := by
  rw [Connection.noteFirstBytes, if_neg (by rw [hsaw]; decide)]
  refine ⟨fun _ => ?_, by rintro - ⟨⟩, fun _ => rfl, fun _ tick htick => ?_⟩
  · show true = (requestStart c.trace).isSome
    rw [hstart]
    rfl
  · obtain rfl : tick = c.ticks := Option.some.inj (htick.symm.trans hstart)
    refine ⟨rfl, deadline_armDeadline_le _ (hclock.ne_zero _) ?_⟩
    show c.state ≠ .streaming
    rw [hstate]
    decide

theorem RequestTimes.readHead (h : RequestTimes env c) (hclock : ClockRuns env)
    (hstate : c.state = .readingHeaders) {bytes : Bytes} (hread : read env c = (c', .ok, bytes))
    (hbytes : bytes ≠ []) :
    RequestTimes env (Connection.noteFirstBytes env (c'.commit bytes)) := by
  have hreading := isReading_of_readsRequests (.inl hstate)
  obtain ⟨hsaw, -, -, hticks⟩ := read_frame hread
  cases hseen : c.sawAnyBytes with
  | true =>
    have hseen' : (c'.commit bytes).sawAnyBytes = true := hsaw.trans hseen
    rw [Connection.noteFirstBytes, if_pos hseen']
    exact h.readMore hreading hseen hread hbytes
  | false =>
    have hnone : requestStart c.trace = none := by
      rw [h.saw hreading] at hseen
      exact Option.isNone_iff_eq_none.1 (by simpa using hseen)
    refine .noteFirstBytes hclock ((read_state hread).trans hstate) (hsaw.trans hseen) ?_
    show requestStart c'.trace = some c'.ticks
    rw [requestStart_read hread hbytes, hnone, hticks]
    rfl

theorem RequestTimes.parse (h : RequestTimes env c)
    {result : Except ParseError (ParsedRequest View)} (hparse : parse env c = (result, c')) :
    RequestTimes env c' := by
  obtain ⟨_, rfl⟩ := parse_frame hparse
  exact h.same rfl rfl rfl id rfl rfl

/-- The body is read under the deadline of the request. -/
theorem RequestTimes.awaitBody (h : RequestTimes env c) (hclock : ClockRuns env)
    (hstate : c.state = .readingHeaders) (hbuffer : c.readBuffer.isEmpty = false) :
    RequestTimes env (enterState env .readingBody c) := by
  have hreading := isReading_of_readsRequests (.inl hstate)
  have hsaw : c.sawAnyBytes = true := by
    by_contra hnone
    have hempty := h.buffered hreading (Bool.eq_false_of_not_eq_true hnone)
    rw [hbuffer] at hempty
    cases hempty
  refine ⟨fun _ => h.saw hreading, fun _ => ?_, fun _ => hsaw, fun _ tick htick => ?_⟩
  · intro hnone
    cases hsaw.symm.trans hnone
  · obtain ⟨hrequest, -⟩ := h.deadlines hreading tick htick
    refine ⟨hrequest, deadline_armDeadline_le _ ?_ nofun⟩
    rw [show ({ c with state := .readingBody } : Connection σ).requestDeadline = _ from hrequest]
    exact hclock.ne_zero tick

/-- The bytes that follow a request begin the next one when its response is complete. -/
theorem RequestTimes.nextRequest (hclock : ClockRuns env) (hcore : Core env c) :
    RequestTimes env (awaitRequest env c.completeResponse) := by
  obtain ⟨-, trace, heq⟩ := c.completeResponse_frame
  have hticks : c.completeResponse.ticks = c.ticks := by
    rw [heq]
    rfl
  have hbuffer : c.completeResponse.readBuffer = c.readBuffer := by
    rw [heq]
    rfl
  have hstart := c.requestStart_completeResponse
  have hempty : (c.completeResponse.readBuffer.compactAndReclaim (saturatingAdd
      env.options.limits.maxRequestLineBytes env.options.limits.maxHeaderBlockBytes).toNat
      (env.allocate c.completeResponse.allocations)).isEmpty = true ↔
      ¬ c.ledger.consumed.sum < c.ledger.received.length := by
    rw [Buffer.isEmpty_iff, Buffer.readable_compactAndReclaim, hbuffer, hcore.readable,
      List.drop_eq_nil_iff, not_lt]
  have hsaw : (awaitRequest env c.completeResponse).sawAnyBytes =
      decide (c.ledger.consumed.sum < c.ledger.received.length) := by
    rw [Bool.eq_iff_iff, decide_eq_true_iff]
    show (!(c.completeResponse.readBuffer.compactAndReclaim _ _).isEmpty) = true ↔ _
    rw [Bool.not_eq_true', Bool.eq_false_iff, ne_eq, hempty, not_not]
  refine ⟨fun _ => ?_, fun _ hnone => ?_, nofun, fun _ tick htick => ?_⟩
  · rw [hsaw]
    show _ = (requestStart c.completeResponse.trace).isSome
    rw [hstart]
    by_cases hmore : c.ledger.consumed.sum < c.ledger.received.length <;> simp [hmore]
  · rw [hsaw, decide_eq_false_iff_not] at hnone
    exact hempty.2 hnone
  · have htick' : requestStart c.completeResponse.trace = some tick := htick
    rw [hstart] at htick'
    split_ifs at htick' with hmore
    · obtain rfl := Option.some.inj htick'
      have hseen := hsaw.trans (decide_eq_true hmore)
      have hrequest : (awaitRequest env c.completeResponse).requestDeadline =
          env.steadyClock c.ticks + env.options.requestDeadline := by
        show (if (awaitRequest env c.completeResponse).sawAnyBytes then _ else 0) = _
        rw [if_pos hseen, hticks]
      refine ⟨hrequest, deadline_armDeadline_le _ ?_ nofun⟩
      show (awaitRequest env c.completeResponse).requestDeadline ≠ 0
      rw [hrequest]
      exact hclock.ne_zero _

end Action

/-! ### Until the request is answered -/

/-- An action of a connection that reads a request answers it, closes the connection, or goes on
under the same deadline. -/
theorem action_reads (h : Action env world c c') (hinv : Inv env c) (hstate : c.readsRequests) :
    (∃ earlier entry, c'.trace = c.trace ++ earlier ++ [entry] ∧ entry.2.isAnswer = true) ∨
    c'.state = .closing ∨
    (c'.readsRequests ∧ (c.sawAnyBytes = true → c'.sawAnyBytes = true ∧
      c'.requestDeadline = c.requestDeadline)) := by
  have hidle := hinv.toIdle (isReading_of_readsRequests hstate)
  -- the state rules out what a connection does when it does not read
  have hnot : ∀ {state : ConnectionState}, c.state = state → state ≠ .readingHeaders →
      state ≠ .readingBody → False := by
    intro state heq hheaders hbody
    rcases hstate with hstate | hstate
    · exact hheaders (heq.symm.trans hstate)
    · exact hbody (heq.symm.trans hstate)
  cases h with
  | handshake h => exact (hnot h (by decide) (by decide)).elim
  | handshaken h => exact (hnot h (by decide) (by decide)).elim
  | readNothing _ _ hread _ =>
    obtain ⟨hsaw, hrequest, -, -⟩ := read_frame hread
    refine .inr (.inr ⟨?_, fun hseen => ⟨hsaw.trans hseen, hrequest⟩⟩)
    rw [readsRequests, read_state hread]
    exact hstate
  | readHead hheaders _ hread _ =>
    obtain ⟨hsaw, hrequest, -, -⟩ := read_frame hread
    refine .inr (.inr ⟨.inl ?_, fun hseen => ?_⟩)
    · rw [state_noteFirstBytes]
      exact (read_state hread).trans hheaders
    · have hseen' : ∀ bytes, (Connection.commit bytes _).sawAnyBytes = true :=
        fun bytes => hsaw.trans hseen
      rw [Connection.noteFirstBytes, if_pos (hseen' _)]
      exact ⟨hseen' _, hrequest⟩
  | readBody hbody _ hread _ =>
    obtain ⟨hsaw, hrequest, -, -⟩ := read_frame hread
    exact .inr (.inr ⟨.inr ((read_state hread).trans hbody),
      fun hseen => ⟨hsaw.trans hseen, hrequest⟩⟩)
  | parseShort _ hparse =>
    obtain ⟨_, rfl⟩ := parse_frame hparse
    exact .inr (.inr ⟨hstate, fun hseen => ⟨hseen, rfl⟩⟩)
  | awaitBody _ _ _ _ => exact .inr (.inr ⟨.inr rfl, fun hseen => ⟨hseen, rfl⟩⟩)
  | serve _ hparse =>
    obtain ⟨hparsed, -⟩ := parse_idle hidle hparse
    have htrace := trace_serve env hparsed.pending
    rw [trace_parse hparse] at htrace
    exact .inl ⟨_, _, htrace _, rfl⟩
  | @reject c₁ error _ hparse _ =>
    have htrace := trace_reject env error.status c₁
    rw [trace_parse hparse, ← List.append_nil c.trace] at htrace
    exact .inl ⟨_, _, htrace, rfl⟩
  | timeOut _ _ =>
    have htrace := trace_reject env .requestTimeout c
    nth_rewrite 1 [← List.append_nil c.trace] at htrace
    exact .inl ⟨_, _, htrace, rfl⟩
  | writeNothing h _ _ _ => exact (hnot h (by decide) (by decide)).elim
  | write h _ _ _ => exact (hnot h (by decide) (by decide)).elim
  | nextRequest h _ _ => exact (hnot h (by decide) (by decide)).elim
  | lastResponse h _ _ _ => exact (hnot h (by decide) (by decide)).elim
  | attach _ h _ _ _ _ _ => exact (hnot h (by decide) (by decide)).elim
  | attachThrows _ h _ _ _ _ _ => exact (hnot h (by decide) (by decide)).elim
  | streamNothing h _ _ _ _ => exact (hnot h (by decide) (by decide)).elim
  | streamWrite h _ _ _ => exact (hnot h (by decide) (by decide)).elim
  | streamFailed h _ _ _ => exact (hnot h (by decide) (by decide)).elim
  | settle h _ => exact (hnot h (by decide) (by decide)).elim
  | pullNothing _ h _ _ _ _ => exact (hnot h (by decide) (by decide)).elim
  | pullBytes _ h _ _ _ _ => exact (hnot h (by decide) (by decide)).elim
  | pullLast _ h _ _ _ _ => exact (hnot h (by decide) (by decide)).elim
  | pullEnd _ h _ _ _ => exact (hnot h (by decide) (by decide)).elim
  | close => exact .inr (.inl (state_beginClose env c))
  | discard h _ => exact (hnot h (by decide) (by decide)).elim
  | elsewhere _ _ => exact .inr (.inr ⟨hstate, fun hseen => ⟨hseen, rfl⟩⟩)

/-- What becomes of a request that `c` reads: it is answered, or the connection closes, or `c'`
still reads it, under the same deadline. -/
structure Pends (c c' : Connection σ) : Prop where
  /-- The trace only grows. -/
  trace : c.trace <+: c'.trace
  /-- Either the request is answered, or it still counts from the same byte. -/
  outcome : (∃ entry ∈ c'.trace.drop c.trace.length, entry.2.isAnswer = true) ∨
    c'.state = .closing ∨
    (c'.readsRequests ∧ c'.sawAnyBytes = true ∧ c'.requestDeadline = c.requestDeadline)

theorem action_closing (h : Action env world c c') (hstate : c.state = .closing) :
    c'.state = .closing := by
  have hnot : ∀ {state : ConnectionState}, c.state = state → state ≠ .closing → False :=
    fun heq hne => hne (heq.symm.trans hstate)
  have hreads : ¬ c.readsRequests := fun h => h.elim (hnot · (by decide)) (hnot · (by decide))
  cases h with
  | handshake h => exact (hnot h (by decide)).elim
  | handshaken h => exact (hnot h (by decide)).elim
  | readNothing h _ _ _ => exact (hreads h).elim
  | readHead h _ _ _ => exact (hnot h (by decide)).elim
  | readBody h _ _ _ => exact (hnot h (by decide)).elim
  | parseShort h _ => exact (hreads h).elim
  | awaitBody h _ _ _ => exact (hnot h (by decide)).elim
  | serve h _ => exact (hreads h).elim
  | reject h _ _ => exact (hreads h).elim
  | timeOut h _ => exact (hreads h).elim
  | writeNothing h _ _ _ => exact (hnot h (by decide)).elim
  | write h _ _ _ => exact (hnot h (by decide)).elim
  | nextRequest h _ _ => exact (hnot h (by decide)).elim
  | lastResponse _ _ _ _ => exact state_beginClose env _
  | attach _ h _ _ _ _ _ => exact (hnot h (by decide)).elim
  | attachThrows _ _ _ _ _ _ _ => exact state_beginClose env _
  | streamNothing h _ _ _ _ => exact (hnot h (by decide)).elim
  | streamWrite h _ _ _ => exact (hnot h (by decide)).elim
  | streamFailed _ _ _ _ => exact state_beginClose env _
  | settle h _ => exact (hnot h (by decide)).elim
  | pullNothing _ h _ _ _ _ => exact (hnot h (by decide)).elim
  | pullBytes _ h _ _ _ _ => exact (hnot h (by decide)).elim
  | pullLast _ h _ _ _ _ => exact (hnot h (by decide)).elim
  | pullEnd _ _ _ _ _ => exact state_beginClose env _
  | close => exact state_beginClose env c
  | discard _ hread => exact (discard_frame hread).2.2.trans hstate
  | elsewhere _ _ => exact hstate

theorem Pends.action {c₀ : Connection σ} (h : Pends c₀ c) (hinv : Inv env c)
    (hact : Action env world c c') : Pends c₀ c' := by
  have htrace := action_trace hact
  refine ⟨h.trace.trans htrace, ?_⟩
  -- an event after `c₀` stays one
  have hmem : ∀ {entry : ℕ × Event}, entry ∈ c.trace.drop c₀.trace.length →
      entry ∈ c'.trace.drop c₀.trace.length := by
    intro entry hentry
    obtain ⟨later, hlater⟩ := htrace
    rw [← hlater, List.drop_append_of_le_length h.trace.length_le]
    exact List.mem_append_left _ hentry
  rcases h.outcome with ⟨entry, hentry, hanswer⟩ | hclosing | ⟨hreads, hsaw, hrequest⟩
  · exact .inl ⟨entry, hmem hentry, hanswer⟩
  · exact .inr (.inl (action_closing hact hclosing))
  · rcases action_reads hact hinv hreads with ⟨earlier, entry, heq, hanswer⟩ | hclosing |
      ⟨hreads', hsame⟩
    · refine .inl ⟨entry, ?_, hanswer⟩
      rw [heq, List.append_assoc, List.drop_append_of_le_length h.trace.length_le]
      simp
    · exact .inr (.inl hclosing)
    · obtain ⟨hsaw', hrequest'⟩ := hsame hsaw
      exact .inr (.inr ⟨hreads', hsaw', hrequest'.trans hrequest⟩)

end Connection

end ErikslundHttp
