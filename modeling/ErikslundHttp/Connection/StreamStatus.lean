import ErikslundHttp.Connection.Output

/-!
# The stream of a connection

What a trace says of the stream: whether it is attached, and what its source answered last.

* `Held`: the connection has the source while the trace says that it is attached.
* `onStreamNotified_pulls`: a stream that was idle has nothing left to send, so the next call that is
  for a notification pulls again.
-/

namespace ErikslundHttp

/-- The event is a call of `pull`. -/
def Event.isPulled : Event → Bool
  | .pulled _ _ => true
  | _ => false

namespace Connection

variable {σ : Type} {env : Environment σ} {world : σ → σ → Prop} {c c' : Connection σ}

/-- The source is attached, and the last answer of `pull` since; a call that throws has finished. -/
structure StreamStatus where
  /-- A source has been attached, and not detached since. -/
  attached : Bool := false
  /-- What the last pull answered. -/
  last : Option Pull := none

/-- What an event says about the stream. -/
def StreamStatus.post (status : StreamStatus) (entry : ℕ × Event) : StreamStatus :=
  match entry.2 with
  | .attached => ⟨true, none⟩
  | .pulled _ answer => { status with last := some (answer.getD .finished) }
  | .detached => { status with attached := false }
  | _ => status

/-- What a trace says about it. -/
def streamStatus (trace : List (ℕ × Event)) : StreamStatus := trace.foldl StreamStatus.post {}

theorem streamStatus_concat {trace : List (ℕ × Event)} (entry : ℕ × Event) :
    streamStatus (trace ++ [entry]) = (streamStatus trace).post entry := by
  rw [streamStatus, List.foldl_concat, streamStatus]

/-- Only `on_attached` attaches. -/
theorem StreamStatus.post_attached {status : StreamStatus} (h : status.attached = false)
    {entry : ℕ × Event} (hentry : entry.2 ≠ .attached) : (status.post entry).attached = false := by
  rw [post]
  split
  · rename_i heq
    exact absurd heq hentry
  · exact h
  · rfl
  · exact h

theorem not_attached_append {trace events : List (ℕ × Event)}
    (h : (streamStatus trace).attached = false) (hevents : ∀ entry ∈ events, entry.2 ≠ .attached) :
    (streamStatus (trace ++ events)).attached = false := by
  induction events using List.reverseRecOn with
  | nil => rwa [List.append_nil]
  | append_singleton events entry ih =>
    rw [← List.append_assoc, streamStatus_concat]
    refine StreamStatus.post_attached (ih fun e he => hevents e (List.mem_append_left _ he)) ?_
    exact hevents entry (List.mem_append_right _ (List.mem_singleton_self entry))

theorem Quiet.not_attached {events : List (ℕ × Event)} (h : Quiet events) :
    ∀ entry ∈ events, entry.2 ≠ .attached := by
  intro entry hentry heq
  have hturns := (h entry hentry).2
  rw [heq] at hturns
  cases hturns

theorem Passes.not_attached (h : Passes env world c c')
    (hno : (streamStatus c.trace).attached = false) : (streamStatus c'.trace).attached = false := by
  obtain ⟨events, hquiet, htrace⟩ := h.trace
  rw [htrace]
  exact not_attached_append hno hquiet.not_attached

/-! ### The invariant -/

/-- The source is held while it is attached, and a stream without one has finished. -/
structure Held (c : Connection σ) : Prop where
  /-- An attached source is held; after an idle answer nothing is left to send. -/
  attached : (streamStatus c.trace).attached = true → c.state = .streaming ∧ c.stream ≠ none ∧
    ((streamStatus c.trace).last = some .idle → c.writeVectors = [])
  streaming : c.state = .streaming → c.stream ≠ none → (streamStatus c.trace).attached = true
  /-- A stream without its source was finished by it. -/
  finished : c.state = .streaming → c.stream = none → (streamStatus c.trace).last = some .finished

theorem Held.not_attached (h : Held c) (hstate : c.state ≠ .streaming) :
    (streamStatus c.trace).attached = false :=
  Bool.eq_false_of_not_eq_true fun hyes => hstate (h.attached hyes).1

theorem held_of_state (hstate : c.state ≠ .streaming)
    (h : (streamStatus c.trace).attached = false) : Held c := by
  refine ⟨fun hyes => ?_, fun hyes => absurd hyes hstate, fun hyes => absurd hyes hstate⟩
  cases h.symm.trans hyes

/-- A connection that closes detaches its source. -/
theorem held_beginClose (hstream : (streamStatus c.trace).attached = true → c.stream ≠ none)
    (hclosing : c.state = .closing → (streamStatus c.trace).attached = false) :
    Held (beginClose env c) := by
  have hstate := state_beginClose env c
  refine held_of_state (by rw [hstate]; decide) ?_
  rw [beginClose]
  split_ifs with hclosed
  · exact hclosing hclosed
  · show (streamStatus c.releaseStreamSource.trace).attached = false
    rw [releaseStreamSource]
    dsimp only
    split
    · show (streamStatus (c.trace ++ [(c.ticks, .detached)])).attached = false
      rw [streamStatus_concat]
      rfl
    · rename_i hnone
      exact Bool.eq_false_of_not_eq_true fun hyes => hstream hyes hnone

theorem Held.beginClose (h : Held c) : Held (Connection.beginClose env c) :=
  held_beginClose (fun hyes => (h.attached hyes).2.1) fun hclosing =>
    h.not_attached (by rw [hclosing]; decide)

theorem streamStatus_writev {status : TransportStatus} {accepted : ℕ}
    (h : writev env c = (c', status, accepted)) : streamStatus c'.trace = streamStatus c.trace := by
  rw [trace_writev h, streamStatus_concat]
  rfl

/-- A write does not touch the source. -/
theorem Held.writev {c₁ : Connection σ} (h : Held c) {status : TransportStatus} {accepted : ℕ}
    (hwrite : Connection.writev env c = (c₁, status, accepted)) (htrace : c'.trace = c₁.trace)
    (hstate : c'.state = c.state) (hstream : c'.stream = c.stream)
    (hvectors : c'.writeVectors = c.writeVectors) : Held c' := by
  have hsame : streamStatus c'.trace = streamStatus c.trace := by
    rw [htrace, streamStatus_writev hwrite]
  obtain ⟨hattached, hstreaming, hfinished⟩ := h
  rw [← hsame, ← hstate, ← hstream, ← hvectors] at hattached
  rw [← hsame, ← hstate, ← hstream] at hstreaming hfinished
  exact ⟨hattached, hstreaming, hfinished⟩

theorem streamStatus_pull {source : StreamSource} {scratch : Bytes} {answer : Pull}
    (h : c.pull source = (c', scratch, answer)) :
    streamStatus c'.trace = { streamStatus c.trace with last := some answer } := by
  rw [pull] at h
  cases h
  exact streamStatus_concat _

theorem held_init (env : Environment σ) (transport : σ) : Held (init env transport) :=
  held_of_state nofun rfl

/-- A pull, and the bytes it gave to send. -/
theorem Held.pull {c₁ : Connection σ} (h : Held c) (hstate : c.state = .streaming)
    {source : StreamSource} (hstream : c.stream = some source) {scratch : Bytes} {answer : Pull}
    (hpull : Connection.pull source c = (c₁, scratch, answer)) (htrace : c'.trace = c₁.trace)
    (hstate' : c'.state = c₁.state) (hstream' : c'.stream = c₁.stream)
    (hvectors : answer = .idle → c'.writeVectors = []) : Held c' := by
  have hattached : (streamStatus c.trace).attached = true :=
    h.streaming hstate (by rw [hstream]; exact nofun)
  have hstatus := streamStatus_pull hpull
  obtain ⟨trace, rfl⟩ := pull_frame hpull
  have hsome : c'.stream = some source := hstream'.trans hstream
  refine ⟨fun _ => ⟨hstate'.trans hstate, ?_, ?_⟩, fun _ _ => ?_, fun _ hnone => ?_⟩
  · rw [hsome]
    exact nofun
  · rw [htrace, hstatus]
    exact fun hidle => hvectors (Option.some.inj hidle)
  · rw [htrace, hstatus]
    exact hattached
  · cases hsome.symm.trans hnone

theorem not_streaming_of_isReading (h : c.state.isReading = true) : c.state ≠ .streaming := by
  intro hstate
  rw [hstate] at h
  cases h

/-- A connection that reads has no source attached. -/
theorem Held.of_isReading (h : Held c) (hreading : c.state.isReading = true)
    (heffect : Effect env world c c') : Held c' := by
  have hne := not_streaming_of_isReading hreading
  have hno := h.not_attached hne
  have houtputs : ¬ c.outputs := by
    rintro (hstate | hstate) <;> rw [hstate] at hreading <;> cases hreading
  cases heffect with
  | reads _ hstate' hc =>
    exact held_of_state (not_streaming_of_isReading hstate') (hc.not_attached hno)
  | begins _ hstate' _ hc => exact held_of_state (by rw [hstate']; decide) (hc.not_attached hno)
  | stays hstate' _ _ hc => exact held_of_state (by rw [hstate']; exact hne) (hc.not_attached hno)
  | writes hyes => exact absurd hyes houtputs
  | fails hyes => exact absurd hyes houtputs
  | turns _ hyes => exact absurd hyes houtputs
  | settles hyes => exact absurd hyes hne
  | closes hstate' hc => exact held_of_state (by rw [hstate']; decide) (hc.not_attached hno)

/-- A response that is not streamed is sent. -/
theorem Held.completeResponse (h : Held c) (hstate : c.state = .writing) :
    (streamStatus c.completeResponse.trace).attached = false := by
  have hno := h.not_attached (by rw [hstate]; decide)
  obtain ⟨events, hquiet, htrace⟩ := c.completeResponse_turns
  rw [htrace]
  refine not_attached_append (not_attached_append hno ?_) hquiet.not_attached
  intro entry hentry
  rw [List.mem_singleton.1 hentry]
  exact nofun

theorem streamStatus_attachStream (c : Connection σ) :
    streamStatus c.attachStream.trace = ⟨true, none⟩ := by
  show streamStatus (c.trace ++ [(c.ticks, .attached)]) = _
  rw [streamStatus_concat]
  rfl

theorem Held.settle (h : Held c) (pending : ℕ) : Held (settleWrites env pending c) := by
  rw [settleWrites]
  split_ifs
  · exact ⟨fun hyes => ⟨(h.attached hyes).1, (h.attached hyes).2.1, fun _ => rfl⟩, h.streaming,
      h.finished⟩
  · exact ⟨fun hyes => ⟨(h.attached hyes).1, (h.attached hyes).2.1, fun _ => rfl⟩, h.streaming,
      h.finished⟩

/-- The last bytes are queued, and the source is released. -/
theorem held_releaseStreamSource (hstream : c.stream ≠ none)
    (hlast : (streamStatus c.trace).last = some .finished) : Held c.releaseStreamSource := by
  obtain ⟨source, hsome⟩ := Option.ne_none_iff_exists'.1 hstream
  have hrelease : c.releaseStreamSource = { c with
      streamWaitingForWriteProgress := false
      stream := none
      trace := c.trace ++ [(c.ticks, .detached)] } := by
    rw [releaseStreamSource]
    dsimp only
    rw [hsome]
    rfl
  have hstatus : streamStatus c.releaseStreamSource.trace =
      { streamStatus c.trace with attached := false } := by
    rw [hrelease]
    exact streamStatus_concat _
  refine ⟨fun hyes => ?_, fun _ hne => ?_, fun _ _ => ?_⟩
  · rw [hstatus] at hyes
    cases hyes
  · rw [hrelease] at hne
    exact absurd rfl hne
  · rw [hstatus]
    exact hlast

theorem action_held (h : Action env world c c') (hc : Held c) : Held c' := by
  have heffect := action_effect h
  have hreads : c.readsRequests → Held c' := fun hstate =>
    hc.of_isReading (isReading_of_readsRequests hstate) heffect
  have hreading : ∀ {state : ConnectionState}, c.state = state → state.isReading = true →
      Held c' := fun hstate hyes => hc.of_isReading (by rw [hstate]; exact hyes) heffect
  cases h with
  | handshake hstate => exact hreading hstate rfl
  | handshaken hstate => exact hreading hstate rfl
  | readNothing hstate => exact hreads hstate
  | readHead hstate => exact hreading hstate rfl
  | readBody hstate => exact hreading hstate rfl
  | parseShort hstate => exact hreads hstate
  | awaitBody hstate => exact hreading hstate rfl
  | serve hstate => exact hreads hstate
  | reject hstate => exact hreads hstate
  | timeOut hstate => exact hreads hstate
  | writeNothing _ _ hwrite _ =>
    obtain ⟨transport, trace, hframe⟩ := writev_frame hwrite
    exact hc.writev hwrite rfl (by rw [hframe]) (by rw [hframe]) (by rw [hframe])
  | write _ _ hwrite _ =>
    obtain ⟨transport, trace, hframe⟩ := writev_frame hwrite
    exact hc.writev hwrite rfl (by rw [hframe]; rfl) (by rw [hframe]; rfl) (by rw [hframe]; rfl)
  | nextRequest hstate => exact held_of_state nofun (hc.completeResponse hstate)
  | lastResponse hstate =>
    have hno := hc.completeResponse hstate
    exact held_beginClose (fun hyes => absurd (hno.symm.trans hyes) nofun) fun _ => hno
  | attach source hstate _ hstream =>
    have hstatus := c.streamStatus_attachStream
    refine ⟨fun _ => ⟨rfl, ?_, fun _ => rfl⟩, fun _ _ => ?_, fun _ hnone => ?_⟩
    · show c.stream ≠ none
      rw [hstream]
      exact nofun
    · show (streamStatus c.attachStream.trace).attached = true
      rw [hstatus]
    · cases hstream.symm.trans hnone
  | attachThrows source hstate _ hstream =>
    refine held_beginClose (fun _ => ?_) fun hclosing => ?_
    · show c.stream ≠ none
      rw [hstream]
      exact nofun
    · cases hstate.symm.trans hclosing
  | @streamNothing c₁ _ _ _ _ hwrite =>
    obtain ⟨transport, trace, hframe⟩ := writev_frame hwrite
    obtain ⟨waiting, deadline, ticks, hwaits⟩ := awaitWriteProgress_frame env c₁
    rw [hwaits]
    exact hc.writev hwrite rfl (by rw [hframe]) (by rw [hframe]) (by rw [hframe])
  | streamWrite _ _ hwrite =>
    obtain ⟨transport, trace, hframe⟩ := writev_frame hwrite
    exact hc.writev hwrite rfl (by rw [hframe]; rfl) (by rw [hframe]; rfl) (by rw [hframe]; rfl)
  | streamFailed _ _ hwrite =>
    obtain ⟨transport, trace, hframe⟩ := writev_frame hwrite
    exact (hc.writev hwrite rfl (by rw [hframe]) (by rw [hframe]) (by rw [hframe])).beginClose
  | settle => exact hc.settle _
  | pullNothing source hstate hsettled hstream hpull =>
    obtain ⟨trace, hframe⟩ := pull_frame hpull
    refine hc.pull hstate hstream hpull rfl rfl rfl fun _ => ?_
    rw [hframe]
    exact hsettled.vectors
  | pullBytes source hstate hsettled hstream hpull =>
    exact hc.pull hstate hstream hpull rfl rfl rfl nofun
  | @pullLast c₁ source scratch hstate hsettled hstream hpull =>
    refine held_releaseStreamSource ?_ ?_
    · obtain ⟨trace, hframe⟩ := pull_frame hpull
      show c₁.stream ≠ none
      rw [hframe]
      show c.stream ≠ none
      rw [hstream]
      exact nofun
    · show (streamStatus c₁.trace).last = some .finished
      rw [streamStatus_pull hpull]
  | pullEnd source hstate _ hstream hpull =>
    exact (hc.pull hstate hstream hpull rfl rfl rfl nofun).beginClose
  | close => exact hc.beginClose
  | discard hstate hread =>
    obtain ⟨-, -, hstate'⟩ := discard_frame hread
    have hno := hc.not_attached (by rw [hstate]; decide)
    refine held_of_state (by rw [hstate', hstate]; decide) ?_
    exact (show Passes env world c _ from discard_passes hread).not_attached hno
  | elsewhere => exact ⟨hc.attached, hc.streaming, hc.finished⟩

/-- A stream that was idle is attached. -/
theorem Held.idle (h : Held c) (hstate : c.state = .streaming)
    (hlast : (streamStatus c.trace).last = some .idle) :
    (streamStatus c.trace).attached = true := by
  refine h.streaming hstate fun hnone => ?_
  cases (h.finished hstate hnone).symm.trans hlast

/-! ### Calls -/

theorem occur_held (env : Environment σ) (h : Held c) (occurrence : Occurrence σ) :
    Held (occur env c occurrence).1 := by
  have hsteps : Steps env anything c _ := (occur_occurs env c (within_anything occurrence)).steps
  exact hsteps.invariant (fun _ _ haction hc => action_held haction hc) h

theorem Steps.trace (h : Steps env world c c') : c.trace <+: c'.trace := by
  refine h.invariant (I := fun x => c.trace <+: x.trace) ?_ List.prefix_rfl
  exact fun _ _ haction hprefix => hprefix.trans (action_trace haction)

theorem occur_trace (env : Environment σ) (c : Connection σ) (occurrence : Occurrence σ) :
    c.trace <+: (occur env c occurrence).1.trace := by
  have hsteps : Steps env anything c _ := (occur_occurs env c (within_anything occurrence)).steps
  exact hsteps.trace

/-- What `drive_stream` does when it has sent everything starts with a pull. -/
theorem refill_pulls {source : StreamSource} (hstream : c.stream = some source) {flow : Flow}
    (h : refill env c = (c', flow)) : ∃ bytes answer,
      c.trace ++ [(c.ticks, .pulled bytes answer)] <+: c'.trace := by
  refine ⟨(source.pull c.pulls).1, (source.pull c.pulls).2, ?_⟩
  rcases hpull : c.pull source with ⟨c₁, scratch, answer⟩
  have htrace : c.trace ++ [(c.ticks, .pulled (source.pull c.pulls).1 (source.pull c.pulls).2)] =
      c₁.trace := by
    rw [pull] at hpull
    cases hpull
    rfl
  have hclose : ∀ c₂ : Connection σ, c₂.trace <+: (Connection.close env c₂).trace := by
    intro c₂
    have hsteps : Steps env anything c₂ (Connection.close env c₂) :=
      .head .close (close_steps env c₂).1
    exact hsteps.trace
  rw [htrace]
  rw [refill, hstream] at h
  dsimp only at h
  rw [hpull] at h
  cases answer with
  | idle =>
    cases h
    exact List.prefix_rfl
  | wrote =>
    dsimp only at h
    split_ifs at h <;> cases h <;> exact List.prefix_rfl
  | finished =>
    dsimp only at h
    split_ifs at h <;> cases h
    · exact hclose c₁
    · exact trace_releaseStreamSource c₁.pushWriteBuffer
    · exact hclose (appendToWriteBuffer env scratch c₁)
    · exact trace_releaseStreamSource (appendToWriteBuffer env scratch c₁).pushWriteBuffer

/-- A notification makes an idle stream pull. -/
theorem onStreamNotified_pulls (h : Held c) (hattached : (streamStatus c.trace).attached = true)
    (hlast : (streamStatus c.trace).last = some .idle) {fuel : ℕ} {interest : EpollInterest}
    (hcall : onStreamNotified env fuel c = (c', some interest)) : ∃ bytes answer,
      c.trace ++ [(c.ticks, .pulled bytes answer)] <+: c'.trace := by
  obtain ⟨hstate, hstream, hvectors⟩ := h.attached hattached
  obtain ⟨source, hsome⟩ := Option.ne_none_iff_exists'.1 hstream
  rw [onStreamNotified, if_neg (not_not.2 hstate)] at hcall
  cases fuel with
  | zero => cases hcall
  | succ fuel =>
    have hpending : c.pendingBytes = 0 := by
      rw [pendingBytes, hvectors hlast]
      rfl
    rw [driveStream, hpending, Nat.zero_sub, streamWriteLoop] at hcall
    dsimp only at hcall
    have hsettle : settleWrites env 0 c = c.clearWrites := if_neg (lt_irrefl 0)
    rw [hsettle] at hcall
    rcases hrefill : refill env c.clearWrites with ⟨c₂, flow⟩
    obtain ⟨bytes, answer, hpulled⟩ := refill_pulls (c := c.clearWrites) hsome hrefill
    refine ⟨bytes, answer, ?_⟩
    rw [hrefill] at hcall
    cases flow with
    | exit interest' =>
      cases hcall
      exact hpulled
    | next =>
      dsimp only at hcall
      have hstate₂ : c₂.state = .streaming := by
        obtain ⟨-, hend⟩ : Steps env anything c.clearWrites c₂ ∧ _ :=
          refill_steps hstate ⟨rfl, rfl, rfl⟩ hrefill
        rcases hend with ⟨-, hflow⟩ | ⟨hstate₂, -⟩
        · cases hflow
        · exact hstate₂
      have hsteps : Steps env anything c₂ (driveStream env fuel c₂).1 :=
        (driveStream_steps env fuel hstate₂).1
      rw [hcall] at hsteps
      exact hpulled.trans hsteps.trace

end Connection

end ErikslundHttp
