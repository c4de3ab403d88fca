import ErikslundHttp.Connection.RequestDeadline
import ErikslundHttp.Response.Framing

/-!
# The `Connection` field of a response

Whether a connection stays open is decided twice: when a response is encoded, for its `Connection`
field, and when its last byte is sent.  Between the two nothing changes what the decision depends
on, so the field tells the truth, and the count of requests in it bounds the answers of a
connection.

* `Proceeds` says once what an action does to the response being written.
* `Announces` and `Counted` are the invariants that follow from it.
* `connection_field_tells`: what a peer that reads the field can rely on.
-/

namespace ErikslundHttp

/-- An answer that is an error response. -/
def Event.isRejection : Event → Bool
  | .rejected _ _ => true
  | _ => false

namespace Connection

variable {σ : Type} {env : Environment σ} {world : σ → σ → Prop} {c c' : Connection σ}

/-! ### The answers of a connection -/

/-- The answers that were begun: requests dispatched and error responses. -/
def answers (c : Connection σ) : List Event := (c.trace.map Prod.snd).filter Event.isAnswer

theorem answers_of_trace (h : c'.trace = c.trace) : c'.answers = c.answers := by
  rw [answers, h, answers]

theorem answers_concat {entry : ℕ × Event} (h : c'.trace = c.trace ++ [entry]) :
    c'.answers = c.answers ++ if entry.2.isAnswer then [entry.2] else [] := by
  rw [answers, h, List.map_append, List.filter_append, answers]
  cases hanswer : entry.2.isAnswer <;> simp [hanswer]

/-- Something is recorded that is no answer. -/
theorem answers_other {entry : ℕ × Event} (h : c'.trace = c.trace ++ [entry])
    (hentry : entry.2.isAnswer = false) : c'.answers = c.answers := by
  rw [answers_concat h, hentry]
  exact List.append_nil _

theorem answers_detached (h : c'.trace = c.trace ++ [(c.ticks, .detached)]) :
    c'.answers = c.answers := answers_other h rfl

theorem answers_attached (h : c'.trace = c.trace ++ [(c.ticks, .attached)]) :
    c'.answers = c.answers := answers_other h rfl

theorem answers_releaseStreamSource (c : Connection σ) :
    c.releaseStreamSource.answers = c.answers := by
  rw [releaseStreamSource]
  dsimp only
  split
  · exact answers_detached rfl
  · exact answers_of_trace rfl

variable (env) in
theorem answers_beginClose (c : Connection σ) : (beginClose env c).answers = c.answers := by
  rw [beginClose]
  split_ifs
  · rfl
  · exact (answers_of_trace rfl).trans c.answers_releaseStreamSource

theorem answers_completeResponse (c : Connection σ) : c.completeResponse.answers = c.answers := by
  have hcompleted : (c.record .completed).answers = c.answers := answers_other rfl rfl
  exact (answers_of_trace rfl).trans ((answers_releaseStreamSource
    { c.record .completed with requestsServed := c.requestsServed + 1 }).trans hcompleted)

theorem answers_read {status : TransportStatus} {bytes : Bytes}
    (h : read env c = (c', status, bytes)) : c'.answers = c.answers :=
  answers_other (trace_read h) rfl

variable (env) in
theorem noteFirstBytes_counts (c : Connection σ) :
    (noteFirstBytes env c).requestsServed = c.requestsServed ∧
      (noteFirstBytes env c).answers = c.answers := by
  rw [noteFirstBytes]
  split_ifs
  · exact ⟨rfl, rfl⟩
  · exact ⟨rfl, answers_of_trace rfl⟩

theorem answers_writev {status : TransportStatus} {accepted : ℕ}
    (h : writev env c = (c', status, accepted)) : c'.answers = c.answers :=
  answers_other (trace_writev h) rfl

theorem answers_pull {source : StreamSource} {scratch : Bytes} {answer : Pull}
    (h : c.pull source = (c', scratch, answer)) : c'.answers = c.answers := by
  simp only [pull, Prod.mk.injEq] at h
  obtain ⟨rfl, -, -⟩ := h
  exact answers_other (c := c) rfl rfl

theorem answers_discard {status : TransportStatus} {bytes : Bytes}
    (h : discard env c = (c', status, bytes)) : c'.answers = c.answers := by
  simp only [discard, Prod.mk.injEq] at h
  obtain ⟨rfl, -, -⟩ := h
  exact answers_other (c := c) rfl rfl

/-! ### The response being written -/

instance (c : Connection σ) : Decidable (KeepsAlive env c) :=
  inferInstanceAs (Decidable (_ ∧ _ ∧ _))

/-- The vectors hold a response that says whether the connection stays open after it, and the
transport has its bytes as far as they are not left to send. -/
structure Announces (env : Environment σ) (c : Connection σ) : Prop where
  /-- The field says whether the connection stays open. -/
  field : readFieldValues "Connection" c.writeVectors.flatten =
    [connectionToken (decide (KeepsAlive env c))]
  /-- The bytes of the connection end with the response. -/
  sent : c.writeVectors.flatten <:+ c.ledger.sent ++ c.unsent

variable (env) in
theorem announces_serialize (response : Response) (c : Connection σ) :
    Announces env (serialize env response c) := by
  have hwire := unsent_serialize env response c
  rw [unsent, show (serialize env response c).writeOffset = 0 from rfl, List.drop_zero] at hwire
  refine ⟨?_, List.suffix_append _ _⟩
  rw [hwire, readFieldValues_connection]
  have hkeeps : decide (KeepsAlive env (serialize env response c)) = (!response.isStream &&
      (c.request.keepAlive && decide (c.requestsServed + 1 <
        env.options.maxRequestsPerConnection.toNat))) := by
    rw [Bool.eq_iff_iff]
    simp [KeepsAlive, serialize]
  rw [hkeeps]
  cases response.isStream <;> rfl

variable (env) in
theorem Announces.enterState (next : ConnectionState) (h : Announces env c) :
    Announces env (enterState env next c) := ⟨h.field, h.sent⟩

/-- The response being written stays the same. -/
structure SameResponse (c c' : Connection σ) : Prop where
  vectors : c'.writeVectors = c.writeVectors
  pending : c'.pendingResponse = c.pendingResponse
  /-- The request that it answers. -/
  request : c'.request = c.request
  count : c'.requestsServed = c.requestsServed
  /-- Bytes go from the one part to the other. -/
  sent : c'.ledger.sent ++ c'.unsent = c.ledger.sent ++ c.unsent

theorem SameResponse.keepsAlive_iff (h : SameResponse c c') :
    KeepsAlive env c' ↔ KeepsAlive env c := by
  rw [KeepsAlive, KeepsAlive, h.pending, h.request, h.count]

theorem SameResponse.announces (h : SameResponse c c') (hc : Announces env c) :
    Announces env c' := by
  refine ⟨?_, ?_⟩
  · rw [h.vectors, hc.field]
    simp only [h.keepsAlive_iff]
  · rw [h.vectors, h.sent]
    exact hc.sent

theorem Sends.sameResponse {count : ℕ} (h : Sends c c' count) : SameResponse c c' := by
  have hsent := h.sent_append_unsent
  obtain ⟨_, _, _, _, _, rfl⟩ := h.frame
  exact ⟨rfl, rfl, rfl, rfl, hsent⟩

/-! ### What an action does -/

/-- What an action does to the response being written and to the answers. -/
inductive Proceeds (env : Environment σ) (c c' : Connection σ) : Prop
  | reads (hfrom : c.state.isReading = true) (hto : c'.state.isReading = true)
      (hcount : c'.requestsServed = c.requestsServed) (hanswers : c'.answers = c.answers)
  | answers (event : Event) (hfrom : c.state.isReading = true) (hto : c'.state = .writing)
      (hcount : c'.requestsServed = c.requestsServed) (hanswers : c'.answers = c.answers ++ [event])
      (hrejection : event.isRejection = true → c'.request.keepAlive = false)
      (hannounces : Announces env c')
  | writes (hfrom : c.state = .writing) (hto : c'.state = .writing) (hsame : SameResponse c c')
      (hanswers : c'.answers = c.answers)
  | next (hfrom : c.state = .writing) (hkeep : KeepsAlive env c) (hto : c'.state.isReading = true)
      (hcount : c'.requestsServed = c.requestsServed + 1) (hanswers : c'.answers = c.answers)
  | ends (hto : c'.state = .streaming ∨ c'.state = .closing) (hanswers : c'.answers = c.answers)

theorem state_cases (c : Connection σ) : c.state.isReading = true ∨ c.state = .writing ∨
    c.state = .streaming ∨ c.state = .closing := by
  cases c.state <;> simp [ConnectionState.isReading]

theorem read_served {status : TransportStatus} {bytes : Bytes}
    (h : read env c = (c', status, bytes)) : c'.requestsServed = c.requestsServed := by
  simp only [read, Prod.mk.injEq] at h
  obtain ⟨rfl, -, -⟩ := h
  rfl

theorem proceeds_read {status : TransportStatus} {bytes : Bytes} (hfrom : c.state.isReading = true)
    (h : read env c = (c', status, bytes)) : Proceeds env c c' := by
  refine .reads hfrom ?_ (read_served h) (answers_read h)
  rw [read_state h]
  exact hfrom

theorem proceeds_close (h : c'.answers = c.answers) : Proceeds env c (beginClose env c') :=
  .ends (.inr (state_beginClose env c')) ((answers_beginClose env c').trans h)

theorem proceeds_serve (h : Idle env c) (hfrom : c.state.isReading = true)
    (parsed : ParsedRequest View) : Proceeds env c (serve env parsed c) := by
  have htrace := trace_serve env h.pending parsed
  have hserve := serve_eq env h.pending parsed
  refine .answers (.dispatched (dispatchOf env parsed c).request (dispatchOf env parsed c).now)
    hfrom rfl ?_ ?_ nofun ?_
  · rw [hserve]
    rfl
  · simp [answers, htrace, Event.isAnswer]
  · rw [hserve]
    exact (announces_serialize env _ _).enterState env .writing

theorem proceeds_reject (status : Status) (hfrom : c.state.isReading = true) :
    Proceeds env c (reject env status c) :=
  .answers (.rejected status (env.systemClock (c.ticks + 1))) hfrom rfl rfl
    (answers_concat (trace_reject env status c)) (fun _ => rfl)
    ((announces_serialize env (errorResponse status) _).enterState env .writing)

/-- What is recorded before an action does not change what the action does. -/
theorem Proceeds.of_eq {c₀ : Connection σ} (h : Proceeds env c c') (hstate : c₀.state = c.state)
    (hcount : c₀.requestsServed = c.requestsServed) (hanswers : c₀.answers = c.answers)
    (hreading : c₀.state.isReading = true) : Proceeds env c₀ c' := by
  have hreading' : c.state.isReading = true := hstate ▸ hreading
  cases h with
  | reads _ hto hcount' hanswers' =>
    exact .reads hreading hto (hcount'.trans hcount.symm) (hanswers'.trans hanswers.symm)
  | answers event _ hto hcount' hanswers' hrejection hannounces =>
    exact .answers event hreading hto (hcount'.trans hcount.symm) (by rw [hanswers', hanswers])
      hrejection hannounces
  | writes hfrom _ _ _ => rw [hfrom] at hreading'; cases hreading'
  | next hfrom _ _ _ _ => rw [hfrom] at hreading'; cases hreading'
  | ends hto hanswers' => exact .ends hto (hanswers'.trans hanswers.symm)

theorem action_proceeds (h : Action env world c c') (hinv : Inv env c) : Proceeds env c c' := by
  -- a response is served or rejected after a parse, which records nothing
  have hparsed : ∀ {c₁ c₂ : Connection σ} {result : Except ParseError (ParsedRequest View)},
      c.readsRequests → parse env c = (result, c₁) → (Idle env c₁ → c₁.state.isReading = true →
        Proceeds env c₁ c₂) → Proceeds env c c₂ := by
    intro c₁ c₂ result hstate hparse hproceeds
    have hreading := isReading_of_readsRequests hstate
    obtain ⟨hidle, hsame, -⟩ := parse_idle (hinv.toIdle hreading) hparse
    have hanswers := answers_of_trace (trace_parse hparse)
    obtain ⟨_, rfl⟩ := parse_frame hparse
    exact (hproceeds hidle hreading).of_eq rfl rfl hanswers.symm hreading
  cases h with
  | handshake hstate => exact .reads (hstate ▸ rfl) (hstate ▸ rfl) rfl rfl
  | handshaken hstate => exact .reads (hstate ▸ rfl) rfl rfl rfl
  | readNothing hstate _ hread _ =>
    exact proceeds_read (isReading_of_readsRequests hstate) hread
  | @readHead c₁ bytes hstate _ hread _ =>
    obtain ⟨hserved, hanswers⟩ := noteFirstBytes_counts env (c₁.commit bytes)
    have hserved' := read_served hread
    have hanswers' := answers_read hread
    refine .reads (hstate ▸ rfl) ?_ (hserved.trans hserved') (hanswers.trans hanswers')
    rw [state_noteFirstBytes]
    exact (read_state hread).trans hstate ▸ rfl
  | readBody hstate _ hread _ =>
    have hserved := read_served hread
    have hanswers := answers_read hread
    exact .reads (hstate ▸ rfl) ((read_state hread).trans hstate ▸ rfl) hserved hanswers
  | parseShort hstate hparse =>
    have hreading := isReading_of_readsRequests hstate
    have hanswers := answers_of_trace (trace_parse hparse)
    obtain ⟨_, rfl⟩ := parse_frame hparse
    exact .reads hreading hreading rfl hanswers
  | awaitBody hstate _ _ _ => exact .reads (hstate ▸ rfl) rfl rfl rfl
  | serve hstate hparse =>
    exact hparsed hstate hparse fun hidle hreading => proceeds_serve hidle hreading _
  | reject hstate hparse _ =>
    exact hparsed hstate hparse fun _ hreading => proceeds_reject _ hreading
  | timeOut hstate _ => exact proceeds_reject _ (isReading_of_readsRequests hstate)
  | writeNothing hstate _ hwrite hnothing =>
    have hsends := writev_sends_nothing hwrite hnothing
    exact .writes hstate (hsends.state_eq.trans hstate) hsends.sameResponse (answers_writev hwrite)
  | write hstate _ hwrite _ =>
    have hsends := (writev_sends hwrite).2 rfl
    have hanswers := answers_writev hwrite
    exact .writes hstate (hsends.state_eq.trans hstate) hsends.sameResponse hanswers
  | nextRequest hstate _ hkeep =>
    obtain ⟨-, trace, heq⟩ := c.completeResponse_frame
    refine .next hstate hkeep rfl ?_ c.answers_completeResponse
    rw [heq]
    rfl
  | lastResponse _ _ _ _ => exact proceeds_close c.answers_completeResponse
  | attach _ _ _ _ _ _ _ =>
    exact .ends (.inl rfl) (answers_attached rfl)
  | attachThrows _ _ _ _ _ _ _ =>
    exact proceeds_close (answers_attached rfl)
  | streamNothing hstate _ hwrite _ _ =>
    have hsame := (awaitWriteProgress_same env _).1.trans ((writev_same hwrite).1.trans hstate)
    refine .ends (.inl hsame) (Eq.trans ?_ (answers_writev hwrite))
    rw [awaitWriteProgress]
    split_ifs
    · rfl
    · exact answers_of_trace rfl
  | streamWrite hstate _ hwrite _ =>
    have hanswers := answers_writev hwrite
    exact .ends (.inl ((writev_same hwrite).1.trans hstate)) hanswers
  | streamFailed _ _ hwrite _ => exact proceeds_close (answers_writev hwrite)
  | settle hstate _ =>
    refine .ends (.inl ((settleWrites_settled env _ c).2.trans hstate)) ?_
    rw [settleWrites]
    split_ifs
    · exact answers_of_trace rfl
    · exact answers_of_trace rfl
  | pullNothing _ hstate _ _ hpull _ =>
    exact .ends (.inl ((pull_state hpull).trans hstate)) (answers_pull hpull)
  | pullBytes _ hstate _ _ hpull _ =>
    have hanswers := answers_pull hpull
    exact .ends (.inl ((pull_state hpull).trans hstate)) hanswers
  | pullLast _ hstate _ _ hpull _ =>
    have hanswers := answers_pull hpull
    refine .ends (.inl ?_) ((answers_releaseStreamSource _).trans hanswers)
    exact (state_releaseStreamSource _).trans ((pull_state hpull).trans hstate)
  | pullEnd _ _ _ _ hpull => exact proceeds_close (answers_pull hpull)
  | close => exact proceeds_close rfl
  | discard hstate hread =>
    exact .ends (.inr ((discard_frame hread).2.2.trans hstate)) (answers_discard hread)
  | elsewhere transport _ =>
    rcases c.state_cases with hreading | hwriting | hstreaming | hclosing
    · exact .reads hreading hreading rfl rfl
    · exact .writes hwriting hwriting ⟨rfl, rfl, rfl, rfl, rfl⟩ rfl
    · exact .ends (.inl hstreaming) rfl
    · exact .ends (.inr hclosing) rfl

/-! ### The invariants -/

/-- The count of requests bounds the answers, and an error response is the last one. -/
structure Counted (env : Environment σ) (c : Connection σ) : Prop where
  /-- Every answer so far was to a request that has been served. -/
  reading : c.state.isReading = true → c.answers.length = c.requestsServed ∧
    c.requestsServed < env.options.maxRequestsPerConnection.toNat ∧
    ∀ event ∈ c.answers, event.isRejection = false
  /-- The answer that is written is not counted yet. -/
  writing : c.state = .writing → c.answers.length = c.requestsServed + 1 ∧
    (c.request.keepAlive = true → ∀ event ∈ c.answers, event.isRejection = false)
  /-- There are never more answers than the limit of requests. -/
  bound : c.answers.length ≤ env.options.maxRequestsPerConnection.toNat
  /-- Only the last answer can be a rejection. -/
  rejections : ∀ event ∈ c.answers.dropLast, event.isRejection = false

theorem Proceeds.announces (h : Proceeds env c c') (hc : c.state = .writing → Announces env c)
    (hwriting : c'.state = .writing) : Announces env c' := by
  cases h with
  | reads _ hto _ _ => rw [hwriting] at hto; cases hto
  | answers _ _ _ _ _ _ hannounces => exact hannounces
  | writes hfrom _ hsame _ => exact hsame.announces (hc hfrom)
  | next _ _ hto _ _ => rw [hwriting] at hto; cases hto
  | ends hto _ => rw [hwriting] at hto; rcases hto with hto | hto <;> cases hto

theorem Proceeds.counted (h : Proceeds env c c') (hc : Counted env c) : Counted env c' := by
  cases h with
  | reads hfrom hto hcount hanswers =>
    obtain ⟨hlength, hlt, hnone⟩ := hc.reading hfrom
    refine ⟨fun _ => ?_, fun hwriting => ?_, ?_, ?_⟩
    · rw [hanswers, hcount]
      exact ⟨hlength, hlt, hnone⟩
    · rw [hwriting] at hto
      cases hto
    · rw [hanswers]
      exact hc.bound
    · rw [hanswers]
      exact hc.rejections
  | answers event hfrom hto hcount hanswers hrejection _ =>
    obtain ⟨hlength, hlt, hnone⟩ := hc.reading hfrom
    have hlength' : c'.answers.length = c.requestsServed + 1 := by simp [hanswers, hlength]
    refine ⟨fun hreading => ?_, fun _ => ⟨hcount ▸ hlength', fun hkeep => ?_⟩, ?_, ?_⟩
    · rw [hto] at hreading
      cases hreading
    · -- an error response does not keep the connection alive
      have hevent : event.isRejection = false := by
        by_contra hrejected
        cases hkeep.symm.trans (hrejection (Bool.eq_true_of_not_eq_false hrejected))
      rw [hanswers]
      simpa [or_imp, forall_and, hevent] using hnone
    · omega
    · rw [hanswers, List.dropLast_concat]
      exact hnone
  | writes hfrom hto hsame hanswers =>
    refine ⟨fun hreading => ?_, fun _ => ?_, ?_, ?_⟩
    · rw [hto] at hreading
      cases hreading
    · rw [hanswers, hsame.count, hsame.request]
      exact hc.writing hfrom
    · rw [hanswers]
      exact hc.bound
    · rw [hanswers]
      exact hc.rejections
  | next hfrom hkeep hto hcount hanswers =>
    obtain ⟨hlength, hnone⟩ := hc.writing hfrom
    refine ⟨fun _ => ?_, fun hwriting => ?_, ?_, ?_⟩
    · rw [hanswers, hcount]
      exact ⟨hlength, hkeep.2.2, hnone hkeep.2.1⟩
    · rw [hwriting] at hto
      cases hto
    · rw [hanswers]
      exact hc.bound
    · rw [hanswers]
      exact hc.rejections
  | ends hto hanswers =>
    refine ⟨fun hreading => ?_, fun hwriting => ?_, ?_, ?_⟩
    · rcases hto with hto | hto <;> rw [hto] at hreading <;> cases hreading
    · rcases hto with hto | hto <;> rw [hto] at hwriting <;> cases hwriting
    · rw [hanswers]
      exact hc.bound
    · rw [hanswers]
      exact hc.rejections

theorem Steps.announces {transport : σ} (h : Steps env world (Connection.init env transport) c) :
    c.state = .writing → Announces env c :=
  h.induct (I := fun c => c.state = .writing → Announces env c)
    (fun _ _ hact hinv hc => (action_proceeds hact hinv).announces hc) nofun

theorem Steps.counted {transport : σ} (hmax : 1 ≤ env.options.maxRequestsPerConnection.toNat)
    (h : Steps env world (Connection.init env transport) c) : Counted env c :=
  h.induct (fun _ _ hact hinv hc => (action_proceeds hact hinv).counted hc)
    ⟨fun _ => ⟨rfl, hmax, List.forall_mem_nil _⟩, nofun, Nat.zero_le _, List.forall_mem_nil _⟩

/-! ### The end of a response -/

theorem state_afterWrite (fuel : ℕ) (c : Connection σ) :
    (KeepsAlive env c → (afterWrite env fuel c).1.state = .readingHeaders) ∧
    (¬ KeepsAlive env c → (afterWrite env fuel c).1.state = .closing ∨
      (afterWrite env fuel c).1.state = .streaming) := by
  obtain ⟨hnext, hlast⟩ := finishResponse_eq env c
  have hclose : ∀ c : Connection σ, (close env c).state = .closing := by
    intro c
    have hsteps : Steps env anything (beginClose env c) (close env c) ∧ _ := close_steps env c
    exact hsteps.2
  have hstreams : ∀ c : Connection σ, c.state = .streaming →
      (driveStream env fuel c).1.state = .closing ∨
        (driveStream env fuel c).1.state = .streaming := by
    intro c hstate
    have hsteps : Steps env anything c (driveStream env fuel c).1 ∧ _ :=
      driveStream_steps env fuel hstate
    exact hsteps.2.1.symm
  have hfinish : (KeepsAlive env c → (finishResponse env (c.pendingResponse.any
        Response.isStream) c).1.state = .readingHeaders) ∧
      (¬ KeepsAlive env c → (finishResponse env (c.pendingResponse.any
        Response.isStream) c).1.state = .closing) := by
    refine ⟨fun hkeep => ?_, fun hnot => ?_⟩
    · rw [hnext hkeep]
      rfl
    · rw [hlast hnot]
      exact hclose _
  rw [afterWrite]
  cases c.stream with
  | none => exact hfinish.imp_right fun h hnot => .inl (h hnot)
  | some source =>
    dsimp only
    by_cases hattach : (c.pendingResponse.any Response.isStream && c.request.method != .head) = true
    · rw [if_pos hattach]
      refine ⟨fun hkeep => ?_, fun _ => ?_⟩
      · rw [hkeep.1] at hattach
        cases hattach
      · split_ifs
        · exact .inl (hclose _)
        · exact hstreams _ rfl
    · rw [if_neg hattach]
      exact hfinish.imp_right fun h hnot => .inl (h hnot)

/-- **The `Connection` field tells the truth.**  Whenever `drive_write` sends what is left of a
response, in any run, the transport has the whole response.  Its client reads one `Connection` field
in it: `keep-alive` exactly if `drive_write` returns to reading headers, and `close` exactly if it
closes the connection or starts to stream.  A connection that may serve a request begins no more
answers than it may serve requests, and only the last of them may be an error response. -/
theorem connection_field_tells (env : Environment σ) (world : σ → σ → Prop) (transport : σ)
    {c : Connection σ} (h : Steps env world (Connection.init env transport) c) :
    (∀ fuel c₁, c.state = .writing →
      writeLoop env (c.pendingBytes - c.writeOffset) c = (c₁, .next) →
      let response := c.writeVectors.flatten
      let driven := (driveWrite env fuel c).1
      response <:+ c₁.ledger.sent ∧
      (readFieldValues "Connection" response = [ascii "keep-alive"] ↔
        driven.state = .readingHeaders) ∧
      (readFieldValues "Connection" response = [ascii "close"] ↔
        driven.state = .closing ∨ driven.state = .streaming)) ∧
    (1 ≤ env.options.maxRequestsPerConnection.toNat →
      c.answers.length ≤ env.options.maxRequestsPerConnection.toNat ∧
      ∀ event ∈ c.answers.dropLast, event.isRejection = false) := by
  refine ⟨fun fuel c₁ hstate hloop => ?_, fun hmax => ?_⟩
  · intro response driven
    have hannounces := h.announces hstate
    have hwrites : Steps env world c c₁ ∧ _ :=
      writeLoop_steps hstate (le_of_eq c.length_unsent) hloop
    obtain ⟨-, -, hunsent⟩ := hwrites
    obtain ⟨count, hsends⟩ := writeLoop_sends hloop
    have hsame := hsends.sameResponse
    have hdriven : driven = (afterWrite env fuel c₁).1 := by
      show (driveWrite env fuel c).1 = _
      rw [driveWrite, hloop]
    have hafter : (KeepsAlive env c₁ → _) ∧ _ := state_afterWrite fuel c₁
    obtain ⟨hopen, hclosed⟩ := hafter
    rw [hsame.keepsAlive_iff] at hopen hclosed
    refine ⟨?_, ?_⟩
    · have hsent := hannounces.sent
      rwa [← hsame.sent, hunsent rfl, List.append_nil] at hsent
    · rw [hannounces.field, hdriven]
      by_cases hkeep : KeepsAlive env c
      · rw [hopen hkeep, decide_eq_true hkeep]
        decide
      · rw [decide_eq_false hkeep]
        rcases hclosed hkeep with hstate' | hstate' <;> rw [hstate'] <;> decide
  · exact ⟨(h.counted hmax).bound, (h.counted hmax).rejections⟩

/-- A peer that takes the response late: the head it gets says that the connection stays open. -/
theorem connection_field_tells_keep_alive :
    let env := Environment.scripted fun _ => .returned (.text (ascii "ok"))
    let c := run env (init env ⟨[ascii "GET / HTTP/1.1\r\nHost: a\r\n\r\n"], false⟩)
      [.step 3 1, .elsewhere fun peer => { peer with takes := true }]
    (driveWrite env 3 c).1.state = .readingHeaders ∧ c.answers.length = 1 ∧
      readFieldValues "Connection" c.writeVectors.flatten = [ascii "keep-alive"] := by
  intro env c
  have hsteps : Steps env anything (init env _) c := run_steps env _ _
  have hstate : c.state = .writing := by decide +kernel
  rcases hloop : writeLoop env (c.pendingBytes - c.writeOffset) c with ⟨c₁, flow⟩
  have hwritten : flow = .next := by
    rw [show flow = (writeLoop env (c.pendingBytes - c.writeOffset) c).2 by rw [hloop]]
    decide +kernel
  subst hwritten
  have hnext : (driveWrite env 3 c).1.state = .readingHeaders := by decide +kernel
  have h := (connection_field_tells env anything _ hsteps).1 3 c₁ hstate hloop
  exact ⟨hnext, by decide +kernel, h.2.1.2 hnext⟩

end Connection

end ErikslundHttp
