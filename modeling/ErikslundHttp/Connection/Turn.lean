import ErikslundHttp.Connection.Actions
import ErikslundHttp.Request.Short

/-!
# One turn ends

A call of `step` reads, parses, answers and writes as long as the transport lets it.  No loop of it
but the one over the passes has a counter.  What bounds them is the parser: it asks for more bytes
only while it has fewer than it can want (`demand`), and a read that goes on gives at least one.

* `writeLoop_steps`: the loop of `drive_write` ends when the bytes are sent.
* `Within` says of a part of the driver how many requests it dispatches at most, and that the parser
  does not come to want more.
* `turn_ends`: a bound on the fuel that is known before a call holds in each part of it, for every
  connection, reachable or not.
-/

namespace ErikslundHttp

/-! ### What a parser can want -/

namespace RequestParser

/-- A parser never asks for more when it has this many bytes. -/
def demand (limits : RequestLimits) (p : RequestParser) : ℕ :=
  max (maxRequestBytes limits) (if p.headComplete then p.bodyOffset + p.bodyBytes else 0)

variable {limits : RequestLimits} {p p' : RequestParser} {bytes : View}
  {result : Except ParseError (ParsedRequest View)}

theorem demand_of_headComplete (h : p.headComplete = true) :
    p.demand limits = max (maxRequestBytes limits) (p.bodyOffset + p.bodyBytes) := by
  rw [demand, if_pos h]

theorem demand_reset (limits : RequestLimits) (p : RequestParser) :
    p.reset.demand limits = maxRequestBytes limits := Nat.max_zero _

theorem maxRequestBytes_le_demand (limits : RequestLimits) (p : RequestParser) :
    maxRequestBytes limits ≤ p.demand limits := le_max_left _ _

theorem parseBody_demand (hcomplete : p.headComplete = true)
    (h : p.parseBody bytes = (result, p')) :
    p'.demand limits ≤ p.demand limits ∧
      (result = .error .needsMoreData → bytes.size ≤ p.demand limits) := by
  have hdemand : p.bodyOffset + p.bodyBytes ≤ p.demand limits := by
    rw [demand_of_headComplete hcomplete]
    exact le_max_right _ _
  have hreset : ∀ q : RequestParser, q.reset.demand limits ≤ p.demand limits := fun q =>
    (demand_reset limits q).trans_le (maxRequestBytes_le_demand limits p)
  -- the views may move, the sizes stay
  have hbodyOffset : (p.rebaseBorrowedViews bytes).bodyOffset = p.bodyOffset := rfl
  have hbodyBytes : (p.rebaseBorrowedViews bytes).bodyBytes = p.bodyBytes := rfl
  rw [parseBody] at h
  dsimp only at h
  split_ifs at h with hoffset hmoved hbody hbody
  · cases h
    exact ⟨le_rfl, fun _ => by omega⟩
  · cases h
    exact ⟨le_rfl, fun _ => by omega⟩
  · cases h
    exact ⟨hreset _, by rintro ⟨⟩⟩
  · cases h
    exact ⟨le_rfl, fun _ => by omega⟩
  · cases h
    exact ⟨hreset _, by rintro ⟨⟩⟩

/-- A parse does not make the parser want more, and asks for more only below what it can want. -/
theorem parse_demand {pton : InetPton} {now : TimePoint}
    (h : p.parse pton now bytes limits = (result, p')) :
    p'.demand limits ≤ p.demand limits ∧
      (result = .error .needsMoreData → bytes.size ≤ p.demand limits) := by
  rw [parse] at h
  split_ifs at h with hcomplete
  · exact parseBody_demand hcomplete h
  cases hhead : findHead pton now bytes limits with
  | error error =>
    rw [parseHead, hhead] at h
    cases h
    refine ⟨le_rfl, fun hmore => ?_⟩
    cases hmore
    have hlength := length_le_of_findHead hhead
    have hmax := maxRequestBytes_le_demand limits p
    rw [maxRequestBytes] at hmax
    omega
  | ok head =>
    rw [parseHead, hhead] at h
    have hhead' : demand limits (rememberBufferOffsets { p with
        request := head.request
        bodyOffset := head.bodyOffset
        bodyBytes := head.bodyBytes
        bufferBase := bytes.data
        headComplete := true }) ≤ p.demand limits := by
      rw [demand_of_headComplete rfl]
      exact (max_le le_rfl (bodyEnd_le hhead)).trans (maxRequestBytes_le_demand limits p)
    refine ⟨(parseBody_demand rfl h).1.trans hhead', fun hmore => ?_⟩
    exact ((parseBody_demand rfl h).2 hmore).trans hhead'

end RequestParser

/-! ### Requests dispatched -/

/-- A request is handed to the application. -/
def Event.isDispatch : Event → Bool
  | .dispatched _ _ => true
  | _ => false

namespace Connection

variable {σ : Type} {env : Environment σ} {c c' c'' : Connection σ}

/-- How many requests were handed to the router. -/
def dispatches (c : Connection σ) : ℕ := c.trace.countP fun entry => entry.2.isDispatch

/-- The bytes that the parser may still ask for. -/
def demand (env : Environment σ) (c : Connection σ) : ℕ :=
  c.requestParser.demand env.options.limits

/-- From `c` to `c'` at most `count` requests are dispatched, and the parser does not come to want
more. -/
structure Within (env : Environment σ) (count : ℕ) (c c' : Connection σ) : Prop where
  /-- At most so many requests are dispatched. -/
  dispatches : c'.dispatches ≤ c.dispatches + count
  /-- The parser does not come to want more bytes. -/
  demand : c'.demand env ≤ c.demand env

namespace Within

theorem refl (c : Connection σ) : Within env 0 c c := ⟨le_rfl, le_rfl⟩

theorem trans {m n : ℕ} (h : Within env m c c') (h' : Within env n c' c'') :
    Within env (m + n) c c'' :=
  ⟨by have := h.dispatches; have := h'.dispatches; omega, h'.demand.trans h.demand⟩

theorem mono {m n : ℕ} (h : Within env m c c') (hle : m ≤ n) : Within env n c c' :=
  ⟨h.dispatches.trans (Nat.add_le_add_left hle _), h.demand⟩

/-- After a part that dispatches nothing. -/
theorem after {n : ℕ} (h : Within env 0 c c') (h' : Within env n c' c'') : Within env n c c'' :=
  (h.trans h').mono (Nat.zero_add n).le

/-- Neither the trace nor the parser changes. -/
theorem of_eq (htrace : c'.trace = c.trace) (hparser : c'.requestParser = c.requestParser) :
    Within env 0 c c' :=
  ⟨by rw [Connection.dispatches, htrace]; exact le_rfl,
    by rw [Connection.demand, hparser]; exact le_rfl⟩

theorem same {n : ℕ} (h : Within env n c c') (htrace : c''.trace = c'.trace)
    (hparser : c''.requestParser = c'.requestParser) : Within env n c c'' :=
  h.trans (of_eq htrace hparser)

/-- Something is recorded that is no dispatch. -/
theorem of_concat {entry : ℕ × Event} (htrace : c'.trace = c.trace ++ [entry])
    (hentry : entry.2.isDispatch = false) (hparser : c'.requestParser = c.requestParser) :
    Within env 0 c c' :=
  ⟨by simp [Connection.dispatches, htrace, hentry], by rw [Connection.demand, hparser]; exact le_rfl⟩

end Within

variable (env)

/-! ### The parts of the driver -/

theorem within_releaseStreamSource (c : Connection σ) : Within env 0 c c.releaseStreamSource := by
  rw [releaseStreamSource]
  dsimp only
  split
  · exact .of_concat rfl rfl rfl
  · exact .of_eq rfl rfl

theorem within_beginClose (c : Connection σ) : Within env 0 c (beginClose env c) := by
  rw [beginClose]
  split_ifs
  · exact .refl c
  · exact (within_releaseStreamSource env c).same rfl rfl

theorem within_drain (passes : ℕ) (c : Connection σ) : Within env 0 c (drain env passes c) := by
  induction passes generalizing c with
  | zero => exact .refl c
  | succ passes ih =>
    have hdiscard : Within env 0 c (discard env c).1 := .of_concat rfl rfl rfl
    rw [drain]
    dsimp only
    split_ifs
    · exact hdiscard
    · exact hdiscard.after (ih _)

theorem within_close (c : Connection σ) : Within env 0 c (close env c) :=
  (within_beginClose env c).after (within_drain env _ _)

theorem within_receive (c : Connection σ) : Within env 0 c (receive env c).1 := by
  have hread : Within env 0 c (read env c).1 := .of_concat rfl rfl rfl
  rcases receive_cases (Prod.mk.eta (p := receive env c)).symm with
    ⟨status, bytes, heq, -⟩ | ⟨c₁, status, bytes, heq, -, hclosed, -⟩ | ⟨c₁, bytes, heq, -, hcommit, -⟩
  · rw [heq] at hread
    exact hread
  · rw [heq] at hread
    rw [hclosed]
    exact hread.after (within_close env c₁)
  · rw [heq] at hread
    rw [hcommit]
    exact hread.same rfl rfl

theorem within_noteFirstBytes (c : Connection σ) : Within env 0 c (noteFirstBytes env c) := by
  rw [noteFirstBytes]
  split_ifs
  · exact .refl c
  · exact .of_eq rfl rfl

theorem within_parse (c : Connection σ) : Within env 0 c (parse env c).2 :=
  ⟨le_rfl, (RequestParser.parse_demand (Prod.mk.eta (p := c.requestParser.parse env.pton
    (env.steadyClock c.ticks) c.readBuffer.view env.options.limits)).symm).1⟩

/-- A request that is served is dispatched once. -/
theorem within_serve (parsed : ParsedRequest View) (c : Connection σ) :
    Within env 1 c (serve env parsed c) := by
  have hadopt : Within env 0 c (adoptParsedRequest env parsed c) := .of_concat rfl rfl rfl
  refine hadopt.after ?_
  rw [serve, dispatchAndSerialize]
  split
  · exact ⟨Nat.le_succ _, le_rfl⟩
  · exact ⟨by simp [dispatches, enterState, armDeadline, serialize, record, Event.isDispatch], le_rfl⟩

theorem within_reject (status : Status) (c : Connection σ) :
    Within env 0 c (reject env status c) :=
  ⟨by simp [dispatches, reject, serializeError, dispatchAndSerialize, enterState, armDeadline,
    serialize, record, Event.isDispatch],
    (RequestParser.demand_reset _ _).trans_le (RequestParser.maxRequestBytes_le_demand _ _)⟩

theorem within_writeLoop (rounds : ℕ) (c : Connection σ) :
    Within env 0 c (writeLoop env rounds c).1 := by
  induction rounds generalizing c with
  | zero => exact .refl c
  | succ rounds ih =>
    have hwritev : Within env 0 c (writev env c).1 := .of_concat rfl rfl rfl
    rw [writeLoop]
    split_ifs
    · exact .refl c
    rcases hwrite : writev env c with ⟨c₁, status, accepted⟩
    rw [hwrite] at hwritev
    have hadvanced : Within env 0 c (c₁.advance accepted) := hwritev.same rfl rfl
    cases status with
    | ok =>
      dsimp only
      split_ifs
      · exact hwritev
      · exact hadvanced.after (ih _)
      · exact hadvanced
    | wantRead => exact hwritev
    | wantWrite => exact hwritev
    | closed => exact hwritev
    | error => exact hwritev

theorem within_completeResponse (c : Connection σ) : Within env 0 c c.completeResponse := by
  have hcompleted : Within env 0 c
      { c.record .completed with requestsServed := c.requestsServed + 1 } := .of_concat rfl rfl rfl
  exact (hcompleted.after (within_releaseStreamSource env _)).same rfl rfl

theorem within_finishResponse (streaming : Bool) (c : Connection σ) :
    Within env 0 c (finishResponse env streaming c).1 := by
  have hcompleted := within_completeResponse env c
  rw [finishResponse]
  split_ifs
  · exact hcompleted.same rfl rfl
  · exact hcompleted.after (within_close env _)

/-! ### Streams -/

theorem within_streamWriteLoop (rounds : ℕ) (c : Connection σ) :
    Within env 0 c (streamWriteLoop env rounds c).1 := by
  have hawait : ∀ c : Connection σ, Within env 0 c (awaitWriteProgress env c) := by
    intro c
    rw [awaitWriteProgress]
    split_ifs
    · exact .refl c
    · exact .of_eq rfl rfl
  induction rounds generalizing c with
  | zero => exact .refl c
  | succ rounds ih =>
    have hwritev : Within env 0 c (writev env c).1 := .of_concat rfl rfl rfl
    have hnoted : Within env 0 c (noteWriteProgress env ((writev env c).1.advance
        (writev env c).2.2)) := hwritev.same rfl rfl
    rw [streamWriteLoop]
    dsimp only
    split_ifs
    · exact .refl c
    · exact hwritev.after (within_close env _)
    · exact hwritev.after (hawait _)
    · exact hwritev.after (hawait _)
    · exact hnoted.after (ih _)
    · exact hnoted

theorem within_settleWrites (pending : ℕ) (c : Connection σ) :
    Within env 0 c (settleWrites env pending c) := by
  rw [settleWrites]
  split_ifs
  · exact .of_eq rfl rfl
  · exact .of_eq rfl rfl

theorem within_refill (c : Connection σ) : Within env 0 c (refill env c).1 := by
  rw [refill]
  cases c.stream with
  | none => exact within_close env c
  | some source =>
    have hpull : Within env 0 c (c.pull source).1 := .of_concat rfl rfl rfl
    rcases hanswer : c.pull source with ⟨c₁, scratch, answer⟩
    rw [hanswer] at hpull
    have hpushed : Within env 0 c c₁.pushWriteBuffer := hpull.same rfl rfl
    have happended : Within env 0 c (appendToWriteBuffer env scratch c₁) := hpull.same rfl rfl
    have happendedPushed : Within env 0 c (appendToWriteBuffer env scratch c₁).pushWriteBuffer :=
      hpull.same rfl rfl
    dsimp only
    rw [hanswer]
    cases answer with
    | idle => exact hpull
    | wrote =>
      dsimp only
      split_ifs
      · exact hpull
      · exact happendedPushed
    | finished =>
      dsimp only
      split_ifs
      · exact hpull.after (within_close env c₁)
      · exact hpushed.after (within_releaseStreamSource env _)
      · exact happended.after (within_close env _)
      · exact happendedPushed.after (within_releaseStreamSource env _)

theorem within_driveStream (fuel : ℕ) (c : Connection σ) :
    Within env 0 c (driveStream env fuel c).1 := by
  induction fuel generalizing c with
  | zero => exact .refl c
  | succ fuel ih =>
    have hwritten := within_streamWriteLoop env (c.pendingBytes - c.writeOffset) c
    rw [driveStream]
    rcases hloop : streamWriteLoop env (c.pendingBytes - c.writeOffset) c with ⟨c₁, _ | interest⟩
    · rw [hloop] at hwritten
      have hrefilled := hwritten.after ((within_settleWrites env c.pendingBytes c₁).after
        (within_refill env _))
      dsimp only
      rcases hrefill : refill env (settleWrites env c.pendingBytes c₁) with ⟨c₂, _ | interest⟩
      · rw [hrefill] at hrefilled
        exact hrefilled.after (ih c₂)
      · rw [hrefill] at hrefilled
        exact hrefilled
    · rw [hloop] at hwritten
      exact hwritten

/-! ### The driver -/

theorem within_driveWrite (fuel : ℕ) (c : Connection σ) :
    Within env 0 c (driveWrite env fuel c).1 := by
  have hwritten := within_writeLoop env (c.pendingBytes - c.writeOffset) c
  rw [driveWrite]
  rcases hloop : writeLoop env (c.pendingBytes - c.writeOffset) c with ⟨c₁, _ | interest⟩
  · rw [hloop] at hwritten
    refine hwritten.after ?_
    have hattached : Within env 0 c₁ c₁.attachStream := .of_concat rfl rfl rfl
    have hstreaming : Within env 0 c₁ (enterState env .streaming c₁.attachStream) :=
      hattached.same rfl rfl
    dsimp only
    rw [afterWrite]
    split
    · split_ifs
      · exact hattached.after (within_close env _)
      · exact hstreaming.after (within_driveStream env fuel _)
      · exact within_finishResponse env _ c₁
    · exact within_finishResponse env _ c₁
  · rw [hloop] at hwritten
    exact hwritten

/-- How many requests the inner loop has dispatched when it ends so. -/
def Reading.dispatches : Reading → ℕ
  | .answered => 1
  | _ => 0

theorem within_readRequest (fuel : ℕ) (c : Connection σ) :
    Within env (readRequest env fuel c).2.dispatches c (readRequest env fuel c).1 := by
  induction fuel generalizing c with
  | zero => exact .refl c
  | succ fuel ih =>
    -- one more read, and around again
    have hmore : ∀ c' : Connection σ, Within env 0 c c' → ∀ c₁ reading,
        readMore env fuel c' = (c₁, reading) → Within env reading.dispatches c c₁ := by
      intro c' hc' c₁ reading heq
      rw [readMore] at heq
      have hreceived := hc'.after (within_receive env c')
      rcases hreceive : receive env c' with ⟨c₂, _ | interest⟩
      · rw [hreceive] at heq hreceived
        dsimp only at heq
        have hread := ih (noteFirstBytes env c₂)
        rw [heq] at hread
        exact (hreceived.after (within_noteFirstBytes env c₂)).after hread
      · rw [hreceive] at heq hreceived
        cases heq
        exact hreceived
    rcases hreading : readRequest env (fuel + 1) c with ⟨c₁, reading⟩
    rw [readRequest_succ] at hreading
    split_ifs at hreading with hempty
    · exact hmore c (.refl c) c₁ reading hreading
    have hparsed := within_parse env c
    rcases hparse : parse env c with ⟨_ | _, c₂⟩
    · rw [hparse] at hreading hparsed
      dsimp only at hreading
      split_ifs at hreading with herror hbody
      · cases hreading
        exact hparsed.after ((within_reject env _ c₂).mono (Nat.zero_le 1))
      · cases hreading
        exact hparsed.same rfl rfl
      · exact hmore c₂ hparsed c₁ reading hreading
    · rw [hparse] at hreading hparsed
      cases hreading
      exact hparsed.after (within_serve env _ c₂)

theorem within_driveReadBody (fuel : ℕ) (c : Connection σ) :
    Within env 1 c (driveReadBody env fuel c).1 := by
  induction fuel generalizing c with
  | zero => exact (Within.refl c).mono (Nat.zero_le 1)
  | succ fuel ih =>
    have hparsed := within_parse env c
    rw [driveReadBody]
    rcases hparse : parse env c with ⟨error | parsed, c₁⟩
    · rw [hparse] at hparsed
      dsimp only
      split_ifs
      · exact hparsed.after (((within_reject env _ c₁).after
          (within_driveWrite env fuel _)).mono (Nat.zero_le 1))
      · have hreceived := hparsed.after (within_receive env c₁)
        rcases hreceive : receive env c₁ with ⟨c₂, _ | interest⟩
        · rw [hreceive] at hreceived
          exact hreceived.after (ih c₂)
        · rw [hreceive] at hreceived
          exact hreceived.mono (Nat.zero_le 1)
    · rw [hparse] at hparsed
      exact hparsed.after ((within_serve env parsed c₁).trans (within_driveWrite env fuel _))

theorem within_readPasses (fuel passes : ℕ) (c : Connection σ) :
    Within env passes c (readPasses env fuel passes c).1 := by
  induction passes generalizing c with
  | zero => exact .refl c
  | succ passes ih =>
    -- the pass that has dispatched one request, and the passes that are left
    have hgoOn : ∀ driven : Driven σ, Within env 1 c driven.1 → Within env (passes + 1) c
        (if driven.1.state ≠ .readingHeaders then driven
          else readPasses env fuel passes driven.1).1 := by
      intro driven hdriven
      split_ifs
      · exact hdriven.mono (by omega)
      · exact (hdriven.trans (ih driven.1)).mono (by omega)
    have hread := within_readRequest env fuel c
    rw [readPasses]
    rcases hreading : readRequest env fuel c with ⟨c₁, reading⟩
    rw [hreading] at hread
    cases reading with
    | answered => exact hgoOn _ (hread.trans (within_driveWrite env fuel c₁))
    | bodyPending => exact hgoOn _ (hread.after (within_driveReadBody env fuel c₁))
    | exit interest => exact hread.mono (Nat.zero_le _)
    | unfinished => exact hread.mono (Nat.zero_le _)

theorem within_driveReadHeaders (fuel : ℕ) (c : Connection σ) :
    Within env 8 c (driveReadHeaders env fuel c).1 :=
  within_readPasses env fuel kMaxPipelinedRequestsPerStep c

theorem within_driveHandshake (fuel : ℕ) (c : Connection σ) :
    Within env 8 c (driveHandshake env fuel c).1 := by
  have hheaders : ∀ c' : Connection σ, c'.trace = c.trace → c'.requestParser = c.requestParser →
      Within env 8 c (driveReadHeaders env fuel c').1 := fun c' htrace hparser =>
    (Within.of_eq htrace hparser).after (within_driveReadHeaders env fuel c')
  rw [driveHandshake]
  dsimp only
  split
  · exact hheaders _ rfl rfl
  all_goals exact ⟨Nat.le_add_right _ 8, le_rfl⟩

theorem within_step (fuel : ℕ) (epollEvents : UInt32) (c : Connection σ) :
    Within env 9 c (step env fuel epollEvents c).1 := by
  rw [step]
  split_ifs
  · exact (Within.refl c).mono (Nat.zero_le 9)
  cases c.state with
  | handshaking => exact (within_driveHandshake env fuel c).mono (by omega)
  | readingHeaders => exact (within_driveReadHeaders env fuel c).mono (by omega)
  | readingBody =>
    have hbody := within_driveReadBody env fuel c
    dsimp only
    split_ifs
    · exact hbody.trans (within_driveReadHeaders env fuel _)
    · exact hbody.mono (by omega)
  | writing =>
    have hwritten := within_driveWrite env fuel c
    dsimp only
    split_ifs
    · exact (hwritten.trans (within_driveReadHeaders env fuel _)).mono (by omega)
    · exact hwritten.mono (by omega)
  | streaming => exact (within_driveStream env fuel c).mono (Nat.zero_le 9)
  | closing => exact (within_drain env _ c).mono (Nat.zero_le 9)

/-! ### Every part answers -/

/-- The call answers an interest, or it drives a stream. -/
def Answers (driven : Driven σ) : Prop := driven.2 = none → driven.1.state = .streaming

variable {env}

theorem driveStream_answers (fuel : ℕ) (hstate : c.state = .streaming) :
    Answers (driveStream env fuel c) := by
  induction fuel generalizing c with
  | zero => exact fun _ => hstate
  | succ fuel ih =>
    rw [driveStream]
    rcases hloop : streamWriteLoop env (c.pendingBytes - c.writeOffset) c with ⟨c₁, _ | interest⟩
    · have hwrites : Steps env (fun _ _ => True) c c₁ ∧ _ :=
        streamWriteLoop_steps hstate (length_unsent c).le hloop
      obtain ⟨-, ⟨-, hexit⟩ | ⟨hstate₁, -⟩⟩ := hwrites
      · cases hexit
      obtain ⟨hsettled, hstate₂⟩ := settleWrites_settled env c.pendingBytes c₁
      dsimp only
      rcases hrefill : refill env (settleWrites env c.pendingBytes c₁) with ⟨c₂, _ | interest⟩
      · have hrefills : Steps env (fun _ _ => True) (settleWrites env c.pendingBytes c₁) c₂ ∧ _ :=
          refill_steps (hstate₂.trans hstate₁) hsettled hrefill
        obtain ⟨-, ⟨-, hexit⟩ | ⟨hstate₃, -⟩⟩ := hrefills
        · cases hexit
        · exact ih hstate₃
      · rintro ⟨⟩
    · rintro ⟨⟩

theorem driveWrite_answers (fuel : ℕ) (c : Connection σ) : Answers (driveWrite env fuel c) := by
  have hfinish : ∀ (streaming : Bool) (c : Connection σ),
      Answers (finishResponse env streaming c) := by
    intro streaming c
    rw [finishResponse]
    split_ifs <;> rintro ⟨⟩
  rw [driveWrite]
  rcases writeLoop env (c.pendingBytes - c.writeOffset) c with ⟨c₁, _ | interest⟩
  · dsimp only
    rw [afterWrite]
    split
    · split_ifs
      · rintro ⟨⟩
      · exact driveStream_answers fuel rfl
      · exact hfinish _ c₁
    · exact hfinish _ c₁
  · rintro ⟨⟩

/-- A read that goes on gives at least one byte. -/
theorem receive_size (h : receive env c = (c', .next)) :
    c.readBuffer.size < c'.readBuffer.size ∧ c'.requestParser = c.requestParser := by
  obtain ⟨c₁, bytes, hread, hbytes, rfl⟩ := receive_next h
  simp only [read, Prod.mk.injEq] at hread
  obtain ⟨rfl, -, -⟩ := hread
  refine ⟨?_, rfl⟩
  have hpos := List.length_pos_iff.2 hbytes
  show _ < (Buffer.commit _ bytes).size
  rw [← Buffer.length_readable, ← Buffer.length_readable, Buffer.readable_commit,
    Buffer.readable_writableTail, List.length_append]
  omega

/-- A parse asks for more only when the buffer has less than the parser can want. -/
theorem parse_short (h : parse env c = (.error .needsMoreData, c')) :
    c'.readBuffer = c.readBuffer ∧ c'.demand env ≤ c.demand env ∧
      c.readBuffer.size ≤ c.demand env := by
  have hview : c.readBuffer.view.size = c.readBuffer.size := c.readBuffer.length_readable
  simp only [parse, Prod.mk.injEq] at h
  obtain ⟨hresult, rfl⟩ := h
  obtain ⟨hdemand, hshort⟩ := RequestParser.parse_demand
    (Prod.mk.eta (p := c.requestParser.parse env.pton (env.steadyClock c.ticks)
      c.readBuffer.view env.options.limits)).symm
  exact ⟨rfl, hdemand, hview ▸ hshort hresult⟩

theorem noteFirstBytes_reading (c : Connection σ) :
    (noteFirstBytes env c).readBuffer = c.readBuffer ∧
      (noteFirstBytes env c).requestParser = c.requestParser := by
  rw [noteFirstBytes]
  split_ifs <;> exact ⟨rfl, rfl⟩

/-- The inner loop ends: each round but the last gives a byte, and the parser cannot want more than
its demand. -/
theorem readRequest_answers {fuel : ℕ} (hpos : 0 < fuel)
    (hfuel : c.demand env + 1 < fuel + c.readBuffer.size) :
    (readRequest env fuel c).2 ≠ .unfinished := by
  induction fuel generalizing c with
  | zero => exact absurd hpos (Nat.lt_irrefl 0)
  | succ fuel ih =>
    have hmore : ∀ c' : Connection σ, c'.readBuffer.size = c.readBuffer.size →
        c'.demand env ≤ c.demand env → c.readBuffer.size ≤ c.demand env →
        (readMore env fuel c').2 ≠ .unfinished := by
      intro c' hsize hdemand hshort
      rw [readMore]
      rcases hreceive : receive env c' with ⟨c₂, _ | interest⟩
      · obtain ⟨hgrown, hparser⟩ := receive_size hreceive
        have hnoted : (noteFirstBytes env c₂).readBuffer = c₂.readBuffer ∧ _ :=
          noteFirstBytes_reading c₂
        obtain ⟨hbuffer, hparser'⟩ := hnoted
        have hdemand' : (noteFirstBytes env c₂).demand env ≤ c.demand env := by
          rw [demand, hparser', hparser]
          exact hdemand
        have hsize' : c.readBuffer.size < (noteFirstBytes env c₂).readBuffer.size := by
          rw [hbuffer, ← hsize]
          exact hgrown
        exact ih (by omega) (by omega)
      · rintro ⟨⟩
    rw [readRequest_succ]
    split_ifs with hempty
    · have hsize : c.readBuffer.size = 0 := by
        rw [← Buffer.length_readable, c.readBuffer.isEmpty_iff.1 hempty]
        rfl
      exact hmore c rfl le_rfl (by omega)
    rcases hparse : parse env c with ⟨error | parsed, c₁⟩
    · dsimp only
      split_ifs with herror hbody
      · rintro ⟨⟩
      · rintro ⟨⟩
      · rw [not_not] at herror
        obtain ⟨hbuffer, hdemand, hshort⟩ := parse_short (herror ▸ hparse)
        exact hmore c₁ (by rw [hbuffer]) hdemand hshort
    · rintro ⟨⟩

theorem driveReadBody_answers {fuel : ℕ} (hpos : 0 < fuel)
    (hfuel : c.demand env + 1 < fuel + c.readBuffer.size) :
    Answers (driveReadBody env fuel c) := by
  induction fuel generalizing c with
  | zero => exact absurd hpos (Nat.lt_irrefl 0)
  | succ fuel ih =>
    rw [driveReadBody]
    rcases hparse : parse env c with ⟨error | parsed, c₁⟩
    · dsimp only
      split_ifs with herror
      · exact driveWrite_answers fuel _
      · rw [not_not] at herror
        obtain ⟨hbuffer, hdemand, hshort⟩ := parse_short (herror ▸ hparse)
        rcases hreceive : receive env c₁ with ⟨c₂, _ | interest⟩
        · obtain ⟨hgrown, hparser⟩ := receive_size hreceive
          have hdemand' : c₂.demand env ≤ c.demand env := by
            rw [demand, hparser]
            exact hdemand
          rw [hbuffer] at hgrown
          exact ih (by omega) (by omega)
        · rintro ⟨⟩
    · exact driveWrite_answers fuel _

theorem readPasses_answers {fuel passes : ℕ} (hfuel : c.demand env + 1 < fuel) :
    Answers (readPasses env fuel passes c) := by
  induction passes generalizing c with
  | zero => rintro ⟨⟩
  | succ passes ih =>
    have hgoOn : ∀ driven : Driven σ, Within env 1 c driven.1 → Answers driven →
        Answers (if driven.1.state ≠ .readingHeaders then driven
          else readPasses env fuel passes driven.1) := by
      intro driven hwithin hanswers
      split_ifs
      · exact hanswers
      · have hdemand := hwithin.demand
        exact ih (by omega)
    have hread := within_readRequest env fuel c
    have hunfinished : (readRequest env fuel c).2 ≠ .unfinished :=
      readRequest_answers (by omega) (by omega)
    rw [readPasses]
    rcases hreading : readRequest env fuel c with ⟨c₁, reading⟩
    rw [hreading] at hread hunfinished
    have hdemand := hread.demand
    cases reading with
    | answered =>
      exact hgoOn _ (hread.trans (within_driveWrite env fuel c₁)) (driveWrite_answers fuel c₁)
    | bodyPending =>
      refine hgoOn _ (hread.after (within_driveReadBody env fuel c₁)) ?_
      exact driveReadBody_answers (by omega) (by dsimp only at hdemand; omega)
    | exit interest => rintro ⟨⟩
    | unfinished => exact absurd rfl hunfinished

theorem step_answers {fuel : ℕ} (hfuel : c.demand env + 1 < fuel) (epollEvents : UInt32) :
    Answers (step env fuel epollEvents c) := by
  rw [step]
  split_ifs
  · rintro ⟨⟩
  cases hstate : c.state with
  | handshaking =>
    dsimp only
    rw [driveHandshake]
    dsimp only
    split
    · exact readPasses_answers hfuel
    all_goals rintro ⟨⟩
  | readingHeaders => exact readPasses_answers hfuel
  | readingBody =>
    have hdemand := (within_driveReadBody env fuel c).demand
    dsimp only
    split_ifs
    · exact readPasses_answers (by omega)
    · exact driveReadBody_answers (by omega) (by omega)
  | writing =>
    have hdemand := (within_driveWrite env fuel c).demand
    dsimp only
    split_ifs
    · exact readPasses_answers (by omega)
    · exact driveWrite_answers fuel c
  | streaming => exact driveStream_answers fuel hstate
  | closing => rintro ⟨⟩

/-- **One turn ends.**  With fuel for the bytes that the parser can want, a call of `step` answers,
whatever the transport does, unless the connection has entered a stream; and it dispatches at most
nine requests, however much the transport offers. -/
theorem turn_ends (env : Environment σ) (c : Connection σ) (epollEvents : UInt32) :
    (∀ fuel, c.demand env + 2 ≤ fuel → (step env fuel epollEvents c).2 = none →
      (step env fuel epollEvents c).1.state = .streaming) ∧
    ∀ fuel, (step env fuel epollEvents c).1.dispatches ≤ c.dispatches + 9 :=
  ⟨fun _ hfuel => step_answers hfuel epollEvents,
    fun fuel => (within_step env fuel epollEvents c).dispatches⟩

end Connection

end ErikslundHttp
