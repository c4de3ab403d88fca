import ErikslundHttp.Response.Basic

/-!
# Server-sent events: frames and subscribers

The frames of an event stream (`build_event_frame`, `build_retry_frame`), and `SseSubscriber`
(`sse.cpp`): a queue of frames between the threads that publish and the reactor that pulls.

A subscriber is guarded by one mutex.  Each function of it is the critical section of the source's
function; the ones that notify return the notifier that they take out of the section.
-/

namespace ErikslundHttp

/-- The type that `content_type` names. -/
def kEventStreamContentType : Bytes := ascii "text/event-stream"

/-- The field with the name of an event. -/
def kEventFieldPrefix : Bytes := ascii "event: "

/-- The field with a line of its data. -/
def kDataFieldPrefix : Bytes := ascii "data: "

/-- The field with the pause before a client connects again. -/
def kRetryFieldPrefix : Bytes := ascii "retry: "

/-- A comment, which a client ignores. -/
def kHeartbeatFrame : Bytes := ascii ": heartbeat\n\n"

/-- How often frames are dropped before a subscriber is closed. -/
def kOverflowsBeforeDisconnect : ℕ := 4

/-- The option is in seconds, the field in milliseconds. -/
def kMillisecondsPerSecond : ℕ := 1000

/-! ### Frames -/

/-- The lines of a payload, ended by CR, LF or CRLF.  Both loops over a payload go through these. -/
def dataLines : Bytes → List Bytes
  | [] => [[]]
  | character :: rest =>
    match dataLines rest with
    | [] => [[character]]
    | line :: lines =>
      if character = CR then
        -- the LF of a CRLF starts no line of its own
        if rest.head? = some LF then line :: lines else [] :: line :: lines
      else if character = LF then [] :: line :: lines
      else (character :: line) :: lines

/-- `append_data_lines`: each line of the payload in a field of its own. -/
def appendDataLines (frame payload : Bytes) : Bytes :=
  frame ++ (dataLines payload).flatMap fun line => kDataFieldPrefix ++ line ++ [LF]

/-- `append_event_name`: line ends in the name become spaces. -/
def appendEventName (frame event : Bytes) : Bytes :=
  frame ++ kEventFieldPrefix ++
    (event.map fun character => if character = CR ∨ character = LF then space else character) ++
    [LF]

/-- `add_frame_bytes`: the sum, unless it is above the limit. -/
def addFrameBytes (frameSize bytes limit : ℕ) : Option ℕ :=
  if bytes > limit - frameSize then none else some (frameSize + bytes)

/-- The size of a frame, if it is within the limit. -/
def eventFrameSize (event data : Bytes) (limit : ℕ) : Option ℕ := do
  let eventSize ←
    if event.isEmpty then some 0
    else do
      let frameSize ← addFrameBytes 0 kEventFieldPrefix.length limit
      let frameSize ← addFrameBytes frameSize event.length limit
      addFrameBytes frameSize 1 limit
  let dataSize ← (dataLines data).foldlM (fun frameSize line => do
    let frameSize ← addFrameBytes frameSize kDataFieldPrefix.length limit
    let frameSize ← addFrameBytes frameSize line.length limit
    addFrameBytes frameSize 1 limit) eventSize
  addFrameBytes dataSize 1 limit

/-- `build_event_frame`. -/
def buildEventFrame (event data : Bytes) : Bytes :=
  appendDataLines (if event.isEmpty then [] else appendEventName [] event) data ++ [LF]

/-- `build_retry_frame`, for a hint of some seconds. -/
def buildRetryFrame (retryHint : ℕ) : Bytes :=
  kRetryFieldPrefix ++ toChars (retryHint * kMillisecondsPerSecond) ++ [LF, LF]

/-- What a frame was made for; published frames are numbered in the order of their publication. -/
inductive FrameOrigin where
  | retry
  | heartbeat
  | published (number : ℕ)
  deriving DecidableEq, Repr

/-- A `SharedFrame`. -/
structure SharedFrame where
  /-- What the frame is. -/
  origin : FrameOrigin
  /-- The bytes on the wire. -/
  text : Bytes
  deriving DecidableEq, Repr

/-- The application has published it. -/
def SharedFrame.isPublished (frame : SharedFrame) : Bool :=
  match frame.origin with
  | .published _ => true
  | .retry | .heartbeat => false

/-! ### Subscribers -/

/-- The members of `SseOptions`. -/
structure SseOptions where
  /-- How many may be open at once. -/
  maxSubscribers : ℕ := 32
  /-- A frame that would exceed it is dropped. -/
  maxQueuedBytesPerSubscriber : ℕ := 65536
  /-- A longer event is not published. -/
  maxEventBytes : ℕ := 16384
  /-- In seconds, like the next one; no heartbeats at zero. -/
  heartbeatInterval : ℤ := 15
  retryHint : ℤ := 5

/-- The members of `SseSubscriber`, with a notifier of any kind. -/
structure SseSubscriber (ν : Type) where
  /-- The frames that have not been pulled. -/
  queue : List SharedFrame := []
  /-- Their size. -/
  queuedBytes : ℕ := 0
  maxQueuedBytes : ℕ
  /-- In nanoseconds, like the clock. -/
  heartbeatInterval : ℤ
  /-- Wakes the connection. -/
  notifier : Option ν := none
  /-- When bytes were last pulled, or a heartbeat queued. -/
  lastWrite : TimePoint
  /-- Since the last pull that got bytes. -/
  consecutiveOverflows : ℕ := 0
  closed : Bool := false
  /-- The connection has let go of it. -/
  detached : Bool := false

namespace SseSubscriber

variable {ν : Type}

/-- `push_back_locked`. -/
def pushBackLocked (frame : SharedFrame) (s : SseSubscriber ν) : SseSubscriber ν :=
  { s with
    queuedBytes := s.queuedBytes + frame.text.length
    queue := s.queue ++ [frame] }

/-- `close_locked`: what is queued is dropped. -/
def closeLocked (s : SseSubscriber ν) : SseSubscriber ν :=
  { s with closed := true, queue := [], queuedBytes := 0 }

/-- The constructor: a retry hint is the first frame. -/
def init (options : SseOptions) (now : TimePoint) : SseSubscriber ν :=
  let s : SseSubscriber ν :=
    { maxQueuedBytes := options.maxQueuedBytesPerSubscriber
      heartbeatInterval := options.heartbeatInterval * 1000000000
      lastWrite := now }
  let retry : SharedFrame := ⟨.retry, buildRetryFrame options.retryHint.toNat⟩
  if 0 < options.retryHint ∧ retry.text.length ≤ s.maxQueuedBytes then s.pushBackLocked retry
  else s

/-- The bytes that `pull` appends, its answer, and the subscriber after it. -/
def pull (now : TimePoint) (s : SseSubscriber ν) : Bytes × Pull × SseSubscriber ν :=
  if s.queue.isEmpty then ([], if s.closed then .finished else .idle, s)
  else
    (s.queue.flatMap SharedFrame.text, .wrote,
      { s with queue := [], queuedBytes := 0, consecutiveOverflows := 0, lastWrite := now })

/-- `on_attached`. -/
def onAttached (notifier : ν) (s : SseSubscriber ν) : SseSubscriber ν :=
  { s with notifier := some notifier }

/-- `on_detached`. -/
def onDetached (s : SseSubscriber ν) : SseSubscriber ν :=
  { s with detached := true, closed := true, notifier := none, queue := [], queuedBytes := 0 }

/-- The loop of `enqueue` that makes room for a frame of `size` bytes in a queue of `queuedBytes`:
the frames that stay, and their bytes. -/
def makeRoom (size maxQueuedBytes : ℕ) : List SharedFrame → ℕ → List SharedFrame × ℕ
  | [], queuedBytes => ([], queuedBytes)
  | front :: queue, queuedBytes =>
    if size > maxQueuedBytes - queuedBytes then
      makeRoom size maxQueuedBytes queue (queuedBytes - front.text.length)
    else (front :: queue, queuedBytes)

/-- The frames of the queue that stay when one of `size` bytes is added. -/
def kept (size : ℕ) (s : SseSubscriber ν) : List SharedFrame × ℕ :=
  makeRoom size s.maxQueuedBytes s.queue s.queuedBytes

/-- Some frames are dropped for one of `size` bytes. -/
def drops (size : ℕ) (s : SseSubscriber ν) : Bool := (s.kept size).1.length < s.queue.length

/-- `SseSubscriber::enqueue`, and the notifier that it calls. -/
def enqueue (frame : SharedFrame) (s : SseSubscriber ν) : SseSubscriber ν × Option ν :=
  if s.closed then (s, none)
  else if frame.text.length > s.maxQueuedBytes then (s.closeLocked, s.notifier)
  else
    let dropped := s.drops frame.text.length
    let (queue, queuedBytes) := s.kept frame.text.length
    let s' := { s with queue := queue, queuedBytes := queuedBytes }.pushBackLocked frame
    if dropped then
      let s' := { s' with consecutiveOverflows := s.consecutiveOverflows + 1 }
      (if s'.consecutiveOverflows ≥ kOverflowsBeforeDisconnect then s'.closeLocked else s',
        s.notifier)
    else (s', s.notifier)

/-- `SseSubscriber::begin_close`: what is queued is still sent. -/
def beginClose (s : SseSubscriber ν) : SseSubscriber ν × Option ν :=
  ({ s with closed := true }, s.notifier)

/-- `SseSubscriber::alive`. -/
def alive (s : SseSubscriber ν) : Bool := !s.closed && !s.detached

/-- A heartbeat is due: nothing was written for the interval, and nothing is queued. -/
def heartbeatDue (now : TimePoint) (s : SseSubscriber ν) : Bool :=
  !(s.closed || s.detached || s.heartbeatInterval ≤ 0) &&
    !(now - s.lastWrite < s.heartbeatInterval) && s.queue.isEmpty

/-- `SseSubscriber::maybe_heartbeat`, and the notifier that it calls. -/
def maybeHeartbeat (now : TimePoint) (s : SseSubscriber ν) : SseSubscriber ν × Option ν :=
  if s.heartbeatDue now then
    let s' := if kHeartbeatFrame.length > s.maxQueuedBytes then s.closeLocked
      else s.pushBackLocked ⟨.heartbeat, kHeartbeatFrame⟩
    ({ s' with lastWrite := now }, s.notifier)
  else (s, none)

/-! ### What the operations do -/

variable {s : SseSubscriber ν}

/-- A frame is lost on the way to this subscriber: the new one is too large, or older ones are
dropped for it. -/
def loses (frame : SharedFrame) (s : SseSubscriber ν) : Bool :=
  !s.closed && (s.maxQueuedBytes < frame.text.length || s.drops frame.text.length)

theorem queue_init (ν : Type) (options : SseOptions) (now : TimePoint) :
    (init options now : SseSubscriber ν).queue = [] ∨ (init options now : SseSubscriber ν).queue =
      [⟨.retry, buildRetryFrame options.retryHint.toNat⟩] := by
  rw [init]
  dsimp only
  split_ifs
  · exact .inr rfl
  · exact .inl rfl

theorem init_open (ν : Type) (options : SseOptions) (now : TimePoint) :
    (init options now : SseSubscriber ν).closed = false ∧
      (init options now : SseSubscriber ν).detached = false := by
  rw [init]
  dsimp only
  split_ifs <;> exact ⟨rfl, rfl⟩

theorem makeRoom_suffix (size maxQueuedBytes : ℕ) (queue : List SharedFrame) (queuedBytes : ℕ) :
    (makeRoom size maxQueuedBytes queue queuedBytes).1 <:+ queue := by
  induction queue generalizing queuedBytes with
  | nil => exact List.suffix_rfl
  | cons front queue ih =>
    rw [makeRoom]
    split_ifs
    · exact (ih _).trans (List.suffix_cons front queue)
    · exact List.suffix_rfl

theorem kept_eq_of_drops_eq_false {size : ℕ} (h : s.drops size = false) :
    (s.kept size).1 = s.queue := by
  refine (makeRoom_suffix size s.maxQueuedBytes s.queue s.queuedBytes).eq_of_length_le ?_
  exact Nat.le_of_not_lt (of_decide_eq_false h)

theorem enqueue_of_closed (frame : SharedFrame) (h : s.closed = true) :
    s.enqueue frame = (s, none) := by
  rw [enqueue, if_pos h]

/-- An open subscriber takes the frame after the ones it keeps, or closes and drops them all; it
notifies in both cases. -/
theorem enqueue_of_open (frame : SharedFrame) (h : s.closed = false) :
    (s.enqueue frame).2 = s.notifier ∧
      ((s.enqueue frame).1.closed = true ∧ (s.enqueue frame).1.queue = [] ∧
          s.loses frame = true ∨
        (s.enqueue frame).1.closed = false ∧
          (s.enqueue frame).1.queue = (s.kept frame.text.length).1 ++ [frame] ∧
          s.loses frame = s.drops frame.text.length) := by
  rw [enqueue, if_neg (by rw [h]; decide), loses, h]
  by_cases hsize : frame.text.length > s.maxQueuedBytes
  · rw [if_pos hsize]
    refine ⟨rfl, .inl ⟨rfl, rfl, ?_⟩⟩
    rw [decide_eq_true hsize]
    rfl
  · rw [if_neg hsize, decide_eq_false hsize]
    dsimp only
    by_cases hdrops : s.drops frame.text.length = true
    · rw [if_pos hdrops, hdrops]
      refine ⟨rfl, ?_⟩
      dsimp only
      split_ifs
      · exact .inl ⟨rfl, rfl, rfl⟩
      · exact .inr ⟨rfl, rfl, rfl⟩
    · rw [if_neg hdrops]
      exact ⟨rfl, .inr ⟨rfl, rfl, rfl⟩⟩

theorem enqueue_same (frame : SharedFrame) (s : SseSubscriber ν) :
    (s.enqueue frame).1.notifier = s.notifier ∧ (s.enqueue frame).1.detached = s.detached := by
  rw [enqueue]
  dsimp only
  split_ifs <;> exact ⟨rfl, rfl⟩

/-- A heartbeat that is due is queued, or closes the subscriber. -/
theorem maybeHeartbeat_of_due {now : TimePoint} (h : s.heartbeatDue now = true) :
    s.closed = false ∧ s.queue = [] ∧ (s.maybeHeartbeat now).2 = s.notifier ∧
      ((s.maybeHeartbeat now).1.closed = true ∧ (s.maybeHeartbeat now).1.queue = [] ∨
        (s.maybeHeartbeat now).1.closed = false ∧
          (s.maybeHeartbeat now).1.queue = [⟨.heartbeat, kHeartbeatFrame⟩]) := by
  have hdue := h
  simp only [heartbeatDue, Bool.and_eq_true, Bool.not_eq_true', Bool.or_eq_false_iff,
    List.isEmpty_iff] at hdue
  obtain ⟨⟨⟨⟨hclosed, -⟩, -⟩, -⟩, hqueue⟩ := hdue
  rw [maybeHeartbeat, if_pos h]
  refine ⟨hclosed, hqueue, rfl, ?_⟩
  dsimp only
  split_ifs
  · exact .inl ⟨rfl, rfl⟩
  · refine .inr ⟨hclosed, ?_⟩
    show s.queue ++ _ = _
    rw [hqueue]
    rfl

theorem maybeHeartbeat_of_not_due {now : TimePoint} (h : ¬ s.heartbeatDue now = true) :
    s.maybeHeartbeat now = (s, none) := by
  rw [maybeHeartbeat, if_neg h]

theorem maybeHeartbeat_same (now : TimePoint) (s : SseSubscriber ν) :
    (s.maybeHeartbeat now).1.notifier = s.notifier ∧
      (s.maybeHeartbeat now).1.detached = s.detached := by
  rw [maybeHeartbeat]
  dsimp only
  split_ifs <;> exact ⟨rfl, rfl⟩

/-- `pull` empties the queue into its output. -/
theorem pull_spec (now : TimePoint) (s : SseSubscriber ν) :
    (s.pull now).1 = s.queue.flatMap SharedFrame.text ∧ (s.pull now).2.2.queue = [] ∧
      (s.pull now).2.2.closed = s.closed ∧ (s.pull now).2.2.detached = s.detached ∧
      (s.pull now).2.2.notifier = s.notifier := by
  rw [pull]
  by_cases hqueue : s.queue.isEmpty = true
  · have hnil : s.queue = [] := List.isEmpty_iff.1 hqueue
    rw [if_pos hqueue]
    exact ⟨by rw [hnil]; rfl, hnil, rfl, rfl, rfl⟩
  · rw [if_neg hqueue]
    exact ⟨rfl, rfl, rfl, rfl, rfl⟩

theorem of_pull_eq_idle {now : TimePoint} (h : (s.pull now).2.1 = .idle) :
    s.queue = [] ∧ s.closed = false := by
  rw [pull] at h
  by_cases hqueue : s.queue.isEmpty = true
  · rw [if_pos hqueue] at h
    refine ⟨List.isEmpty_iff.1 hqueue, ?_⟩
    cases hclosed : s.closed with
    | false => rfl
    | true =>
      rw [hclosed] at h
      cases h
  · rw [if_neg hqueue] at h
    cases h

end SseSubscriber

end ErikslundHttp
