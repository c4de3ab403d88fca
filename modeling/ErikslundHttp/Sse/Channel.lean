import ErikslundHttp.Sse.Basic

/-!
# Server-sent events: a channel

`SseChannel::State` hands the frames of `publish` to its subscribers.  The members of the channel
are guarded by one mutex, and each subscriber by its own.  While a thread holds the first one, other
threads may pull from a subscriber, detach it, or give it a heartbeat; so the thread's way through
its critical section is cut into steps, one for each call of a subscriber (`Section`).

`sse_delivery` says what arrives, for every order of the steps.
-/

namespace ErikslundHttp

/-- The answer of a channel that is full. -/
def kSubscriberLimitBody : Bytes := ascii "sse: subscriber limit reached\n"

/-- The answer of a channel that is shut down. -/
def kChannelClosedBody : Bytes := ascii "sse: channel closed\n"

/-- A subscriber of a channel.  The others only say what happened so far: the bytes that its pulls
returned and the frames these are made of; whether a frame was dropped, or closed it; and the
numbers of events published before it subscribed, and before `close_all` closed it. -/
structure Subscription (ν : Type) where
  subscriber : SseSubscriber ν
  received : Bytes := []
  taken : List SharedFrame := []
  lost : Bool := false
  since : ℕ
  ended : Option ℕ := none

/-- What a critical section of the channel is for, after `prune_dead`. -/
inductive Purpose (ν : Type) where
  | subscribe (subscriber : SseSubscriber ν)
  | publish (event data : Bytes)

/-- What the thread in the critical section of the channel has still to do, with subscribers by
their numbers: `prune_dead` has kept some; the loops of `publish` and `close_subscribers` have some
left. -/
inductive Section (ν : Type) where
  | pruning (kept rest : List ℕ) (purpose : Purpose ν)
  | delivering (frame : SharedFrame) (rest : List ℕ)
  | closing (rest : List ℕ)

/-- What `subscribe` answers. -/
inductive SubscribeAnswer where
  | response (response : Response)
  | stream (number : ℕ)

/-- The members of `SseChannel::State` and the section entered under its mutex.  The others say what
happened so far: every subscriber, the published frames, and the answers of `subscribe`. -/
structure SseChannel (ν : Type) where
  /-- The numbers of those on the list. -/
  subscribers : List ℕ := []
  /-- `close_all` has not been called. -/
  accepting : Bool := true
  /-- What the thread that holds the mutex has still to do. -/
  entered : Option (Section ν) := none
  subscriptions : List (Subscription ν) := []
  published : List SharedFrame := []
  answers : List SubscribeAnswer := []

/-- A step of a thread: a call of the channel, as far as the first subscriber that it calls; the
next call of a subscriber in the critical section; or a call of a subscriber from outside of it. -/
inductive ChannelStep (ν : Type) where
  | subscribe (method : Method) (now : TimePoint)
  | publish (event data : Bytes)
  | closeAll
  | shutdown
  | proceed
  | pull (number : ℕ) (now : TimePoint)
  | heartbeat (number : ℕ) (now : TimePoint)
  | attach (number : ℕ) (notifier : ν)
  | detach (number : ℕ)

namespace Subscription

variable {ν : Type}

/-- A published frame comes to the subscriber. -/
def enqueue (frame : SharedFrame) (m : Subscription ν) : Subscription ν :=
  { m with
    subscriber := (m.subscriber.enqueue frame).1
    lost := m.lost || m.subscriber.loses frame }

/-- The subscriber ends after so many published frames. -/
def beginClose (published : ℕ) (m : Subscription ν) : Subscription ν :=
  { m with
    subscriber := m.subscriber.beginClose.1
    ended := m.ended.or (some published) }

/-- The reactor takes what is queued. -/
def pull (now : TimePoint) (m : Subscription ν) : Subscription ν :=
  let (out, _, subscriber) := m.subscriber.pull now
  { m with
    subscriber := subscriber
    received := m.received ++ out
    taken := m.taken ++ m.subscriber.queue }

/-- The pump comes by. -/
def maybeHeartbeat (now : TimePoint) (m : Subscription ν) : Subscription ν :=
  let subscriber := (m.subscriber.maybeHeartbeat now).1
  { m with
    subscriber := subscriber
    lost := m.lost || (!m.subscriber.closed && subscriber.closed) }

/-- The reactor attaches the stream. -/
def onAttached (notifier : ν) (m : Subscription ν) : Subscription ν :=
  { m with subscriber := m.subscriber.onAttached notifier }

/-- The reactor detaches it. -/
def onDetached (m : Subscription ν) : Subscription ν :=
  { m with subscriber := m.subscriber.onDetached }

end Subscription

namespace SseChannel

variable {ν : Type} (options : SseOptions)

/-- The subscriber of that number is called. -/
def modify (number : ℕ) (f : Subscription ν → Subscription ν) (channel : SseChannel ν) :
    SseChannel ν :=
  { channel with subscriptions := channel.subscriptions.modify number f }

/-- The subscriber of that number is alive. -/
def isAlive (number : ℕ) (channel : SseChannel ν) : Bool :=
  channel.subscriptions[number]?.any fun m => m.subscriber.alive

/-- A subscribe call has its answer. -/
def answer (answer : SubscribeAnswer) (channel : SseChannel ν) : SseChannel ν :=
  { channel with answers := channel.answers ++ [answer] }

/-- The answer to HEAD. -/
def probe : Response :=
  (Response.empty .ok).header (ascii "Content-Type") kEventStreamContentType

/-- The response of a channel that is shut down. -/
def channelClosed : Response := .text kChannelClosedBody .serviceUnavailable

/-- The response of a channel that is full. -/
def busy : Response :=
  (Response.text kSubscriberLimitBody .serviceUnavailable).header (ascii "Retry-After")
    (signedChars options.retryHint)

/-- After `prune_dead` has kept these subscribers. -/
def afterPruning (kept : List ℕ) (purpose : Purpose ν) (channel : SseChannel ν) : SseChannel ν :=
  let channel := { channel with subscribers := kept }
  match purpose with
  | .subscribe subscriber =>
    if kept.length ≥ options.maxSubscribers then
      { channel with entered := none }.answer (.response (busy options))
    else
      let number := channel.subscriptions.length
      { channel with
        subscribers := kept ++ [number]
        subscriptions := channel.subscriptions ++
          [({ subscriber := subscriber, since := channel.published.length } : Subscription ν)]
        entered := none }.answer (.stream number)
  | .publish event data =>
    let frame : SharedFrame := ⟨.published channel.published.length, buildEventFrame event data⟩
    { channel with
      published := channel.published ++ [frame]
      entered := some (.delivering frame kept) }

/-- The next step in the critical section. -/
def proceed (channel : SseChannel ν) : Section ν → SseChannel ν
  | .pruning kept (number :: rest) purpose =>
    let kept := if channel.isAlive number then kept ++ [number] else kept
    { channel with entered := some (.pruning kept rest purpose) }
  | .pruning kept [] purpose => channel.afterPruning options kept purpose
  | .delivering frame (number :: rest) =>
    { channel.modify number (·.enqueue frame) with entered := some (.delivering frame rest) }
  | .delivering _ [] => { channel with entered := none }
  | .closing (number :: rest) =>
    { channel.modify number (·.beginClose channel.published.length) with
      entered := some (.closing rest) }
  | .closing [] => { channel with subscribers := [], entered := none }

/-- A thread enters the critical section, which has to be free. -/
def enter (entered : Section ν) (channel : SseChannel ν) : Option (SseChannel ν) :=
  match channel.entered with
  | none => some { channel with entered := some entered }
  | some _ => none

/-- A step of a call, or of the reactor or the pump between the calls. -/
def step (channel : SseChannel ν) : ChannelStep ν → Option (SseChannel ν)
  | .subscribe method now =>
    if method = .head then some (channel.answer (.response probe))
    else if channel.entered.isSome then none
    else if !channel.accepting then some (channel.answer (.response channelClosed))
    else channel.enter (.pruning [] channel.subscribers (.subscribe (.init options now)))
  | .publish event data =>
    -- a frame over the limit is thrown back at the caller
    if (eventFrameSize event data options.maxEventBytes).isNone then some channel
    else channel.enter (.pruning [] channel.subscribers (.publish event data))
  | .closeAll => channel.enter (.closing channel.subscribers)
  | .shutdown => { channel with accepting := false }.enter (.closing channel.subscribers)
  | .proceed => channel.entered.map (channel.proceed options)
  | .pull number now => some (channel.modify number (·.pull now))
  | .heartbeat number now => some (channel.modify number (·.maybeHeartbeat now))
  | .attach number notifier => some (channel.modify number (·.onAttached notifier))
  | .detach number => some (channel.modify number (·.onDetached))

/-- The channel after some steps. -/
def run (steps : List (ChannelStep ν)) : Option (SseChannel ν) := steps.foldlM (step options) {}

end SseChannel

end ErikslundHttp
