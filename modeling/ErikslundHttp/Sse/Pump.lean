import ErikslundHttp.Lib.Transitions
import ErikslundHttp.Sse.Channel

/-!
# Server-sent events: the heartbeat pump

One thread of the process, the `HeartbeatPump`, looks after the subscribers of all channels: once a
second it goes through its list, drops those that are gone, and gives each of the others a heartbeat
if it has been idle for its interval (`sse.cpp`).  `subscribe` puts a new subscriber on the list
after it has left the channel, by a `weak_ptr`.

The pump holds its own mutex for a whole tick, and reads the clock once, at its start.  It calls a
subscriber twice, for `alive` and for `maybe_heartbeat`; the channels and the reactors go on in
between.  The clock is steady: a call that reads it reads what it shows.
-/

namespace ErikslundHttp

/-- A subscriber of some channel, by its number there. -/
abbrev Watched (n : ℕ) := Fin n × ℕ

/-- A tick: what it read from the clock; the subscribers that stay on the list, the one whose
`weak_ptr` is locked, and those still to come. -/
structure Tick (n : ℕ) where
  now : TimePoint
  kept : List (Watched n) := []
  locked : Option (Watched n) := none
  rest : List (Watched n)

/-- The list of the pump, and the tick that is on.  The others say what happened so far: when the
last tick began, when each subscriber was last given the chance of a heartbeat, and who of the list
was gone already when the last tick began. -/
structure HeartbeatPump (n : ℕ) where
  subscribers : List (Watched n) := []
  tick : Option (Tick n) := none
  lastTick : Option TimePoint := none
  visited : Watched n → Option TimePoint := fun _ => none
  gone : Watched n → Bool := fun _ => false

/-- The channels of a process and its pump.  `adding` are the subscribers that `subscribe` is about
to put on the list, and `expired` those that no `shared_ptr` holds any more. -/
structure SseProcess (n : ℕ) (ν : Type) where
  clock : TimePoint := 0
  channels : Fin n → SseChannel ν := fun _ => {}
  pump : HeartbeatPump n := {}
  adding : List (Watched n) := []
  expired : List (Watched n) := []

/-- A step of a channel or of the pump, or of the clock. -/
inductive ProcessStep (n : ℕ) (ν : Type) where
  | elapse (time : ℕ)
  /-- A step of a channel, or of one of its subscribers. -/
  | call (c : Fin n) (step : ChannelStep ν)
  /-- The last owner of a subscriber lets go of it. -/
  | expire (w : Watched n)
  | add (index : ℕ)
  /-- The pump begins a tick, locks the next `weak_ptr`, calls its subscriber, and is through. -/
  | tick
  | lock
  | beat
  | tickEnds

/-- A call that reads the clock reads this; only the pump calls `maybe_heartbeat`. -/
def ChannelStep.readsClock {ν : Type} (clock : TimePoint) : ChannelStep ν → Bool
  | .subscribe _ now | .pull _ now => now == clock
  | .heartbeat _ _ => false
  | _ => true

/-- The subscribers that the vector of a channel holds; `prune_dead` or `close_subscribers` may be
on its way through it. -/
def SseChannel.holds {ν : Type} (channel : SseChannel ν) (number : ℕ) : Bool :=
  channel.subscribers.contains number ||
    match channel.entered with
    | some (.pruning kept rest _) => (kept ++ rest).contains number
    | some (.closing rest) => rest.contains number
    | _ => false

namespace SseProcess

variable {n : ℕ} {ν : Type} (options : Fin n → SseOptions)

/-- The subscriber is alive. -/
def isAlive (s : SseProcess n ν) (w : Watched n) : Bool := (s.channels w.1).isAlive w.2

/-- The tick goes on. -/
def putTick (s : SseProcess n ν) (tick : Tick n) : SseProcess n ν :=
  { s with pump := { s.pump with tick := some tick } }

/-- A step of the process; none if it is not possible. -/
def step (s : SseProcess n ν) : ProcessStep n ν → Option (SseProcess n ν)
  | .elapse time => some { s with clock := s.clock + time }
  | .call c next =>
    if next.readsClock s.clock then
      ((s.channels c).step (options c) next).map fun channel =>
        { s with
          channels := Function.update s.channels c channel
          -- a new subscriber is on its way to the pump
          adding := s.adding ++
            if (s.channels c).subscriptions.length < channel.subscriptions.length then
              [(c, (s.channels c).subscriptions.length)]
            else [] }
    else none
  | .expire w =>
    if (s.channels w.1).holds w.2 || (s.pump.tick.any fun tick => tick.locked == some w) then none
    else if w.2 < (s.channels w.1).subscriptions.length then
      some { s with expired := w :: s.expired }
    else none
  | .add index =>
    match s.adding[index]?, s.pump.tick with
    | some w, none =>
      some { s with
        adding := s.adding.eraseIdx index
        pump := { s.pump with subscribers := s.pump.subscribers ++ [w] } }
    | _, _ => none
  | .tick =>
    match s.pump.tick, s.pump.subscribers with
    | none, _ :: _ =>
      some { s with pump := { s.pump with
        tick := some { now := s.clock, rest := s.pump.subscribers }
        lastTick := some s.clock
        gone := fun w => s.pump.subscribers.contains w && !s.isAlive w } }
    | _, _ => none
  | .lock =>
    match s.pump.tick with
    | some ⟨now, kept, none, w :: rest⟩ =>
      if s.expired.contains w || !s.isAlive w then some (s.putTick ⟨now, kept, none, rest⟩)
      else some (s.putTick ⟨now, kept, some w, rest⟩)
    | _ => none
  | .beat =>
    match s.pump.tick with
    | some ⟨now, kept, some w, rest⟩ =>
      some { s with
        channels := Function.update s.channels w.1
          ((s.channels w.1).modify w.2 (·.maybeHeartbeat now))
        pump := { s.pump with
          tick := some ⟨now, kept ++ [w], none, rest⟩
          visited := Function.update s.pump.visited w (some now) } }
    | _ => none
  | .tickEnds =>
    match s.pump.tick with
    | some ⟨_, kept, none, []⟩ =>
      some { s with pump := { s.pump with subscribers := kept, tick := none } }
    | _ => none

end SseProcess

end ErikslundHttp
