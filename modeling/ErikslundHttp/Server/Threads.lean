import ErikslundHttp.Lib.Transitions
import ErikslundHttp.Reactor.Wakeup
import Mathlib.Algebra.BigOperators.Fin

/-!
# The threads of a server

`Server::start` spawns a thread for each reactor and waits for all of them at a latch, `wait` joins
them, and `stop`, which any thread may call, requests a stop (`server.cpp`).  The request runs the
`stop_callback` of each reactor (`Reactor::run`), which signals its eventfd.  A reactor that throws
leaves its exception with the server, and requests a stop too (`ServerState::fail`).

Here these threads take their steps in any order.  A step is one access to what they share: the
latch, the stop state, an eventfd, the failure.  What a reactor does with a batch of events is
`Reactor.turn`; here it ends, or throws.  A callback is registered, run and removed as the standard
says: one that comes too late is run by its constructor, and a destructor waits for one that runs.

`stop()` also wakes each reactor itself.  That, like a notification of a stream, is a `wake`, which
may come at any time: nothing below relies on it.
-/

namespace ErikslundHttp

/-- Where the thread of a reactor is in `run`. -/
inductive WorkerPhase (ε : Type) where
  | unspawned
  /-- Before `stop_wake` is constructed, and before `ready_guard.release()`. -/
  | entering
  | registered
  /-- At the condition of the loop, in `epoll_wait`, and at work on its events. -/
  | checking
  | polling
  | turning
  /-- Before the destructor of `stop_wake`, after the loop or on the way to the handler. -/
  | leaving
  | unwinding (failure : ε)
  /-- In the handler: before the lock of `fail`, and before its request to stop. -/
  | caught (failure : ε)
  | failed
  | requesting
  /-- Before the destructor of `ready_guard`. -/
  | closing
  | finished

/-- The callback of a `stop_callback`. -/
inductive StopWake where
  | absent
  | pending
  | running
  deriving DecidableEq

/-- A thread of a reactor, with the eventfd of its wake state.  `counted` says that `ready_guard`
has let go of the latch, and `reported` that the batch has the event of the eventfd.  The last two
only say what happened: the batches begun since a stop was requested, and the exception. -/
structure Worker (ε : Type) where
  phase : WorkerPhase ε := .unspawned
  /-- The callback that wakes the reactor when a stop is requested. -/
  stopWake : StopWake := .absent
  counted : Bool := false
  /-- The counter of the event descriptor. -/
  eventFd : ℕ := 0
  reported : Bool := false
  batchesAfterStop : ℕ := 0
  threw : Option ε := none

/-- Where the thread is that calls `start` and `wait`. -/
inductive MainPhase (ε : Type) where
  | spawning (index : ℕ)
  /-- A thread could not be made: the latch is counted down for the rest. -/
  | countingDown (index : ℕ)
  | requesting
  /-- `start` has thrown. -/
  | threw
  /-- At the latch, after it, and when `start` has returned. -/
  | awaiting
  | inspecting
  | serving
  | joining (index : ℕ)
  | joined (failure : Option ε)

/-- The thread whose request to stop was the first: it runs the callbacks. -/
inductive Requester (n : ℕ) where
  | worker (i : Fin n)
  | main
  | other

/-- A server of `n` reactors.  `failures` only says in what order reactors failed. -/
structure ServerThreads (n : ℕ) (ε : Type) where
  workers : Fin n → Worker ε := fun _ => {}
  main : MainPhase ε := .spawning 0
  /-- The workers that the main thread still waits for. -/
  latch : ℕ := n
  stopRequested : Bool := false
  /-- Who runs the stop callbacks. -/
  requester : Option (Requester n) := none
  /-- The first failure, which `wait` rethrows. -/
  failure : Option ε := none
  failures : List (Fin n × ε) := []

/-- A move of a reactor's thread that depends on nothing but the stop flag. -/
inductive WorkerMove (ε : Type) where
  | register
  | setupThrows (failure : ε)
  | check
  /-- `epoll_wait` returns: with the eventfd, without it, or on a signal; or it fails. -/
  | wakes
  | returns
  | interrupted
  | pollThrows (failure : ε)
  /-- `drain_event_fd`. -/
  | drain
  | turnEnds
  | turnThrows (failure : ε)
  | deregister

/-- A step of one of the threads. -/
inductive ThreadStep (n : ℕ) (ε : Type) where
  | move (i : Fin n) (move : WorkerMove ε)
  | release (i : Fin n)
  | fail (i : Fin n)
  | failStops (i : Fin n)
  | close (i : Fin n)
  /-- The thread that requested the stop takes a callback, runs it, and is done with all. -/
  | takeCallback (i : Fin n)
  | runCallback (i : Fin n)
  | requested
  | spawn
  | spawnThrows
  | await
  | countDown
  | giveUp
  | ready
  | inspect
  | join
  | conclude
  /-- Steps of others: a call of `stop`, a signal for a reactor, and the call of `wait` (or the
  destructors after a `start` that threw). -/
  | stop
  | wake (i : Fin n)
  | wait

namespace Worker

variable {ε : Type}

/-- What `ready_guard` counts the latch down by when it lets go. -/
def guard (w : Worker ε) : ℕ := if w.counted then 0 else 1

/-- The thread goes on. -/
def goTo (w : Worker ε) (phase : WorkerPhase ε) : Worker ε := { w with phase := phase }

@[simp] theorem phase_goTo (w : Worker ε) (phase : WorkerPhase ε) : (w.goTo phase).phase = phase :=
  rfl

/-- `ready_guard` lets go. -/
def letGo (w : Worker ε) : Worker ε := { w with counted := true }

@[simp] theorem phase_letGo (w : Worker ε) : w.letGo.phase = w.phase := rfl

/-- Its eventfd is written to. -/
def signal (w : Worker ε) : Worker ε := { w with eventFd := signalEventFd w.eventFd }

/-- `epoll_wait` has returned. -/
def beginBatch (stopRequested reported : Bool) (w : Worker ε) : Worker ε :=
  { w with
    phase := .turning
    reported := reported
    batchesAfterStop := w.batchesAfterStop + if stopRequested then 1 else 0 }

/-- A move of a thread that needs nothing of the others. -/
def move (stopRequested : Bool) (w : Worker ε) : WorkerMove ε → Option (Worker ε)
  | .register =>
    match w.phase with
    | .entering =>
      if stopRequested then some { w.signal with phase := .registered }
      else some { w with phase := .registered, stopWake := .pending }
    | _ => none
  | .setupThrows failure =>
    match w.phase with
    | .entering => some { w with phase := .caught failure, threw := some failure }
    | _ => none
  | .check =>
    match w.phase with
    | .checking => some { w with phase := if stopRequested then .leaving else .polling }
    | _ => none
  | .wakes =>
    match w.phase with
    | .polling => if 0 < w.eventFd then some (w.beginBatch stopRequested true) else none
    | _ => none
  | .returns =>
    match w.phase with
    | .polling => some (w.beginBatch stopRequested false)
    | _ => none
  | .interrupted =>
    match w.phase with
    | .polling => some { w with phase := .checking }
    | _ => none
  | .pollThrows failure =>
    match w.phase with
    | .polling => some { w with phase := .unwinding failure, threw := some failure }
    | _ => none
  | .drain =>
    match w.phase with
    | .turning => if w.reported then some { w with eventFd := 0, reported := false } else none
    | _ => none
  | .turnEnds =>
    match w.phase with
    | .turning => if w.reported then none else some { w with phase := .checking }
    | _ => none
  | .turnThrows failure =>
    match w.phase with
    | .turning =>
      some { w with phase := .unwinding failure, reported := false, threw := some failure }
    | _ => none
  | .deregister =>
    if w.stopWake = .running then none
    else
      match w.phase with
      | .leaving => some { w with phase := .closing, stopWake := .absent }
      | .unwinding failure => some { w with phase := .caught failure, stopWake := .absent }
      | _ => none

end Worker

namespace ServerThreads

variable {n : ℕ} {ε : Type}

/-- The other threads are as before. -/
def put (s : ServerThreads n ε) (i : Fin n) (w : Worker ε) : ServerThreads n ε :=
  { s with workers := Function.update s.workers i w }

/-- The first request to stop: its thread goes on to run the callbacks. -/
def requestStop (s : ServerThreads n ε) (who : Requester n) : ServerThreads n ε :=
  { s with stopRequested := true, requester := some who }

/-- A step of the server; none if it is not possible. -/
def step (s : ServerThreads n ε) : ThreadStep n ε → Option (ServerThreads n ε)
  | .move i move => ((s.workers i).move s.stopRequested move).map (s.put i)
  | .release i =>
    let w := s.workers i
    match w.phase with
    | .registered =>
      some { s.put i (w.letGo.goTo .checking) with
        latch := s.latch - w.guard }
    | _ => none
  | .fail i =>
    let w := s.workers i
    match w.phase with
    | .caught failure =>
      some { s.put i (w.goTo .failed) with
        failure := s.failure.or (some failure)
        failures := s.failures ++ [(i, failure)] }
    | _ => none
  | .failStops i =>
    let w := s.workers i
    match w.phase with
    | .failed =>
      if s.stopRequested then some (s.put i (w.goTo .closing))
      else some ((s.put i (w.goTo .requesting)).requestStop (.worker i))
    | _ => none
  | .close i =>
    let w := s.workers i
    match w.phase with
    | .closing =>
      some { s.put i (w.letGo.goTo .finished) with
        latch := s.latch - w.guard }
    | _ => none
  | .takeCallback i =>
    let w := s.workers i
    if s.requester.isSome ∧ w.stopWake = .pending ∧ ∀ j, (s.workers j).stopWake ≠ .running then
      some (s.put i { w with stopWake := .running })
    else none
  | .runCallback i =>
    let w := s.workers i
    if w.stopWake = .running then some (s.put i { w.signal with stopWake := .absent }) else none
  | .requested =>
    if ∀ i, (s.workers i).stopWake = .absent then
      match s.requester with
      | none => none
      | some (.worker i) =>
        some { s.put i ((s.workers i).goTo .closing) with requester := none }
      | some .main => some { s with requester := none, main := .threw }
      | some .other => some { s with requester := none }
    else none
  | .spawn =>
    match s.main with
    | .spawning index =>
      if h : index < n then
        some { s.put ⟨index, h⟩ ((s.workers ⟨index, h⟩).goTo .entering) with
          main := .spawning (index + 1) }
      else none
    | _ => none
  | .spawnThrows =>
    match s.main with
    | .spawning index => if index < n then some { s with main := .countingDown index } else none
    | _ => none
  | .await =>
    match s.main with
    | .spawning index => if index < n then none else some { s with main := .awaiting }
    | _ => none
  | .countDown =>
    match s.main with
    | .countingDown index =>
      if h : index < n then
        some { s.put ⟨index, h⟩ (s.workers ⟨index, h⟩).letGo with
          latch := s.latch - 1
          main := .countingDown (index + 1) }
      else none
    | _ => none
  | .giveUp =>
    match s.main with
    | .countingDown index =>
      if index < n then none
      else if s.stopRequested then some { s with main := .threw }
      else some ({ s with main := .requesting }.requestStop .main)
    | _ => none
  | .ready =>
    match s.main with
    | .awaiting => if s.latch = 0 then some { s with main := .inspecting } else none
    | _ => none
  | .inspect =>
    match s.main with
    | .inspecting =>
      some { s with main := if s.failure.isSome then .joining 0 else .serving }
    | _ => none
  | .join =>
    match s.main with
    | .joining index =>
      if h : index < n then
        match (s.workers ⟨index, h⟩).phase with
        | .unspawned | .finished => some { s with main := .joining (index + 1) }
        | _ => none
      else none
    | _ => none
  | .conclude =>
    match s.main with
    | .joining index => if index < n then none else some { s with main := .joined s.failure }
    | _ => none
  | .stop => some (if s.stopRequested then s else s.requestStop .other)
  | .wake i => some (s.put i (s.workers i).signal)
  | .wait =>
    match s.main with
    | .serving | .threw => some { s with main := .joining 0 }
    | _ => none

end ServerThreads

end ErikslundHttp
