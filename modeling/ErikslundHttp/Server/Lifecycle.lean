import ErikslundHttp.Lib.Ownership
import ErikslundHttp.Reactor.NoLostWakeup
import ErikslundHttp.Server.Threads

/-!
# From `start` to `wait`

* `Inv` says of each thread what holds where it is, and of what the threads share what ties them
  together: the latch is what the guards still owe it, and while a callback is left, the thread that
  requested the stop is at work on it.
* `stepped` says once what a step does; every step keeps `Inv`.
* `server_lifecycle`: a worker that sleeps in `epoll_wait` after a stop has its eventfd signalled, or
  will have.
-/

namespace ErikslundHttp

variable {n : ℕ} {ε : Type}

/-! ### What holds where a worker is -/

/-- The thread is between its start and the handler. -/
def WorkerPhase.moves : WorkerPhase ε → Bool
  | .entering | .registered | .checking | .polling | .turning | .leaving | .unwinding _ => true
  | _ => false

/-- The thread is past the handler. -/
def WorkerPhase.isPast : WorkerPhase ε → Bool
  | .failed | .requesting | .closing | .finished => true
  | _ => false

namespace Worker

/-- A callback that is registered stays so until a stop is requested. -/
def Listens (stopRequested : Bool) (w : Worker ε) : Prop :=
  stopRequested = false → w.stopWake = .pending

/-- At most one batch was begun since a stop was requested. -/
def Patient (stopRequested : Bool) (w : Worker ε) : Prop :=
  w.batchesAfterStop ≤ 1 ∧ (stopRequested = false → w.batchesAfterStop = 0)

/-- What is true of a thread at each place of `Reactor::run`. -/
def Holds (stopRequested : Bool) (w : Worker ε) : Prop :=
  match w.phase with
  | .unspawned | .entering => w.stopWake = .absent ∧ w.batchesAfterStop = 0 ∧ w.threw = none
  | .registered => w.Listens stopRequested ∧ w.batchesAfterStop = 0 ∧ w.threw = none
  | .checking | .turning => w.Listens stopRequested ∧ w.Patient stopRequested ∧ w.threw = none
  | .polling => w.Listens stopRequested ∧ (w.stopWake = .absent → 0 < w.eventFd) ∧
      w.batchesAfterStop = 0 ∧ w.threw = none
  | .leaving => stopRequested = true ∧ w.batchesAfterStop ≤ 1 ∧ w.threw = none
  | .unwinding failure => w.Listens stopRequested ∧ w.batchesAfterStop ≤ 1 ∧ w.threw = some failure
  | .caught failure => w.stopWake = .absent ∧ w.batchesAfterStop ≤ 1 ∧ w.threw = some failure
  | .failed | .requesting | .closing => w.stopWake = .absent ∧ w.batchesAfterStop ≤ 1
  | .finished => w.stopWake = .absent ∧ w.batchesAfterStop ≤ 1 ∧ w.counted = true

variable {stopRequested : Bool} {w w' : Worker ε}

theorem Listens.requested (w : Worker ε) : w.Listens true := fun h => absurd h (by decide)

theorem Patient.requested (h : w.Patient stopRequested) : w.Patient true :=
  ⟨h.1, fun h => absurd h (by decide)⟩

/-- A request to stop asks less of a worker. -/
theorem Holds.requested (h : w.Holds stopRequested) : w.Holds true := by
  unfold Holds at h ⊢
  cases hphase : w.phase with
  | registered | checking | polling | turning | unwinding =>
    rw [hphase] at h
    first
      | exact ⟨.requested w, h.2.1.requested, h.2.2⟩
      | exact ⟨.requested w, h.2⟩
  | leaving =>
    rw [hphase] at h
    exact ⟨rfl, h.2⟩
  | _ =>
    rw [hphase] at h
    exact h

theorem Holds.batches_le (h : w.Holds stopRequested) : w.batchesAfterStop ≤ 1 := by
  unfold Holds at h
  split at h
  all_goals first
    | exact h.2.1.le.trans (Nat.zero_le 1)
    | exact h.2.1.1
    | exact h.2.2.1.le.trans (Nat.zero_le 1)
    | exact h.2.1
    | exact h.2

theorem Holds.takeCallback (h : w.Holds true) (hpending : w.stopWake = .pending) :
    Holds true { w with stopWake := .running } := by
  have hnot : w.stopWake ≠ .absent := by simp [hpending]
  unfold Holds at h ⊢
  cases hphase : w.phase with
  | registered | checking | polling | turning | unwinding =>
    rw [hphase] at h
    first
      | exact ⟨.requested _, h.2.1, h.2.2⟩
      | exact ⟨.requested _, fun habsent => by simp at habsent, h.2.2⟩
  | leaving =>
    rw [hphase] at h
    exact h
  | _ =>
    rw [hphase] at h
    exact absurd h.1 hnot

theorem Holds.runCallback (h : w.Holds true) :
    Holds true { w.signal with stopWake := .absent } := by
  unfold Holds at h ⊢
  cases hphase : w.phase with
  | registered | checking | turning | unwinding =>
    rw [hphase] at h
    rw [show Worker.phase { w.signal with stopWake := .absent } = _ from hphase]
    exact ⟨.requested _, h.2.1, h.2.2⟩
  | polling =>
    rw [hphase] at h
    rw [show Worker.phase { w.signal with stopWake := .absent } = _ from hphase]
    exact ⟨.requested _, fun _ => StreamSystem.signalEventFd_pos _, h.2.2⟩
  | leaving =>
    rw [hphase] at h
    rw [show Worker.phase { w.signal with stopWake := .absent } = _ from hphase]
    exact h
  | _ =>
    rw [hphase] at h
    rw [show Worker.phase { w.signal with stopWake := .absent } = _ from hphase]
    exact ⟨rfl, h.2⟩

/-- Before a stop is requested no callback runs. -/
theorem Holds.stopWake_ne_running (h : w.Holds false) : w.stopWake ≠ .running := by
  have hpending : w.stopWake = .pending → w.stopWake ≠ .running := fun h => by simp [h]
  have habsent : w.stopWake = .absent → w.stopWake ≠ .running := fun h => by simp [h]
  unfold Holds at h
  split at h
  all_goals first
    | exact habsent h.1
    | exact hpending (h.1 rfl)
    | exact absurd h.1 (by decide)

/-! ### The moves of a worker -/

theorem holds_signal (h : w.Holds stopRequested) : w.signal.Holds stopRequested := by
  unfold Holds at h ⊢
  cases hphase : w.phase with
  | polling =>
    rw [hphase] at h
    rw [show w.signal.phase = .polling from hphase]
    exact ⟨h.1, fun _ => StreamSystem.signalEventFd_pos _, h.2.2⟩
  | _ =>
    rw [hphase] at h
    rw [show w.signal.phase = _ from hphase]
    exact h

/-- What a move changes, and from where to where it goes. -/
structure Moved (stopRequested : Bool) (w w' : Worker ε) : Prop where
  holds : w'.Holds stopRequested
  starts : w.phase.moves = true
  ends : w'.phase ≠ .unspawned ∧ w'.phase ≠ .requesting ∧ w'.phase ≠ .failed
  counted : w'.counted = w.counted
  stopWake : stopRequested = true → w.stopWake = .absent → w'.stopWake = .absent
  /-- An exception begins to unwind, or is caught. -/
  threw : ∀ failure, w'.threw = some failure →
    w'.phase = .unwinding failure ∨ w'.phase = .caught failure

theorem move_moved {move : WorkerMove ε} (h : w.Holds stopRequested)
    (hmove : w.move stopRequested move = some w') : Moved stopRequested w w' := by
  have hstarts {phase : WorkerPhase ε} (hphase : w.phase = phase) (hmoves : phase.moves = true) :
      w.phase.moves = true := hphase ▸ hmoves
  have hnone {e : ε} {p : Prop} (hnone : w.threw = none) (hsome : w.threw = some e) : p := by
    cases hnone.symm.trans hsome
  have hbatch {reported : Bool} (hphase : w.phase = .polling) (hlistens : w.Listens stopRequested)
      (hbatches : w.batchesAfterStop = 0) (hthrew : w.threw = none) :
      Moved stopRequested w (w.beginBatch stopRequested reported) := by
    refine ⟨⟨hlistens, ⟨?_, fun hfalse => ?_⟩, hthrew⟩, hstarts hphase rfl, by simp [beginBatch],
      rfl, fun _ => id, fun _ => hnone hthrew⟩
    · show w.batchesAfterStop + _ ≤ 1
      rw [hbatches]
      split_ifs <;> decide
    · show w.batchesAfterStop + _ = 0
      rw [hbatches, hfalse]
      rfl
  unfold Holds at h
  cases move with
  | register =>
    simp only [Worker.move] at hmove
    split at hmove
    · next hphase =>
      rw [hphase] at h
      obtain ⟨hwake, hbatches, hthrew⟩ := h
      split_ifs at hmove with hstop
      · cases hmove
        refine ⟨⟨fun hfalse => ?_, hbatches, hthrew⟩, hstarts hphase rfl,
          by simp, rfl, fun _ _ => hwake, fun _ => hnone hthrew⟩
        cases hstop.symm.trans hfalse
      · cases hmove
        exact ⟨⟨fun _ => rfl, hbatches, hthrew⟩, hstarts hphase rfl,
          by simp, rfl, fun htrue => absurd htrue hstop, fun _ => hnone hthrew⟩
    · cases hmove
  | setupThrows failure =>
    simp only [Worker.move] at hmove
    split at hmove
    · next hphase =>
      rw [hphase] at h
      cases hmove
      refine ⟨⟨h.1, h.2.1.le.trans (Nat.zero_le 1), rfl⟩,
        hstarts hphase rfl, by simp, rfl, fun _ => id, ?_⟩
      rintro _ ⟨⟩
      exact .inr rfl
    · cases hmove
  | check =>
    simp only [Worker.move] at hmove
    split at hmove
    · next hphase =>
      rw [hphase] at h
      obtain ⟨hlistens, hpatient, hthrew⟩ := h
      cases hmove
      refine ⟨?_, hstarts hphase rfl, ?_, rfl, fun _ => id,
        fun _ => hnone hthrew⟩
      · -- the worker sleeps only while its callback is registered
        cases stopRequested with
        | true => exact ⟨rfl, hpatient.1, hthrew⟩
        | false =>
          refine ⟨hlistens, fun habsent => ?_, hpatient.2 rfl, hthrew⟩
          cases (hlistens rfl).symm.trans habsent
      · cases stopRequested <;> simp
    · cases hmove
  | wakes =>
    simp only [Worker.move] at hmove
    split at hmove
    · next hphase =>
      rw [hphase] at h
      split_ifs at hmove
      cases hmove
      exact hbatch hphase h.1 h.2.2.1 h.2.2.2
    · cases hmove
  | returns =>
    simp only [Worker.move] at hmove
    split at hmove
    · next hphase =>
      rw [hphase] at h
      cases hmove
      exact hbatch hphase h.1 h.2.2.1 h.2.2.2
    · cases hmove
  | interrupted =>
    simp only [Worker.move] at hmove
    split at hmove
    · next hphase =>
      rw [hphase] at h
      obtain ⟨hlistens, -, hbatches, hthrew⟩ := h
      cases hmove
      exact ⟨⟨hlistens, ⟨hbatches.le.trans (Nat.zero_le 1), fun _ => hbatches⟩, hthrew⟩,
        hstarts hphase rfl, by simp, rfl, fun _ => id,
        fun _ => hnone hthrew⟩
    · cases hmove
  | pollThrows failure =>
    simp only [Worker.move] at hmove
    split at hmove
    · next hphase =>
      rw [hphase] at h
      cases hmove
      refine ⟨⟨h.1, h.2.2.1.le.trans (Nat.zero_le 1), rfl⟩,
        hstarts hphase rfl, by simp, rfl, fun _ => id, ?_⟩
      rintro _ ⟨⟩
      exact .inl rfl
    · cases hmove
  | drain =>
    simp only [Worker.move] at hmove
    split at hmove
    · next hphase =>
      rw [hphase] at h
      split_ifs at hmove
      cases hmove
      refine ⟨?_, hstarts hphase rfl, by simp [hphase], rfl,
        fun _ => id, fun _ => hnone h.2.2⟩
      unfold Holds
      rw [show Worker.phase { w with eventFd := 0, reported := false } = .turning from hphase]
      exact h
    · cases hmove
  | turnEnds =>
    simp only [Worker.move] at hmove
    split at hmove
    · next hphase =>
      rw [hphase] at h
      split_ifs at hmove
      cases hmove
      exact ⟨h, hstarts hphase rfl, by simp, rfl, fun _ => id,
        fun _ => hnone h.2.2⟩
    · cases hmove
  | turnThrows failure =>
    simp only [Worker.move] at hmove
    split at hmove
    · next hphase =>
      rw [hphase] at h
      cases hmove
      refine ⟨⟨h.1, h.2.1.1, rfl⟩, hstarts hphase rfl, by simp, rfl,
        fun _ => id, ?_⟩
      rintro _ ⟨⟩
      exact .inl rfl
    · cases hmove
  | deregister =>
    simp only [Worker.move] at hmove
    split_ifs at hmove
    split at hmove
    · next hphase =>
      rw [hphase] at h
      cases hmove
      exact ⟨⟨rfl, h.2.1⟩, hstarts hphase rfl, by simp, rfl,
        fun _ _ => rfl, fun _ => hnone h.2.2⟩
    · next failure hphase =>
      rw [hphase] at h
      cases hmove
      refine ⟨⟨rfl, h.2.1, h.2.2⟩, hstarts hphase rfl, by simp, rfl,
        fun _ _ => rfl, fun e he => .inr ?_⟩
      rw [Option.some.inj (h.2.2.symm.trans he)]
    · cases hmove

end Worker

namespace ServerThreads

variable {s s' : ServerThreads n ε} {a : ThreadStep n ε}

/-! ### What a step does -/

/-- What a step can do, case by case. -/
inductive Stepped (s : ServerThreads n ε) : ThreadStep n ε → ServerThreads n ε → Prop
  | move (i : Fin n) (move : WorkerMove ε) (w : Worker ε)
      (hmove : (s.workers i).move s.stopRequested move = some w) :
      Stepped s (.move i move) (s.put i w)
  | release (i : Fin n) (hphase : (s.workers i).phase = .registered) :
      Stepped s (.release i) { s.put i ((s.workers i).letGo.goTo .checking) with
        latch := s.latch - (s.workers i).guard }
  | fail (i : Fin n) (failure : ε) (hphase : (s.workers i).phase = .caught failure) :
      Stepped s (.fail i) { s.put i ((s.workers i).goTo .failed) with
        failure := s.failure.or (some failure)
        failures := s.failures ++ [(i, failure)] }
  | failAfterStop (i : Fin n) (hphase : (s.workers i).phase = .failed)
      (hstop : s.stopRequested = true) :
      Stepped s (.failStops i) (s.put i ((s.workers i).goTo .closing))
  | failStops (i : Fin n) (hphase : (s.workers i).phase = .failed)
      (hstop : s.stopRequested = false) :
      Stepped s (.failStops i)
        ((s.put i ((s.workers i).goTo .requesting)).requestStop (.worker i))
  | close (i : Fin n) (hphase : (s.workers i).phase = .closing) :
      Stepped s (.close i) { s.put i ((s.workers i).letGo.goTo .finished) with
        latch := s.latch - (s.workers i).guard }
  | takeCallback (i : Fin n) (hrequester : s.requester.isSome = true)
      (hpending : (s.workers i).stopWake = .pending) :
      Stepped s (.takeCallback i) (s.put i { s.workers i with stopWake := .running })
  | runCallback (i : Fin n) (hrunning : (s.workers i).stopWake = .running) :
      Stepped s (.runCallback i) (s.put i { (s.workers i).signal with stopWake := .absent })
  | workerRequested (i : Fin n) (hrequester : s.requester = some (.worker i))
      (habsent : ∀ j, (s.workers j).stopWake = .absent) :
      Stepped s .requested
        { s.put i ((s.workers i).goTo .closing) with requester := none }
  | mainRequested (hrequester : s.requester = some .main)
      (habsent : ∀ j, (s.workers j).stopWake = .absent) :
      Stepped s .requested { s with requester := none, main := .threw }
  | otherRequested (hrequester : s.requester = some .other)
      (habsent : ∀ j, (s.workers j).stopWake = .absent) :
      Stepped s .requested { s with requester := none }
  | spawn (index : ℕ) (hmain : s.main = .spawning index) (h : index < n) :
      Stepped s .spawn
        { s.put ⟨index, h⟩ ((s.workers ⟨index, h⟩).goTo .entering) with
          main := .spawning (index + 1) }
  | spawnThrows (index : ℕ) (hmain : s.main = .spawning index) (h : index < n) :
      Stepped s .spawnThrows { s with main := .countingDown index }
  | await (index : ℕ) (hmain : s.main = .spawning index) (h : ¬ index < n) :
      Stepped s .await { s with main := .awaiting }
  | countDown (index : ℕ) (hmain : s.main = .countingDown index) (h : index < n) :
      Stepped s .countDown
        { s.put ⟨index, h⟩ (s.workers ⟨index, h⟩).letGo with
          latch := s.latch - 1
          main := .countingDown (index + 1) }
  | giveUpAfterStop (index : ℕ) (hmain : s.main = .countingDown index) (h : ¬ index < n)
      (hstop : s.stopRequested = true) : Stepped s .giveUp { s with main := .threw }
  | giveUp (index : ℕ) (hmain : s.main = .countingDown index) (h : ¬ index < n)
      (hstop : s.stopRequested = false) :
      Stepped s .giveUp ({ s with main := .requesting }.requestStop .main)
  | ready (hmain : s.main = .awaiting) (hlatch : s.latch = 0) :
      Stepped s .ready { s with main := .inspecting }
  | inspect (hmain : s.main = .inspecting) :
      Stepped s .inspect { s with main := if s.failure.isSome then .joining 0 else .serving }
  | join (index : ℕ) (hmain : s.main = .joining index) (h : index < n)
      (hover : (s.workers ⟨index, h⟩).phase = .unspawned ∨
        (s.workers ⟨index, h⟩).phase = .finished) :
      Stepped s .join { s with main := .joining (index + 1) }
  | conclude (index : ℕ) (hmain : s.main = .joining index) (h : ¬ index < n) :
      Stepped s .conclude { s with main := .joined s.failure }
  | stopAgain (hstop : s.stopRequested = true) : Stepped s .stop s
  | stop (hstop : s.stopRequested = false) : Stepped s .stop (s.requestStop .other)
  | wake (i : Fin n) : Stepped s (.wake i) (s.put i (s.workers i).signal)
  | wait (hmain : s.main = .serving ∨ s.main = .threw) :
      Stepped s .wait { s with main := .joining 0 }

theorem stepped (h : step s a = some s') : Stepped s a s' := by
  cases a with
  | move i move =>
    obtain ⟨w, hmove, rfl⟩ := Option.map_eq_some_iff.1 h
    exact .move i move w hmove
  | release i =>
    simp only [step] at h
    split at h
    · next hphase =>
      cases h
      exact .release i hphase
    · cases h
  | fail i =>
    simp only [step] at h
    split at h
    · next failure hphase =>
      cases h
      exact .fail i failure hphase
    · cases h
  | failStops i =>
    simp only [step] at h
    split at h
    · next hphase =>
      split_ifs at h with hstop
      · cases h
        exact .failAfterStop i hphase hstop
      · cases h
        exact .failStops i hphase (Bool.eq_false_of_not_eq_true hstop)
    · cases h
  | close i =>
    simp only [step] at h
    split at h
    · next hphase =>
      cases h
      exact .close i hphase
    · cases h
  | takeCallback i =>
    simp only [step] at h
    split_ifs at h with hcan
    cases h
    exact .takeCallback i hcan.1 hcan.2.1
  | runCallback i =>
    simp only [step] at h
    split_ifs at h with hrunning
    cases h
    exact .runCallback i hrunning
  | requested =>
    simp only [step] at h
    split_ifs at h with habsent
    split at h
    · cases h
    · next i hrequester =>
      cases h
      exact .workerRequested i hrequester habsent
    · next hrequester =>
      cases h
      exact .mainRequested hrequester habsent
    · next hrequester =>
      cases h
      exact .otherRequested hrequester habsent
  | spawn =>
    simp only [step] at h
    split at h
    · next index hmain =>
      split_ifs at h with hlt
      cases h
      exact .spawn index hmain hlt
    · cases h
  | spawnThrows =>
    simp only [step] at h
    split at h
    · next index hmain =>
      split_ifs at h with hlt
      cases h
      exact .spawnThrows index hmain hlt
    · cases h
  | await =>
    simp only [step] at h
    split at h
    · next index hmain =>
      split_ifs at h with hlt
      cases h
      exact .await index hmain hlt
    · cases h
  | countDown =>
    simp only [step] at h
    split at h
    · next index hmain =>
      split_ifs at h with hlt
      cases h
      exact .countDown index hmain hlt
    · cases h
  | giveUp =>
    simp only [step] at h
    split at h
    · next index hmain =>
      split_ifs at h with hlt hstop
      · cases h
        exact .giveUpAfterStop index hmain hlt hstop
      · cases h
        exact .giveUp index hmain hlt (Bool.eq_false_of_not_eq_true hstop)
    · cases h
  | ready =>
    simp only [step] at h
    split at h
    · next hmain =>
      split_ifs at h with hlatch
      cases h
      exact .ready hmain hlatch
    · cases h
  | inspect =>
    simp only [step] at h
    split at h
    · next hmain =>
      cases h
      exact .inspect hmain
    · cases h
  | join =>
    simp only [step] at h
    split at h
    · next index hmain =>
      split_ifs at h with hlt
      split at h
      · next hphase =>
        cases h
        exact .join index hmain hlt (.inl hphase)
      · next hphase =>
        cases h
        exact .join index hmain hlt (.inr hphase)
      · cases h
    · cases h
  | conclude =>
    simp only [step] at h
    split at h
    · next index hmain =>
      split_ifs at h with hlt
      cases h
      exact .conclude index hmain hlt
    · cases h
  | stop =>
    simp only [step] at h
    split_ifs at h with hstop
    · cases h
      exact .stopAgain hstop
    · cases h
      exact .stop (Bool.eq_false_of_not_eq_true hstop)
  | wake i =>
    cases h
    exact .wake i
  | wait =>
    simp only [step] at h
    split at h
    · next hmain =>
      cases h
      exact .wait (.inl hmain)
    · next hmain =>
      cases h
      exact .wait (.inr hmain)
    · cases h

/-! ### The callbacks -/

/-- What holds of the workers, and who is at work on their callbacks. -/
structure Callbacks (s : ServerThreads n ε) : Prop where
  workers : ∀ i, (s.workers i).Holds s.stopRequested
  /-- When the request has been carried out, no callback is left. -/
  called : s.stopRequested = true → s.requester = none → ∀ i, (s.workers i).stopWake = .absent
  /-- Who is at work on the callbacks has requested the stop. -/
  requested : s.requester ≠ none → s.stopRequested = true
  requesting : ∀ i, (s.workers i).phase = .requesting ↔ s.requester = some (.worker i)
  main : s.main = .requesting ↔ s.requester = some .main

theorem workers_put_self (i : Fin n) (w : Worker ε) : (s.put i w).workers i = w :=
  Function.update_self ..

theorem workers_put_of_ne {i j : Fin n} (h : j ≠ i) (w : Worker ε) :
    (s.put i w).workers j = s.workers j := Function.update_of_ne h ..

/-- A worker changes, and neither begins nor ends a request to stop. -/
theorem Callbacks.put (h : Callbacks s) {i : Fin n} {w : Worker ε}
    (hholds : w.Holds s.stopRequested)
    (hcalled : s.stopRequested = true → s.requester = none → (s.workers i).stopWake = .absent →
      w.stopWake = .absent)
    (hphase : w.phase = .requesting ↔ (s.workers i).phase = .requesting) :
    Callbacks (s.put i w) := by
  refine ⟨fun j => ?_, fun hstop hnone j => ?_, h.requested, fun j => ?_, h.main⟩
  all_goals
    by_cases hj : j = i
    · subst hj
      rw [workers_put_self]
      first
        | exact hholds
        | exact hcalled hstop hnone (h.called hstop hnone j)
        | exact hphase.trans (h.requesting j)
    · rw [workers_put_of_ne hj]
      first
        | exact h.workers j
        | exact h.called hstop hnone j
        | exact h.requesting j

/-- The threads' common data change, but not the stop state. -/
theorem Callbacks.of_eq (h : Callbacks s) (hworkers : s'.workers = s.workers)
    (hstop : s'.stopRequested = s.stopRequested) (hrequester : s'.requester = s.requester)
    (hmain : s'.main = .requesting ↔ s.main = .requesting) : Callbacks s' := by
  refine ⟨?_, ?_, ?_, ?_, ?_⟩
  · rw [hworkers, hstop]
    exact h.workers
  · rw [hworkers, hstop, hrequester]
    exact h.called
  · rw [hstop, hrequester]
    exact h.requested
  · rw [hworkers, hrequester]
    exact h.requesting
  · rw [hrequester]
    exact hmain.trans h.main

/-- The first request to stop. -/
theorem callbacks_requestStop (who : Requester n)
    (hworkers : ∀ i, (s.workers i).Holds s.stopRequested)
    (hphase : ∀ i, (s.workers i).phase = .requesting ↔ who = .worker i)
    (hmain : s.main = .requesting ↔ who = .main) : Callbacks (s.requestStop who) := by
  refine ⟨fun i => (hworkers i).requested, fun _ hnone => ?_, fun _ => rfl, fun i => ?_, ?_⟩
  · cases hnone
  · exact (hphase i).trans Option.some_inj.symm
  · exact hmain.trans Option.some_inj.symm

theorem Callbacks.requester_eq_none (h : Callbacks s) (hstop : s.stopRequested = false) :
    s.requester = none := by
  by_contra hsome
  cases hstop.symm.trans (h.requested hsome)

/-! ### The latch, and the thread that waits at it -/

/-- No thread runs this reactor: it was never spawned, or it is over. -/
def IsOver (w : Worker ε) : Prop := w.phase = .unspawned ∨ w.phase = .finished

/-- What is true of the main thread at each place of `start` and `wait`. -/
def MainHolds (s : ServerThreads n ε) : Prop :=
  match s.main with
  | .spawning index => index ≤ n ∧ ∀ i : Fin n,
      (index ≤ i → (s.workers i).phase = .unspawned ∧ (s.workers i).counted = false) ∧
        (i < index → (s.workers i).phase ≠ .unspawned)
  | .countingDown index => index ≤ n ∧ ∀ i : Fin n,
      (index ≤ i → (s.workers i).phase = .unspawned ∧ (s.workers i).counted = false) ∧
        (i < index → (s.workers i).phase = .unspawned → (s.workers i).counted = true)
  | .requesting | .threw =>
    ∀ i, (s.workers i).phase = .unspawned → (s.workers i).counted = true
  | .awaiting => ∀ i, (s.workers i).phase ≠ .unspawned
  | .inspecting | .serving =>
    ∀ i, (s.workers i).phase ≠ .unspawned ∧ (s.workers i).counted = true
  | .joining index => index ≤ n ∧
      (∀ i, (s.workers i).phase = .unspawned → (s.workers i).counted = true) ∧
        ∀ i : Fin n, i < index → IsOver (s.workers i)
  | .joined failure => failure = s.failure ∧ ∀ i, IsOver (s.workers i)

/-- What the main thread relies on stays when a worker changes so: one that runs changes its phase
and may let go of the latch. -/
structure Worker.Goes (w w' : Worker ε) : Prop where
  phase : w'.phase = w.phase ∨ ¬ IsOver w ∧ w'.phase ≠ .unspawned
  counted : w.counted = true → w'.counted = true
  unspawned : w.phase = .unspawned → w'.counted = w.counted

theorem Worker.Goes.unspawned_iff {w w' : Worker ε} (h : Worker.Goes w w') :
    w'.phase = .unspawned ↔ w.phase = .unspawned := by
  obtain heq | ⟨hruns, hspawned⟩ := h.phase
  · rw [heq]
  · exact ⟨fun h => absurd h hspawned, fun h => absurd (.inl h) hruns⟩

theorem Worker.Goes.isOver {w w' : Worker ε} (h : Worker.Goes w w') (hover : IsOver w) :
    IsOver w' := by
  obtain heq | ⟨hruns, -⟩ := h.phase
  · rw [IsOver, heq]
    exact hover
  · exact absurd hover hruns

theorem Worker.Goes.refl (w : Worker ε) : Worker.Goes w w := ⟨.inl rfl, id, fun _ => rfl⟩

theorem MainHolds.of_goes (h : MainHolds s) (hmain : s'.main = s.main)
    (hgoes : ∀ i, Worker.Goes (s.workers i) (s'.workers i))
    (hfailure : s'.failure = s.failure ∨ ∃ i, ¬ IsOver (s.workers i)) : MainHolds s' := by
  unfold MainHolds at h ⊢
  rw [hmain]
  have hwaits : ∀ i, ((s.workers i).phase = .unspawned → (s.workers i).counted = true) →
      (s'.workers i).phase = .unspawned → (s'.workers i).counted = true :=
    fun i h hphase => (hgoes i).counted (h ((hgoes i).unspawned_iff.1 hphase))
  have hfresh : ∀ i, (s.workers i).phase = .unspawned ∧ (s.workers i).counted = false →
      (s'.workers i).phase = .unspawned ∧ (s'.workers i).counted = false :=
    fun i h => ⟨(hgoes i).unspawned_iff.2 h.1, ((hgoes i).unspawned h.1).trans h.2⟩
  cases hphase : s.main with
  | spawning index =>
    rw [hphase] at h
    exact ⟨h.1, fun i => ⟨fun hle => hfresh i ((h.2 i).1 hle),
      fun hlt => fun hphase => (h.2 i).2 hlt ((hgoes i).unspawned_iff.1 hphase)⟩⟩
  | countingDown index =>
    rw [hphase] at h
    exact ⟨h.1, fun i => ⟨fun hle => hfresh i ((h.2 i).1 hle), fun hlt => hwaits i ((h.2 i).2 hlt)⟩⟩
  | requesting | threw =>
    rw [hphase] at h
    exact fun i => hwaits i (h i)
  | awaiting =>
    rw [hphase] at h
    exact fun i hphase => h i ((hgoes i).unspawned_iff.1 hphase)
  | inspecting | serving =>
    rw [hphase] at h
    exact fun i => ⟨fun hphase => (h i).1 ((hgoes i).unspawned_iff.1 hphase),
      (hgoes i).counted (h i).2⟩
  | joining index =>
    rw [hphase] at h
    exact ⟨h.1, fun i => hwaits i (h.2.1 i), fun i hlt => (hgoes i).isOver (h.2.2 i hlt)⟩
  | joined failure =>
    rw [hphase] at h
    refine ⟨?_, fun i => (hgoes i).isOver (h.2 i)⟩
    obtain heq | ⟨i, hruns⟩ := hfailure
    · rw [heq]
      exact h.1
    · exact absurd (h.2 i) hruns

theorem goes_put {i : Fin n} {w : Worker ε} (h : Worker.Goes (s.workers i) w) (j : Fin n) :
    Worker.Goes (s.workers j) ((s.put i w).workers j) := by
  by_cases hj : j = i
  · subst hj
    rw [workers_put_self]
    exact h
  · rw [workers_put_of_ne hj]
    exact .refl _

/-! ### The failure -/

/-- The failure is that of the first reactor that called `fail`, and who failed has. -/
structure Failures (s : ServerThreads n ε) : Prop where
  /-- `fail` keeps the first one. -/
  first : s.failure = s.failures.head?.map Prod.snd
  reported : ∀ i failure, (s.workers i).threw = some failure →
    (s.workers i).phase = .unwinding failure ∨ (s.workers i).phase = .caught failure ∨
      (i, failure) ∈ s.failures
  /-- Who is listed has called `fail`. -/
  past : ∀ i failure, (i, failure) ∈ s.failures →
    (s.workers i).threw = some failure ∧ (s.workers i).phase.isPast = true
  /-- After a failure a stop has been requested, or is about to be. -/
  stops : s.failures ≠ [] → s.stopRequested = true ∨ ∃ i, (s.workers i).phase = .failed

/-- The invariant of the threads. -/
structure Inv (s : ServerThreads n ε) : Prop where
  callbacks : Callbacks s
  /-- The latch counts the workers that have not let go of it. -/
  latch : s.latch = ∑ i, (s.workers i).guard
  main : MainHolds s
  failures : Failures s

/-! ### Every step keeps the invariant -/

/-- The worker whose phase is known holds what is said of the phase. -/
theorem holds_of_phase (h : Inv s) (i : Fin n) {phase : WorkerPhase ε}
    (hphase : (s.workers i).phase = phase) :
    Worker.Holds s.stopRequested ((s.workers i).goTo phase) := by
  have hholds := h.callbacks.workers i
  unfold Worker.Holds at hholds ⊢
  rw [hphase] at hholds
  exact hholds

/-- The next reactor, while `start` spawns them or counts the latch down for them. -/
theorem Inv.unspawned (h : Inv s) {index : ℕ}
    (hmain : s.main = .spawning index ∨ s.main = .countingDown index) (hlt : index < n) :
    (s.workers ⟨index, hlt⟩).phase = .unspawned ∧ (s.workers ⟨index, hlt⟩).counted = false := by
  have hholds := h.main
  unfold MainHolds at hholds
  rcases hmain with hmain | hmain <;> rw [hmain] at hholds <;>
    exact (hholds.2 ⟨index, hlt⟩).1 le_rfl

theorem callbacks_stepped (h : Inv s) (hstep : Stepped s a s') : Callbacks s' := by
  have hc := h.callbacks
  have hnot {i : Fin n} {phase phase' : WorkerPhase ε} (hphase : (s.workers i).phase = phase)
      (hne : phase ≠ .requesting) (hne' : phase' ≠ .requesting) :
      phase' = .requesting ↔ (s.workers i).phase = .requesting := by
    rw [hphase]
    exact ⟨fun h => absurd h hne', fun h => absurd h hne⟩
  have hrequester (hstop : s.stopRequested = false) (who : Requester n) :
      s.requester ≠ some who := by
    rw [hc.requester_eq_none hstop]
    exact Option.some_ne_none who |>.symm
  cases hstep with
  | move i move w hmove =>
    have hmoved := Worker.move_moved (hc.workers i) hmove
    refine hc.put hmoved.holds (fun hstop _ => hmoved.stopWake hstop) ?_
    refine ⟨fun h => absurd h hmoved.ends.2.1, fun h => ?_⟩
    have hmoves := hmoved.starts
    rw [h] at hmoves
    cases hmoves
  | release i hphase =>
    obtain ⟨hlistens, hbatches, hthrew⟩ := holds_of_phase h i hphase
    refine (hc.put (i := i) (w := ((s.workers i).letGo.goTo .checking)) ?_
      (fun _ _ => id) (hnot hphase (by simp) (by simp))).of_eq rfl rfl rfl .rfl
    exact ⟨hlistens, ⟨hbatches.le.trans (Nat.zero_le 1), fun _ => hbatches⟩, hthrew⟩
  | fail i failure hphase =>
    obtain ⟨habsent, hbatches, -⟩ := holds_of_phase h i hphase
    exact (hc.put (i := i) (w := ((s.workers i).goTo .failed)) ⟨habsent, hbatches⟩
      (fun _ _ => id) (hnot hphase (by simp) (by simp))).of_eq rfl rfl rfl .rfl
  | failAfterStop i hphase hstop =>
    obtain ⟨habsent, hbatches⟩ := holds_of_phase h i hphase
    exact hc.put ⟨habsent, hbatches⟩ (fun _ _ => id) (hnot hphase (by simp) (by simp))
  | failStops i hphase hstop =>
    refine callbacks_requestStop _ (fun j => ?_) (fun j => ?_) ?_
    · by_cases hj : j = i
      · subst hj
        rw [workers_put_self]
        obtain ⟨habsent, hbatches⟩ := holds_of_phase h j hphase
        exact ⟨habsent, hbatches⟩
      · rw [workers_put_of_ne hj]
        exact hc.workers j
    · by_cases hj : j = i
      · subst hj
        rw [workers_put_self]
        simp
      · rw [workers_put_of_ne hj]
        refine ⟨fun hj' => absurd ((hc.requesting j).1 hj') (hrequester hstop _), fun heq => ?_⟩
        exact absurd (Requester.worker.inj heq).symm hj
    · exact ⟨fun hmain => absurd (hc.main.1 hmain) (hrequester hstop _), fun heq => by cases heq⟩
  | close i hphase =>
    obtain ⟨habsent, hbatches⟩ := holds_of_phase h i hphase
    exact (hc.put (i := i) (w := ((s.workers i).letGo.goTo .finished))
      ⟨habsent, hbatches, rfl⟩ (fun _ _ => id) (hnot hphase (by simp) (by simp))).of_eq
        rfl rfl rfl .rfl
  | takeCallback i hrequester' hpending =>
    have hstop : s.stopRequested = true :=
      hc.requested (Option.isSome_iff_ne_none.1 hrequester')
    refine hc.put ?_ (fun _ hnone => ?_) .rfl
    · have hholds := hc.workers i
      rw [hstop] at hholds ⊢
      exact hholds.takeCallback hpending
    · rw [hnone] at hrequester'
      cases hrequester'
  | runCallback i hrunning =>
    refine hc.put ?_ (fun _ _ _ => rfl) .rfl
    have hholds := hc.workers i
    cases hstop : s.stopRequested with
    | true =>
      rw [hstop] at hholds
      exact hholds.runCallback
    | false =>
      rw [hstop] at hholds
      exact absurd hrunning hholds.stopWake_ne_running
  | workerRequested i hwho habsent =>
    have hphase := (hc.requesting i).2 hwho
    refine ⟨fun j => ?_, fun _ _ j => ?_, fun hne => absurd rfl hne, fun j => ?_, ?_⟩
    · by_cases hj : j = i
      · subst hj
        show Worker.Holds _ ((s.put j _).workers j)
        rw [workers_put_self]
        obtain ⟨habsent, hbatches⟩ := holds_of_phase h j hphase
        exact ⟨habsent, hbatches⟩
      · show Worker.Holds _ ((s.put i _).workers j)
        rw [workers_put_of_ne hj]
        exact hc.workers j
    · by_cases hj : j = i
      · subst hj
        show ((s.put j _).workers j).stopWake = _
        rw [workers_put_self]
        exact habsent j
      · show ((s.put i _).workers j).stopWake = _
        rw [workers_put_of_ne hj]
        exact habsent j
    · by_cases hj : j = i
      · subst hj
        show ((s.put j _).workers j).phase = _ ↔ _
        rw [workers_put_self]
        simp
      · show ((s.put i _).workers j).phase = _ ↔ _
        rw [workers_put_of_ne hj, hc.requesting j, hwho]
        simp [Ne.symm hj]
    · show s.main = _ ↔ _
      rw [hc.main, hwho]
      simp
  | mainRequested hwho habsent =>
    refine ⟨hc.workers, fun _ _ => habsent, fun hne => absurd rfl hne, fun j => ?_, by simp⟩
    show (s.workers j).phase = _ ↔ _
    rw [hc.requesting j, hwho]
    simp
  | otherRequested hwho habsent =>
    refine ⟨hc.workers, fun _ _ => habsent, fun hne => absurd rfl hne, fun j => ?_, ?_⟩
    · show (s.workers j).phase = _ ↔ _
      rw [hc.requesting j, hwho]
      simp
    · show s.main = _ ↔ _
      rw [hc.main, hwho]
      simp
  | spawn index hmain hlt =>
    have hphase := (h.unspawned (.inl hmain) hlt).1
    obtain ⟨habsent, hbatches, hthrew⟩ := holds_of_phase h _ hphase
    refine (hc.put (i := ⟨index, hlt⟩) (w := ((s.workers ⟨index, hlt⟩).goTo .entering))
      ⟨habsent, hbatches, hthrew⟩ (fun _ _ => id) (hnot hphase (by simp) (by simp))).of_eq
        rfl rfl rfl ?_
    show _ ↔ s.main = _
    simp [hmain]
  | spawnThrows _ hmain _ => exact hc.of_eq rfl rfl rfl (by simp [hmain])
  | await _ hmain _ => exact hc.of_eq rfl rfl rfl (by simp [hmain])
  | giveUpAfterStop _ hmain _ _ => exact hc.of_eq rfl rfl rfl (by simp [hmain])
  | ready hmain _ => exact hc.of_eq rfl rfl rfl (by simp [hmain])
  | join _ hmain _ _ => exact hc.of_eq rfl rfl rfl (by simp [hmain])
  | conclude _ hmain _ => exact hc.of_eq rfl rfl rfl (by simp [hmain])
  | countDown index hmain hlt =>
    refine (hc.put (i := ⟨index, hlt⟩) (w := (s.workers ⟨index, hlt⟩).letGo)
      ?_ (fun _ _ => id) .rfl).of_eq rfl rfl rfl ?_
    · have hphase := (h.unspawned (.inr hmain) hlt).1
      unfold Worker.Holds
      rw [show Worker.phase (s.workers ⟨index, hlt⟩).letGo = _ from hphase]
      exact holds_of_phase h _ hphase
    · show _ ↔ s.main = _
      simp [hmain]
  | giveUp index hmain _ hstop =>
    refine callbacks_requestStop _ hc.workers (fun j => ?_) (by simp)
    exact ⟨fun hj => absurd ((hc.requesting j).1 hj) (hrequester hstop _), fun heq => by cases heq⟩
  | inspect hmain =>
    refine hc.of_eq rfl rfl rfl ?_
    show (if s.failure.isSome then _ else _) = _ ↔ _
    split_ifs <;> simp [hmain]
  | stopAgain _ => exact hc
  | stop hstop =>
    refine callbacks_requestStop _ hc.workers (fun j => ?_) ?_
    · exact ⟨fun hj => absurd ((hc.requesting j).1 hj) (hrequester hstop _),
        fun heq => by cases heq⟩
    · exact ⟨fun hmain => absurd (hc.main.1 hmain) (hrequester hstop _), fun heq => by cases heq⟩
  | wake i => exact hc.put (Worker.holds_signal (hc.workers i)) (fun _ _ => id) .rfl
  | wait hmain =>
    refine hc.of_eq rfl rfl rfl ?_
    rcases hmain with hmain | hmain <;> simp [hmain]

theorem latch_put (h : Inv s) (i : Fin n) (w : Worker ε) :
    s.latch + w.guard = ∑ j, ((s.put i w).workers j).guard + (s.workers i).guard := by
  rw [h.latch]
  exact (Ownership.sum_put Worker.guard s.workers i w).symm

/-- A worker whose guard lets go. -/
theorem latch_release (h : Inv s) (i : Fin n) (phase : WorkerPhase ε) :
    s.latch - (s.workers i).guard =
      ∑ j, ((s.put i ((s.workers i).letGo.goTo phase)).workers j).guard := by
  have hsum := latch_put h i ((s.workers i).letGo.goTo phase)
  rw [show Worker.guard ((s.workers i).letGo.goTo phase) = 0 from rfl] at hsum
  omega

theorem latch_stepped (h : Inv s) (hstep : Stepped s a s') :
    s'.latch = ∑ i, (s'.workers i).guard := by
  have hput {i : Fin n} {w : Worker ε} (hcounted : w.counted = (s.workers i).counted) :
      s.latch = ∑ j, ((s.put i w).workers j).guard := by
    have hsum := latch_put h i w
    rw [show w.guard = (s.workers i).guard by rw [Worker.guard, hcounted, Worker.guard]] at hsum
    omega
  cases hstep with
  | move i move w hmove =>
    exact hput (Worker.move_moved (h.callbacks.workers i) hmove).counted
  | release i _ => exact latch_release h i .checking
  | close i _ => exact latch_release h i .finished
  | fail | failAfterStop | failStops | takeCallback | runCallback | workerRequested | wake =>
    exact hput rfl
  | spawn index hmain hlt => exact hput (i := ⟨index, hlt⟩) rfl
  | countDown index hmain hlt =>
    have hcounted := (h.unspawned (.inr hmain) hlt).2
    have hrelease := latch_release h ⟨index, hlt⟩ (s.workers ⟨index, hlt⟩).phase
    rw [show (s.workers ⟨index, hlt⟩).guard = 1 by rw [Worker.guard, hcounted]; rfl] at hrelease
    exact hrelease
  | _ => exact h.latch

theorem main_stepped (h : Inv s) (hstep : Stepped s a s') : MainHolds s' := by
  have hm := h.main
  have hruns {i : Fin n} {phase : WorkerPhase ε} (hphase : (s.workers i).phase = phase)
      (hne : phase ≠ .unspawned) (hne' : phase ≠ .finished) : ¬ IsOver (s.workers i) := by
    rw [IsOver, hphase]
    exact fun h => h.elim hne hne'
  have hmoves {i : Fin n} (hmoves : (s.workers i).phase.moves = true) :
      ¬ IsOver (s.workers i) := by
    rintro (hphase | hphase) <;> rw [hphase] at hmoves <;> cases hmoves
  have hspawned {i : Fin n} {phase : WorkerPhase ε} (hphase : (s.workers i).phase = phase)
      (hne : phase ≠ .unspawned) {p : Prop} (hnone : (s.workers i).phase = .unspawned) : p :=
    absurd (hphase.symm.trans hnone) hne
  cases hstep with
  | move i move w hmove =>
    have hmoved := Worker.move_moved (h.callbacks.workers i) hmove
    refine hm.of_goes rfl (goes_put ⟨.inr ⟨hmoves hmoved.starts, hmoved.ends.1⟩, fun hc => ?_,
      fun _ => hmoved.counted⟩) (.inl rfl)
    rw [hmoved.counted]
    exact hc
  | release i hphase =>
    exact hm.of_goes rfl (goes_put ⟨.inr ⟨hruns hphase (by simp) (by simp), by simp⟩, fun _ => rfl,
      hspawned hphase (by simp)⟩) (.inl rfl)
  | fail i failure hphase =>
    exact hm.of_goes rfl (goes_put ⟨.inr ⟨hruns hphase (by simp) (by simp), by simp⟩, id,
      fun _ => rfl⟩) (.inr ⟨i, hruns hphase (by simp) (by simp)⟩)
  | failAfterStop i hphase _ =>
    exact hm.of_goes rfl (goes_put ⟨.inr ⟨hruns hphase (by simp) (by simp), by simp⟩, id,
      fun _ => rfl⟩) (.inl rfl)
  | failStops i hphase _ =>
    exact hm.of_goes rfl (goes_put ⟨.inr ⟨hruns hphase (by simp) (by simp), by simp⟩, id,
      fun _ => rfl⟩) (.inl rfl)
  | close i hphase =>
    exact hm.of_goes rfl (goes_put ⟨.inr ⟨hruns hphase (by simp) (by simp), by simp⟩, fun _ => rfl,
      hspawned hphase (by simp)⟩) (.inl rfl)
  | takeCallback i _ _ => exact hm.of_goes rfl (goes_put ⟨.inl rfl, id, fun _ => rfl⟩) (.inl rfl)
  | runCallback i _ => exact hm.of_goes rfl (goes_put ⟨.inl rfl, id, fun _ => rfl⟩) (.inl rfl)
  | workerRequested i hwho _ =>
    have hphase := (h.callbacks.requesting i).2 hwho
    exact hm.of_goes rfl (goes_put ⟨.inr ⟨hruns hphase (by simp) (by simp), by simp⟩, id,
      fun _ => rfl⟩) (.inl rfl)
  | mainRequested hwho _ =>
    have hmain := h.callbacks.main.2 hwho
    unfold MainHolds at hm
    rw [hmain] at hm
    exact hm
  | otherRequested _ _ => exact hm.of_goes rfl (fun _ => .refl _) (.inl rfl)
  | spawn index hmain hlt =>
    unfold MainHolds at hm
    rw [hmain] at hm
    refine ⟨hlt, fun j => ⟨fun hle => ?_, fun hle => ?_⟩⟩
    · have hj : j ≠ ⟨index, hlt⟩ := fun heq => by
        rw [heq] at hle
        exact absurd hle (Nat.not_succ_le_self index)
      show (Worker.phase ((s.put _ _).workers j)) = _ ∧ (Worker.counted ((s.put _ _).workers j)) = _
      rw [workers_put_of_ne hj]
      exact (hm.2 j).1 (Nat.le_of_succ_le hle)
    · show (Worker.phase ((s.put _ _).workers j)) ≠ _
      by_cases hj : j = ⟨index, hlt⟩
      · subst hj
        rw [workers_put_self]
        simp
      · rw [workers_put_of_ne hj]
        refine (hm.2 j).2 (lt_of_le_of_ne (Nat.le_of_lt_succ hle) fun heq => hj ?_)
        exact Fin.ext heq
  | spawnThrows index hmain hlt =>
    unfold MainHolds at hm
    rw [hmain] at hm
    exact ⟨hm.1, fun j => ⟨(hm.2 j).1, fun hlt hphase => absurd hphase ((hm.2 j).2 hlt)⟩⟩
  | await index hmain hlt =>
    unfold MainHolds at hm
    rw [hmain] at hm
    exact fun j => (hm.2 j).2 (lt_of_lt_of_le j.isLt (not_lt.1 hlt))
  | countDown index hmain hlt =>
    unfold MainHolds at hm
    rw [hmain] at hm
    refine ⟨hlt, fun j => ⟨fun hle => ?_, fun hle => ?_⟩⟩
    · have hj : j ≠ ⟨index, hlt⟩ := fun heq => by
        rw [heq] at hle
        exact absurd hle (Nat.not_succ_le_self index)
      show (Worker.phase ((s.put _ _).workers j)) = _ ∧ (Worker.counted ((s.put _ _).workers j)) = _
      rw [workers_put_of_ne hj]
      exact (hm.2 j).1 (Nat.le_of_succ_le hle)
    · show (Worker.phase ((s.put _ _).workers j)) = _ → (Worker.counted ((s.put _ _).workers j)) = _
      by_cases hj : j = ⟨index, hlt⟩
      · subst hj
        rw [workers_put_self]
        exact fun _ => rfl
      · rw [workers_put_of_ne hj]
        refine (hm.2 j).2 (lt_of_le_of_ne (Nat.le_of_lt_succ hle) fun heq => hj ?_)
        exact Fin.ext heq
  | giveUpAfterStop index hmain hlt _ | giveUp index hmain hlt _ =>
    unfold MainHolds at hm
    rw [hmain] at hm
    exact fun j => (hm.2 j).2 (lt_of_lt_of_le j.isLt (not_lt.1 hlt))
  | ready hmain hlatch =>
    unfold MainHolds at hm
    rw [hmain] at hm
    refine fun j => ⟨hm j, ?_⟩
    -- nothing is owed to the latch
    have hguard : (s.workers j).guard = 0 := by
      have hsum := h.latch
      rw [hlatch] at hsum
      exact Finset.sum_eq_zero_iff.1 hsum.symm j (Finset.mem_univ j)
    unfold Worker.guard at hguard
    split_ifs at hguard with hcounted
    exact hcounted
  | inspect hmain =>
    unfold MainHolds at hm
    rw [hmain] at hm
    show MainHolds { s with main := if s.failure.isSome then .joining 0 else .serving }
    split_ifs
    · exact ⟨Nat.zero_le n, fun j _ => (hm j).2, fun j hlt => absurd hlt (Nat.not_lt_zero _)⟩
    · exact hm
  | join index hmain hlt hover =>
    unfold MainHolds at hm
    rw [hmain] at hm
    refine ⟨hlt, hm.2.1, fun j hle => ?_⟩
    by_cases hj : j = ⟨index, hlt⟩
    · rw [hj]
      exact hover
    · exact hm.2.2 j (lt_of_le_of_ne (Nat.le_of_lt_succ hle) fun heq => hj (Fin.ext heq))
  | conclude index hmain hlt =>
    unfold MainHolds at hm
    rw [hmain] at hm
    exact ⟨rfl, fun j => hm.2.2 j (lt_of_lt_of_le j.isLt (not_lt.1 hlt))⟩
  | stopAgain _ => exact hm
  | stop _ => exact hm.of_goes rfl (fun _ => .refl _) (.inl rfl)
  | wake i => exact hm.of_goes rfl (goes_put ⟨.inl rfl, id, fun _ => rfl⟩) (.inl rfl)
  | wait hmain =>
    unfold MainHolds at hm
    refine ⟨Nat.zero_le n, ?_, fun j hlt => absurd hlt (Nat.not_lt_zero _)⟩
    rcases hmain with hmain | hmain <;> rw [hmain] at hm
    · exact fun j _ => (hm j).2
    · exact hm

/-- A worker changes, and no reactor fails. -/
theorem Failures.put (h : Failures s) {i : Fin n} {w : Worker ε}
    (hreported : ∀ failure, w.threw = some failure → w.phase = .unwinding failure ∨
      w.phase = .caught failure ∨ (i, failure) ∈ s.failures)
    (hpast : ∀ failure, (i, failure) ∈ s.failures →
      w.threw = some failure ∧ w.phase.isPast = true)
    (hfailed : (s.workers i).phase = .failed → w.phase = .failed ∨ s.stopRequested = true) :
    Failures (s.put i w) := by
  refine ⟨h.first, fun j failure => ?_, fun j failure => ?_, fun hne => ?_⟩
  · by_cases hj : j = i
    · subst hj
      rw [workers_put_self]
      exact hreported failure
    · rw [workers_put_of_ne hj]
      exact h.reported j failure
  · by_cases hj : j = i
    · subst hj
      rw [workers_put_self]
      exact hpast failure
    · rw [workers_put_of_ne hj]
      exact h.past j failure
  · obtain hstop | ⟨j, hj⟩ := h.stops hne
    · exact .inl hstop
    · by_cases heq : j = i
      · subst heq
        refine (hfailed hj).symm.imp_right fun hphase => ⟨j, ?_⟩
        rw [workers_put_self]
        exact hphase
      · refine .inr ⟨j, ?_⟩
        rw [workers_put_of_ne heq]
        exact hj

/-- What is common to the threads changes, but neither the failures nor, back, the stop. -/
theorem Failures.of_eq (h : Failures s) (hworkers : s'.workers = s.workers)
    (hfailure : s'.failure = s.failure) (hfailures : s'.failures = s.failures)
    (hstop : s.stopRequested = true → s'.stopRequested = true) : Failures s' := by
  refine ⟨?_, ?_, ?_, ?_⟩
  · rw [hfailure, hfailures]
    exact h.first
  · rw [hworkers, hfailures]
    exact h.reported
  · rw [hworkers, hfailures]
    exact h.past
  · rw [hworkers, hfailures]
    exact fun hne => (h.stops hne).imp_left hstop

/-- A worker past the handler has reported its exception; it may go on. -/
theorem Failures.putPast (h : Failures s) {i : Fin n} {w : Worker ε}
    (hphase : (s.workers i).phase.isPast = true) (hthrew : w.threw = (s.workers i).threw)
    (hpast : w.phase.isPast = true)
    (hfailed : (s.workers i).phase = .failed → s.stopRequested = true) : Failures (s.put i w) := by
  refine h.put (fun failure hsome => ?_) (fun failure hmem => ⟨?_, hpast⟩)
    fun hf => .inr (hfailed hf)
  · rw [hthrew] at hsome
    obtain heq | heq | hmem := h.reported i failure hsome
    · rw [heq] at hphase
      cases hphase
    · rw [heq] at hphase
      cases hphase
    · exact .inr (.inr hmem)
  · rw [hthrew]
    exact (h.past i failure hmem).1

theorem failures_stepped (h : Inv s) (hstep : Stepped s a s') : Failures s' := by
  have hf := h.failures
  have hsame {i : Fin n} {w : Worker ε} (hphase : w.phase = (s.workers i).phase)
      (hthrew : w.threw = (s.workers i).threw) : Failures (s.put i w) := by
    refine hf.put ?_ ?_ ?_
    · rw [hphase, hthrew]
      exact hf.reported i
    · rw [hphase, hthrew]
      exact hf.past i
    · rw [hphase]
      exact .inl
  have hnone {i : Fin n} (hpast : (s.workers i).phase.isPast = false) (failure : ε) {p : Prop}
      (hmem : (i, failure) ∈ s.failures) : p := by
    cases hpast.symm.trans (hf.past i failure hmem).2
  cases hstep with
  | move i move w hmove =>
    have hmoved := Worker.move_moved (h.callbacks.workers i) hmove
    have hmoves := hmoved.starts
    refine hf.put (fun failure hsome => ?_) (fun failure hmem => ?_) fun hphase => ?_
    · exact (hmoved.threw failure hsome).imp_right .inl
    · refine hnone ?_ failure hmem
      cases hphase : (s.workers i).phase <;> rw [hphase] at hmoves <;> first | rfl | cases hmoves
    · rw [hphase] at hmoves
      cases hmoves
  | release i hphase =>
    obtain ⟨-, -, hthrew⟩ := holds_of_phase h i hphase
    refine (hf.put (i := i) (w := ((s.workers i).letGo.goTo .checking))
      (fun failure hsome => ?_) (fun failure hmem => ?_) fun hfailed => ?_).of_eq rfl rfl rfl id
    · cases hthrew.symm.trans hsome
    · exact hnone (by rw [hphase]; rfl) failure hmem
    · cases hphase.symm.trans hfailed
  | fail i failure hphase =>
    obtain ⟨-, -, hthrew⟩ := holds_of_phase h i hphase
    refine ⟨?_, fun j e hsome => ?_, fun j e hmem => ?_, fun _ => .inr ⟨i, ?_⟩⟩
    · show s.failure.or _ = _
      rw [hf.first]
      cases s.failures <;> rfl
    · change ((s.put i _).workers j).threw = _ at hsome
      show ((s.put i _).workers j).phase = _ ∨ ((s.put i _).workers j).phase = _ ∨
        (j, e) ∈ s.failures ++ [(i, failure)]
      by_cases hj : j = i
      · subst hj
        rw [workers_put_self] at hsome
        refine .inr (.inr (List.mem_append_right _ ?_))
        rw [Option.some.inj (hthrew.symm.trans hsome)]
        exact List.mem_cons_self
      · rw [workers_put_of_ne hj] at hsome ⊢
        exact (hf.reported j e hsome).imp_right (Or.imp_right (List.mem_append_left _))
    · change (j, e) ∈ s.failures ++ [(i, failure)] at hmem
      show ((s.put i _).workers j).threw = _ ∧ ((s.put i _).workers j).phase.isPast = true
      obtain hearlier | hlast := List.mem_append.1 hmem
      · have hj : j ≠ i := fun heq => by
          subst heq
          exact hnone (by rw [hphase]; rfl) e hearlier
        rw [workers_put_of_ne hj]
        exact hf.past j e hearlier
      · obtain ⟨rfl, rfl⟩ := Prod.mk.inj (List.mem_singleton.1 hlast)
        rw [workers_put_self]
        exact ⟨hthrew, rfl⟩
    · show ((s.put i _).workers i).phase = _
      rw [workers_put_self]
      rfl
  | failAfterStop i hphase hstop =>
    exact hf.putPast (by rw [hphase]; rfl) rfl rfl fun _ => hstop
  | failStops i hphase hstop =>
    have hstopped : Failures { s with stopRequested := true, requester := some (.worker i) } :=
      hf.of_eq rfl rfl rfl fun _ => rfl
    exact hstopped.putPast (i := i) (w := ((s.workers i).goTo .requesting))
      (by show (s.workers i).phase.isPast = true; rw [hphase]; rfl) rfl rfl fun _ => rfl
  | close i hphase =>
    refine (hf.putPast (i := i) (w := ((s.workers i).letGo.goTo .finished))
      (by rw [hphase]; rfl) rfl rfl fun hfailed => ?_).of_eq rfl rfl rfl id
    cases hphase.symm.trans hfailed
  | workerRequested i hwho _ =>
    have hphase := (h.callbacks.requesting i).2 hwho
    refine (hf.putPast (i := i) (w := ((s.workers i).goTo .closing))
      (by rw [hphase]; rfl) rfl rfl fun hfailed => ?_).of_eq rfl rfl rfl id
    cases hphase.symm.trans hfailed
  | spawn index hmain hlt =>
    have hphase := (h.unspawned (.inl hmain) hlt).1
    obtain ⟨-, -, hthrew⟩ := holds_of_phase h _ hphase
    refine (hf.put (i := ⟨index, hlt⟩) (w := ((s.workers ⟨index, hlt⟩).goTo .entering))
      (fun failure hsome => ?_) (fun failure hmem => ?_) fun hfailed => ?_).of_eq rfl rfl rfl id
    · cases hthrew.symm.trans hsome
    · exact hnone (by rw [hphase]; rfl) failure hmem
    · cases hphase.symm.trans hfailed
  | takeCallback i _ _ => exact hsame rfl rfl
  | runCallback i _ => exact hsame rfl rfl
  | wake i => exact hsame rfl rfl
  | countDown index hmain hlt =>
    exact (hsame (i := ⟨index, hlt⟩) (w := (s.workers ⟨index, hlt⟩).letGo)
      rfl rfl).of_eq rfl rfl rfl id
  | stop _ | giveUp _ _ _ _ => exact hf.of_eq rfl rfl rfl fun _ => rfl
  | _ => exact hf.of_eq rfl rfl rfl id

theorem inv_stepped (h : Inv s) (hstep : Stepped s a s') : Inv s' :=
  ⟨callbacks_stepped h hstep, latch_stepped h hstep, main_stepped h hstep, failures_stepped h hstep⟩

theorem init_inv : Inv ({} : ServerThreads n ε) := by
  refine ⟨⟨fun _ => ⟨rfl, rfl, rfl⟩, ?_, ?_, ?_, ?_⟩, ?_, ?_, ⟨rfl, ?_, ?_, ?_⟩⟩
  · exact fun h => absurd h Bool.false_ne_true
  · exact fun h => absurd rfl h
  · intro i
    constructor <;> intro h <;> cases h
  · constructor <;> intro h <;> cases h
  · simp [Worker.guard]
  · exact ⟨Nat.zero_le n, fun i => ⟨fun _ => ⟨rfl, rfl⟩, fun hlt => absurd hlt (Nat.not_lt_zero _)⟩⟩
  · exact fun i failure h => by cases h
  · exact fun i failure h => absurd h List.not_mem_nil
  · exact fun h => absurd rfl h

theorem run_inv {steps : List (ThreadStep n ε)} (h : Transitions.Run step {} steps s) : Inv s :=
  h.invariant (fun _ _ _ hs hstep => inv_stepped hs (stepped hstep)) init_inv

/-- **The threads of a server.**  In every state that any interleaving of the threads leads to:

* the latch is the number of reactors whose guard still holds it, so it is counted down once for
  each and never below zero; once `start` has passed it, none does;
* after a stop was requested, a reactor that sleeps in `epoll_wait` has its eventfd signalled, or
  its callback is still to come and the thread that calls it is at work;
* a reactor begins at most one batch after the request;
* the failure is that of the first reactor that called `fail`, and each of them requests a stop;
* when `wait` is over, so is every reactor, what `wait` throws is that failure, and every exception
  of a reactor was reported. -/
theorem server_lifecycle {steps : List (ThreadStep n ε)} (h : Transitions.Run step {} steps s) :
    s.latch = (Finset.univ.filter fun i => (s.workers i).counted = false).card ∧
    (s.main = .inspecting ∨ s.main = .serving → ∀ i, (s.workers i).counted = true) ∧
    (s.stopRequested = true → ∀ i, (s.workers i).phase = .polling →
      0 < (s.workers i).eventFd ∨
        (s.workers i).stopWake ≠ .absent ∧ s.requester.isSome = true) ∧
    (∀ i, (s.workers i).batchesAfterStop ≤ 1) ∧
    s.failure = s.failures.head?.map Prod.snd ∧
    (s.failures ≠ [] → s.stopRequested = true ∨ ∃ i, (s.workers i).phase = .failed) ∧
    (∀ failure, s.main = .joined failure → failure = s.failure ∧
      ∀ i, ((s.workers i).phase = .unspawned ∨ (s.workers i).phase = .finished) ∧
        ∀ e, (s.workers i).threw = some e → (i, e) ∈ s.failures) := by
  have hinv := run_inv h
  refine ⟨?_, fun hmain => ?_, fun hstop i hphase => ?_, fun i => ?_, hinv.failures.first,
    hinv.failures.stops, fun failure hmain => ?_⟩
  · rw [hinv.latch, Finset.card_filter]
    refine Finset.sum_congr rfl fun i _ => ?_
    cases hcounted : (s.workers i).counted <;> simp [Worker.guard, hcounted]
  · have hholds := hinv.main
    unfold MainHolds at hholds
    rcases hmain with hmain | hmain <;> rw [hmain] at hholds <;> exact fun i => (hholds i).2
  · obtain ⟨-, hwakes, -⟩ := holds_of_phase hinv i hphase
    by_cases habsent : (s.workers i).stopWake = .absent
    · exact .inl (hwakes habsent)
    · refine .inr ⟨habsent, Option.isSome_iff_ne_none.2 fun hnone => habsent ?_⟩
      exact hinv.callbacks.called hstop hnone i
  · exact (hinv.callbacks.workers i).batches_le
  · have hholds := hinv.main
    unfold MainHolds at hholds
    rw [hmain] at hholds
    refine ⟨hholds.1, fun i => ⟨hholds.2 i, fun e hthrew => ?_⟩⟩
    obtain heq | heq | hmem := hinv.failures.reported i e hthrew
    · rcases hholds.2 i with hphase | hphase <;> cases heq.symm.trans hphase
    · rcases hholds.2 i with hphase | hphase <;> cases heq.symm.trans hphase
    · exact hmem

/-- One of two reactors. -/
def first : Fin 2 := ⟨0, Nat.zero_lt_two⟩

/-- The other one. -/
def second : Fin 2 := ⟨1, Nat.one_lt_two⟩

/-- Two reactors serve; a handler of the first throws, and it reports the exception. -/
def handlerThrows : List (ThreadStep 2 ℕ) :=
  [.spawn, .spawn, .await, .move first .register, .release first, .move second .register,
    .release second, .ready, .inspect, .wait, .move first .check, .move second .check,
    .move first .returns, .move first (.turnThrows 7), .move first .deregister, .fail first,
    .failStops first]

/-- The callback of the second runs, both come to their end, and `wait` has joined them. -/
def othersStop : List (ThreadStep 2 ℕ) :=
  [.takeCallback second, .runCallback second, .requested, .move second .wakes, .move second .drain,
    .move second .turnEnds, .move second .check, .move second .deregister, .close second,
    .close first, .join, .join, .conclude]

theorem server_lifecycle_handlerThrows :
    ∃ s, Transitions.Run step {} (handlerThrows ++ othersStop) s ∧ s.main = .joined (some 7) ∧
      s.failure = s.failures.head?.map Prod.snd ∧
      ∀ i, ((s.workers i).phase = .unspawned ∨ (s.workers i).phase = .finished) ∧
        ∀ e, (s.workers i).threw = some e → (i, e) ∈ s.failures := by
  have hjoined : ((handlerThrows ++ othersStop).foldlM step {}).map ServerThreads.main =
      some (.joined (some 7)) := rfl
  obtain ⟨s, hs, hmain⟩ := Option.map_eq_some_iff.1 hjoined
  have hrun := Transitions.Run.of_foldlM hs
  obtain ⟨-, -, -, -, hfirst, -, hover⟩ := server_lifecycle hrun
  exact ⟨s, hrun, hmain, hfirst, (hover _ hmain).2⟩

end ServerThreads

end ErikslundHttp
