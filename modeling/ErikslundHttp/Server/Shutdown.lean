import ErikslundHttp.Server.Lifecycle
import Mathlib.Algebra.Order.BigOperators.Group.Finset

/-!
# The end of a server

After a stop was requested the threads come to an end.

* `rank` bounds what they may still do: every step of their own lowers it (`rank_stepped`), whatever
  other threads do in between.
* As long as a reactor is not over, one of the threads can take a step that neither an event of the
  network nor the end of a timeout has to bring about (`isOver_of_stuck`).
* `server_stops`: so nothing waits for ever at the latch, in `epoll_wait`, for a callback or in a
  join.
-/

namespace ErikslundHttp

variable {n : ℕ} {ε : Type}

/-! ### Steps -/

/-- A step of the threads' own. -/
def ThreadStep.isOwn : ThreadStep n ε → Bool
  | .stop | .wake _ | .wait => false
  | _ => true

/-- A move that needs no event of the network, and no exception. -/
def WorkerMove.isPrompt : WorkerMove ε → Bool
  | .register | .check | .wakes | .drain | .turnEnds | .deregister => true
  | _ => false

/-- A step that needs no event of the network, and no exception. -/
def ThreadStep.isPrompt : ThreadStep n ε → Bool
  | .move _ m => m.isPrompt
  | .spawnThrows => false
  | step => step.isOwn

/-! ### The rank -/

/-- How far a thread of a reactor is from its end. -/
def WorkerPhase.rank : WorkerPhase ε → ℕ
  | .unspawned => 11
  | .entering => 10
  | .registered => 9
  | .polling => 9
  | .turning => 7
  | .unwinding _ => 6
  | .checking => 5
  | .caught _ => 5
  | .failed => 4
  | .requesting => 3
  | .leaving => 2
  | .closing => 1
  | .finished => 0

/-- What its callback may still need. -/
def StopWake.rank : StopWake → ℕ
  | .absent => 0
  | .running => 1
  | .pending => 2

/-- Both, with the batch that it has in hand. -/
def Worker.rank (w : Worker ε) : ℕ :=
  w.phase.rank + w.stopWake.rank + if w.reported then 1 else 0

/-- How far the main thread is from its end. -/
def MainPhase.rank (n : ℕ) : MainPhase ε → ℕ
  | .spawning index => 2 * (n - index) + n + 6
  | .countingDown index => n - index + n + 5
  | .requesting => n + 4
  | .threw => n + 3
  | .awaiting => n + 5
  | .inspecting => n + 4
  | .serving => n + 3
  | .joining index => n - index + 2
  | .joined _ => 0

theorem Worker.rank_le (w : Worker ε) : w.rank ≤ 14 := by
  have hphase : w.phase.rank ≤ 11 := by cases w.phase <;> simp [WorkerPhase.rank]
  have hwake : w.stopWake.rank ≤ 2 := by cases w.stopWake <;> simp [StopWake.rank]
  unfold Worker.rank
  split_ifs <;> omega

/-- After the request to stop, every move of a worker lowers its rank. -/
theorem Worker.move_rank {w w' : Worker ε} {move : WorkerMove ε}
    (hmove : w.move true move = some w') : w'.rank + 1 ≤ w.rank := by
  cases move with
  | deregister =>
    simp only [Worker.move] at hmove
    split_ifs at hmove
    split at hmove
    · next hphase =>
      cases hmove
      simp [rank, hphase, WorkerPhase.rank, StopWake.rank]
      omega
    · next hphase =>
      cases hmove
      simp [rank, hphase, WorkerPhase.rank, StopWake.rank]
      omega
    · cases hmove
  | _ =>
    simp only [Worker.move] at hmove
    split at hmove
    · next hphase =>
      first
        | cases hmove
        | split_ifs at hmove
          cases hmove
      simp [*, rank, beginBatch, signal, WorkerPhase.rank]
      try omega
    · cases hmove

namespace ServerThreads

variable {s s' : ServerThreads n ε} {a : ThreadStep n ε}

/-- The steps that the threads may still take. -/
def rank (s : ServerThreads n ε) : ℕ :=
  s.main.rank n + ∑ i, (s.workers i).rank + if s.requester.isSome then 1 else 0

theorem rank_le (s : ServerThreads n ε) : s.rank ≤ 17 * n + 7 := by
  have hmain : s.main.rank n ≤ 3 * n + 6 := by
    cases s.main <;> simp only [MainPhase.rank] <;> omega
  have hworkers : ∑ i, (s.workers i).rank ≤ 14 * n := by
    refine (Finset.sum_le_sum fun i _ => (s.workers i).rank_le).trans ?_
    rw [Finset.sum_const, Finset.card_univ, Fintype.card_fin, smul_eq_mul, Nat.mul_comm]
  unfold rank
  split_ifs <;> omega

theorem rank_goTo {w : Worker ε} {phase : WorkerPhase ε} (hphase : w.phase = phase)
    (phase' : WorkerPhase ε) : (w.goTo phase').rank + phase.rank = w.rank + phase'.rank := by
  have hswap (a a' b c : ℕ) : a' + b + c + a = a + b + c + a' := by omega
  rw [Worker.rank, Worker.rank, hphase]
  exact hswap _ _ _ _

@[simp] theorem rank_letGo (w : Worker ε) : w.letGo.rank = w.rank := rfl

@[simp] theorem rank_signal (w : Worker ε) : w.signal.rank = w.rank := rfl

/-- The rank, when a worker changes. -/
theorem rank_put (i : Fin n) (w : Worker ε) :
    (s.put i w).rank + (s.workers i).rank = s.rank + w.rank := by
  have hsum : ∑ j, ((s.put i w).workers j).rank + (s.workers i).rank =
      ∑ j, (s.workers j).rank + w.rank := Ownership.sum_put Worker.rank s.workers i w
  have hmain : (s.put i w).main = s.main := rfl
  have hrequester : (s.put i w).requester = s.requester := rfl
  rw [rank, rank, hmain, hrequester]
  omega

/-- The rank, when the main thread goes on. -/
theorem rank_main (main : MainPhase ε) :
    rank { s with main := main } + s.main.rank n = s.rank + main.rank n := by
  simp only [rank]
  omega

/-- After the request to stop every step of the threads' own lowers the rank, and no other step
raises it. -/
theorem rank_stepped (h : Inv s) (hstop : s.stopRequested = true) (hstep : Stepped s a s') :
    s'.rank + (if a.isOwn then 1 else 0) ≤ s.rank := by
  have hfalse {p : Prop} (hnot : s.stopRequested = false) : p := by
    cases hstop.symm.trans hnot
  have hput {i : Fin n} {w : Worker ε} (hlower : w.rank + 1 ≤ (s.workers i).rank) :
      (s.put i w).rank + 1 ≤ s.rank := by
    have := rank_put (s := s) i w
    omega
  have hgoTo {i : Fin n} {w : Worker ε} {phase : WorkerPhase ε} (hphase : w.phase = phase)
      (hsame : w.rank = (s.workers i).rank) (phase' : WorkerPhase ε)
      (hlower : phase'.rank + 1 ≤ phase.rank) : (s.put i (w.goTo phase')).rank + 1 ≤ s.rank := by
    have := rank_goTo hphase phase'
    exact hput (by omega)
  have hmain {s : ServerThreads n ε} {main : MainPhase ε}
      (hlower : main.rank n + 1 ≤ s.main.rank n) : rank { s with main := main } + 1 ≤ s.rank := by
    have := rank_main (s := s) main
    omega
  cases hstep with
  | move i move w hmove =>
    rw [hstop] at hmove
    exact hput (Worker.move_rank hmove)
  | release i hphase =>
    exact hgoTo (w := (s.workers i).letGo) hphase rfl .checking (by simp [WorkerPhase.rank])
  | fail i failure hphase => exact hgoTo hphase rfl .failed (by simp [WorkerPhase.rank])
  | failAfterStop i hphase _ => exact hgoTo hphase rfl .closing (by simp [WorkerPhase.rank])
  | failStops _ _ hnot => exact hfalse hnot
  | close i hphase =>
    exact hgoTo (w := (s.workers i).letGo) hphase rfl .finished (by simp [WorkerPhase.rank])
  | takeCallback i _ hpending =>
    refine hput ?_
    simp only [Worker.rank, hpending, StopWake.rank]
    omega
  | runCallback i hrunning =>
    refine hput ?_
    simp only [Worker.rank, Worker.signal, hrunning, StopWake.rank]
    omega
  | workerRequested i hwho _ =>
    have hphase := (h.callbacks.requesting i).2 hwho
    have hlower := hgoTo hphase rfl .closing (by simp [WorkerPhase.rank])
    refine le_trans (Nat.add_le_add_right ?_ 1) hlower
    simp only [rank]
    exact Nat.add_le_add_left (Nat.zero_le _) _
  | mainRequested hwho _ =>
    have hlower := rank_main (s := s) .threw
    rw [h.callbacks.main.2 hwho] at hlower
    simp only [rank, hwho, MainPhase.rank] at hlower ⊢
    simp only [ThreadStep.isOwn] at hlower ⊢
    simp at hlower ⊢
    omega
  | otherRequested hwho _ => simp [rank, hwho, ThreadStep.isOwn]
  | spawn index heq hlt =>
    have hphase := (h.unspawned (.inl heq) hlt).1
    have hlower := hgoTo hphase rfl .entering (by simp [WorkerPhase.rank])
    have hsame := rank_main (s := s.put ⟨index, hlt⟩ ((s.workers ⟨index, hlt⟩).goTo .entering))
      (.spawning (index + 1))
    rw [show (s.put ⟨index, hlt⟩ ((s.workers ⟨index, hlt⟩).goTo .entering)).main = _ from heq]
      at hsame
    simp only [MainPhase.rank] at hsame
    simp only [ThreadStep.isOwn, if_true]
    omega
  | countDown index heq hlt =>
    have hsame := rank_put (s := s) ⟨index, hlt⟩ (s.workers ⟨index, hlt⟩).letGo
    rw [rank_letGo] at hsame
    refine (hmain (s := s.put ⟨index, hlt⟩ (s.workers ⟨index, hlt⟩).letGo) ?_).trans
      (Nat.add_right_cancel hsame).le
    rw [show (s.put ⟨index, hlt⟩ (s.workers ⟨index, hlt⟩).letGo).main = _ from heq]
    simp only [MainPhase.rank]
    omega
  | giveUp _ _ _ hnot => exact hfalse hnot
  | spawnThrows index heq hlt =>
    refine hmain ?_
    simp only [heq, MainPhase.rank]
    omega
  | await index heq hlt =>
    refine hmain ?_
    simp only [heq, MainPhase.rank]
    omega
  | giveUpAfterStop index heq hlt _ =>
    refine hmain ?_
    simp only [heq, MainPhase.rank]
    omega
  | ready heq _ =>
    refine hmain ?_
    simp only [heq, MainPhase.rank]
    omega
  | inspect heq =>
    refine hmain ?_
    rw [heq]
    split_ifs <;> simp only [MainPhase.rank] <;> omega
  | join index heq hlt _ =>
    refine hmain ?_
    simp only [heq, MainPhase.rank]
    omega
  | conclude index heq hlt =>
    refine hmain ?_
    simp only [heq, MainPhase.rank]
    omega
  | stopAgain _ => exact le_rfl
  | stop hnot => exact hfalse hnot
  | wake i =>
    have hsame := rank_put (s := s) i (s.workers i).signal
    rw [rank_signal] at hsame
    exact (Nat.add_right_cancel hsame).le
  | wait heq =>
    refine Nat.le_of_succ_le (hmain ?_)
    rcases heq with heq | heq <;> simp only [heq, MainPhase.rank] <;> omega

/-! ### Progress -/

/-- While no prompt step is possible, nobody is at work on the callbacks. -/
theorem requester_eq_none (hnone : ∀ a : ThreadStep n ε, a.isPrompt = true →
    step s a = none) : s.requester = none := by
  by_contra hsome
  have hrunning : ∀ i, (s.workers i).stopWake ≠ .running := fun i hi => by
    have := hnone (.runCallback i) rfl
    simp [step, hi] at this
  have habsent : ∀ i, (s.workers i).stopWake = .absent := fun i => by
    cases hi : (s.workers i).stopWake with
    | absent => rfl
    | running => exact absurd hi (hrunning i)
    | pending =>
      have := hnone (.takeCallback i) rfl
      simp [step, hi, hrunning, Option.isSome_iff_ne_none.2 hsome] at this
  have := hnone .requested rfl
  cases hwho : s.requester with
  | none => exact hsome hwho
  | some who => cases who <;> simp [step, habsent, hwho] at this

theorem isOver_of_stuck (h : Inv s) (hstop : s.stopRequested = true)
    (hnone : ∀ a : ThreadStep n ε, a.isPrompt = true → step s a = none) (i : Fin n) :
    IsOver (s.workers i) := by
  have hidle := requester_eq_none hnone
  have habsent := h.callbacks.called hstop hidle i
  have hmove (move : WorkerMove ε) (hprompt : move.isPrompt = true) :
      (s.workers i).move s.stopRequested move = none :=
    Option.map_eq_none_iff.1 (hnone (.move i move) hprompt)
  cases hphase : (s.workers i).phase with
  | unspawned => exact .inl hphase
  | finished => exact .inr hphase
  | entering =>
    have := hmove .register rfl
    simp [Worker.move, hphase, hstop] at this
  | registered =>
    have := hnone (.release i) rfl
    simp [step, hphase] at this
  | checking =>
    have := hmove .check rfl
    simp [Worker.move, hphase] at this
  | polling =>
    -- its eventfd is signalled: no callback is left that could still do so
    have hpos : 0 < (s.workers i).eventFd := (holds_of_phase h i hphase).2.1 habsent
    have := hmove .wakes rfl
    simp [Worker.move, hphase, hpos] at this
  | turning =>
    cases hreported : (s.workers i).reported with
    | true =>
      have := hmove .drain rfl
      simp [Worker.move, hphase, hreported] at this
    | false =>
      have := hmove .turnEnds rfl
      simp [Worker.move, hphase, hreported] at this
  | leaving =>
    have := hmove .deregister rfl
    simp [Worker.move, hphase, habsent] at this
  | unwinding failure =>
    have := hmove .deregister rfl
    simp [Worker.move, hphase, habsent] at this
  | caught failure =>
    have := hnone (.fail i) rfl
    simp [step, hphase] at this
  | failed =>
    have := hnone (.failStops i) rfl
    simp [step, hphase, hstop] at this
  | requesting =>
    have := (h.callbacks.requesting i).1 hphase
    rw [hidle] at this
    cases this
  | closing =>
    have := hnone (.close i) rfl
    simp [step, hphase] at this

/-- When the reactors are over, the main thread goes on until it returns to its caller. -/
theorem main_of_stuck (h : Inv s) (hidle : s.requester = none) (hover : ∀ i, IsOver (s.workers i))
    (hnone : ∀ a : ThreadStep n ε, a.isPrompt = true → step s a = none) :
    s.main = .serving ∨ s.main = .threw ∨ s.main = .joined s.failure := by
  have hholds := h.main
  unfold MainHolds at hholds
  cases hmain : s.main with
  | serving => exact .inl rfl
  | threw => exact .inr (.inl rfl)
  | joined failure =>
    rw [hmain] at hholds
    rw [hholds.1]
    exact .inr (.inr rfl)
  | spawning index =>
    by_cases hlt : index < n
    · have := hnone .spawn rfl
      simp [step, hmain, hlt] at this
    · have := hnone .await rfl
      simp [step, hmain, hlt] at this
  | countingDown index =>
    by_cases hlt : index < n
    · have := hnone .countDown rfl
      simp [step, hmain, hlt] at this
    · have := hnone .giveUp rfl
      cases hstop : s.stopRequested <;> simp [step, hmain, hlt, hstop] at this
  | requesting =>
    have := h.callbacks.main.1 hmain
    rw [hidle] at this
    cases this
  | awaiting =>
    -- every reactor was spawned, and is over: its guard has let go
    rw [hmain] at hholds
    have hlatch : s.latch = 0 := by
      rw [h.latch]
      refine Finset.sum_eq_zero fun i _ => ?_
      have hphase := (hover i).resolve_left (hholds i)
      obtain ⟨-, -, hcounted⟩ := holds_of_phase h i hphase
      exact if_pos hcounted
    have := hnone .ready rfl
    simp [step, hmain, hlatch] at this
  | inspecting =>
    have := hnone .inspect rfl
    simp [step, hmain] at this
  | joining index =>
    by_cases hlt : index < n
    · have := hnone .join rfl
      rcases hover ⟨index, hlt⟩ with hphase | hphase <;> simp [step, hmain, hlt, hphase] at this
    · have := hnone .conclude rfl
      simp [step, hmain, hlt] at this

/-- **A server stops.**  Take any run of the threads after a stop was requested.  They take at most
`17 * n + 7` steps of their own in it, whatever others do meanwhile.  And when they can take none
that is prompt, every reactor is over, no callback is left, and `start`, or `wait`, has returned. -/
theorem server_stops {steps later : List (ThreadStep n ε)} (h : Transitions.Run step {} steps s)
    (hstop : s.stopRequested = true) (hlater : Transitions.Run step s later s') :
    later.countP ThreadStep.isOwn ≤ 17 * n + 7 ∧
    ((∀ a : ThreadStep n ε, a.isPrompt = true → step s' a = none) →
      (∀ i, (s'.workers i).phase = .unspawned ∨ (s'.workers i).phase = .finished) ∧
      s'.requester = none ∧
      (s'.main = .serving ∨ s'.main = .threw ∨ s'.main = .joined s'.failure)) := by
  have hstopped : Transitions.Keeps step
      fun s : ServerThreads n ε => Inv s ∧ s.stopRequested = true := by
    rintro s₁ a s₂ ⟨hinv, hstop⟩ hstep
    refine ⟨inv_stepped hinv (stepped hstep), ?_⟩
    cases stepped hstep <;> first | exact hstop | rfl
  have hs := And.intro (run_inv h) hstop
  have hspends := hlater.spends hstopped hs rank ThreadStep.isOwn fun _ _ _ hs hstep =>
    rank_stepped hs.1 hs.2 (stepped hstep)
  obtain ⟨hinv, hstop'⟩ := hlater.invariant hstopped hs
  refine ⟨?_, fun hnone => ?_⟩
  · have hle := rank_le s
    omega
  · have hover := isOver_of_stuck hinv hstop' hnone
    exact ⟨hover, requester_eq_none hnone,
      main_of_stuck hinv (requester_eq_none hnone) hover hnone⟩

/-- Where everything is over nothing is left to do. -/
theorem eq_none_of_over
    (hover : ∀ i, (s.workers i).phase = .unspawned ∨ (s.workers i).phase = .finished)
    (habsent : ∀ i, (s.workers i).stopWake = .absent) (hidle : s.requester = none)
    (hmain : s.main = .serving ∨ s.main = .threw ∨ s.main = .joined s.failure)
    (a : ThreadStep n ε) (hprompt : a.isPrompt = true) : step s a = none := by
  cases a with
  | move i move =>
    refine Option.map_eq_none_iff.2 ?_
    rcases hover i with hphase | hphase <;> cases move <;> simp [Worker.move, hphase]
  | release i => rcases hover i with hphase | hphase <;> simp [step, hphase]
  | fail i => rcases hover i with hphase | hphase <;> simp [step, hphase]
  | failStops i => rcases hover i with hphase | hphase <;> simp [step, hphase]
  | close i => rcases hover i with hphase | hphase <;> simp [step, hphase]
  | takeCallback i => simp [step, hidle]
  | runCallback i => simp [step, habsent i]
  | requested => simp [step, hidle]
  | spawn => rcases hmain with hmain | hmain | hmain <;> simp [step, hmain]
  | await => rcases hmain with hmain | hmain | hmain <;> simp [step, hmain]
  | countDown => rcases hmain with hmain | hmain | hmain <;> simp [step, hmain]
  | giveUp => rcases hmain with hmain | hmain | hmain <;> simp [step, hmain]
  | ready => rcases hmain with hmain | hmain | hmain <;> simp [step, hmain]
  | inspect => rcases hmain with hmain | hmain | hmain <;> simp [step, hmain]
  | join => rcases hmain with hmain | hmain | hmain <;> simp [step, hmain]
  | conclude => rcases hmain with hmain | hmain | hmain <;> simp [step, hmain]
  | spawnThrows => cases hprompt
  | stop => cases hprompt
  | wake i => cases hprompt
  | wait => cases hprompt

theorem server_stops_handlerThrows :
    ∃ s s', Transitions.Run step {} handlerThrows s ∧ Transitions.Run step s othersStop s' ∧
      othersStop.countP ThreadStep.isOwn ≤ 17 * 2 + 7 ∧
      (∀ a, a.isPrompt = true → step s' a = none) ∧
      (∀ i, (s'.workers i).phase = .unspawned ∨ (s'.workers i).phase = .finished) ∧
      s'.requester = none ∧
      (s'.main = .serving ∨ s'.main = .threw ∨ s'.main = .joined s'.failure) := by
  have hends : ((handlerThrows.foldlM step {}).bind fun s =>
      (othersStop.foldlM step s).map fun s' => (s.stopRequested, s'.requester, s'.main, s'.failure,
        (s'.workers 0).phase, (s'.workers 0).stopWake, (s'.workers 1).phase,
        (s'.workers 1).stopWake)) =
      some (true, none, .joined (some 7), some 7, .finished, .absent, .finished, .absent) := rfl
  obtain ⟨s, hs, hlater⟩ := Option.bind_eq_some_iff.1 hends
  obtain ⟨s', hs', hparts⟩ := Option.map_eq_some_iff.1 hlater
  simp only [Prod.mk.injEq] at hparts
  obtain ⟨hstop, hidle, hmain, hfailure, hphase₀, hwake₀, hphase₁, hwake₁⟩ := hparts
  have hrun := Transitions.Run.of_foldlM hs
  have hrun' := Transitions.Run.of_foldlM hs'
  have hnone := eq_none_of_over (Fin.forall_fin_two.2 ⟨.inr hphase₀, .inr hphase₁⟩)
    (Fin.forall_fin_two.2 ⟨hwake₀, hwake₁⟩) hidle (.inr (.inr (hfailure ▸ hmain)))
  obtain ⟨hown, hover⟩ := server_stops hrun hstop hrun'
  exact ⟨s, s', hrun, hrun', hown, hnone, hover hnone⟩

end ServerThreads

end ErikslundHttp
