import ErikslundHttp.Sse.Delivery
import ErikslundHttp.Sse.Pump

/-!
# Heartbeats

A live stream is never silent for long.

* `Subscription.Fresh`: in every state, a subscriber with nothing queued was written to less than an
  interval before the pump last came by.
* `heartbeats`: in each of its ticks the pump comes by every live subscriber on its list, and what is
  dead when a tick begins is not on the list after it.
-/

namespace ErikslundHttp

/-! ### One subscriber -/

namespace Subscription

variable {ν : Type} {m : Subscription ν} {t : TimePoint}

/-- If it is open and heartbeats are on, something is queued for it, or it was written to less than
an interval before `t`. -/
def Fresh (t : TimePoint) (m : Subscription ν) : Prop :=
  m.subscriber.closed = false → 0 < m.subscriber.heartbeatInterval →
    m.subscriber.queue ≠ [] ∨ t - m.subscriber.lastWrite < m.subscriber.heartbeatInterval

/-- The calls of a subscriber, other than `maybe_heartbeat`. -/
inductive Call (clock : TimePoint) : (Subscription ν → Subscription ν) → Prop
  | enqueue (frame : SharedFrame) : Call clock (·.enqueue frame)
  | beginClose (published : ℕ) : Call clock (·.beginClose published)
  | pull : Call clock (·.pull clock)
  | onAttached (notifier : ν) : Call clock (·.onAttached notifier)
  | onDetached : Call clock (·.onDetached)

variable {clock : TimePoint} {f : Subscription ν → Subscription ν}

/-- A call opens no subscriber. -/
theorem Call.open (h : Call clock f) (hopen : (f m).subscriber.closed = false) :
    m.subscriber.closed = false := by
  cases h with
  | enqueue frame =>
    by_contra hclosed
    have hsame := SseSubscriber.enqueue_of_closed frame (Bool.eq_true_of_not_eq_false hclosed)
    change (m.subscriber.enqueue frame).1.closed = false at hopen
    rw [hsame] at hopen
    exact hclosed hopen
  | beginClose => cases hopen
  | pull =>
    rw [← (m.subscriber.pull_spec clock).2.2.1]
    exact hopen
  | onAttached => exact hopen
  | onDetached => cases hopen

theorem Call.fresh (h : Call clock f) (ht : t ≤ clock) (hfresh : m.Fresh t) : (f m).Fresh t := by
  intro hopen' hinterval
  have hopen := h.open hopen'
  cases h with
  | enqueue frame =>
    left
    change (m.subscriber.enqueue frame).1.closed = false at hopen'
    show (m.subscriber.enqueue frame).1.queue ≠ []
    obtain ⟨hclosed, -⟩ | ⟨-, hqueue, -⟩ := (SseSubscriber.enqueue_of_open frame hopen).2
    · cases hopen'.symm.trans hclosed
    · rw [hqueue]
      exact List.append_ne_nil_of_right_ne_nil _ (List.cons_ne_nil _ _)
  | beginClose => cases hopen'
  | pull =>
    change 0 < (m.subscriber.pull clock).2.2.heartbeatInterval at hinterval
    show (m.subscriber.pull clock).2.2.queue ≠ [] ∨
      t - (m.subscriber.pull clock).2.2.lastWrite < (m.subscriber.pull clock).2.2.heartbeatInterval
    rw [SseSubscriber.pull] at hinterval ⊢
    by_cases hqueue : m.subscriber.queue.isEmpty = true
    · rw [if_pos hqueue] at hinterval ⊢
      exact hfresh hopen hinterval
    · -- it has just been written to
      rw [if_neg hqueue] at hinterval ⊢
      right
      show t - clock < _
      exact lt_of_le_of_lt (Int.sub_nonpos_of_le ht) hinterval
  | onAttached => exact hfresh hopen hinterval
  | onDetached => cases hopen'

theorem open_maybeHeartbeat (h : (m.maybeHeartbeat t).subscriber.closed = false) :
    m.subscriber.closed = false := by
  by_cases hdue : m.subscriber.heartbeatDue t = true
  · exact (SseSubscriber.maybeHeartbeat_of_due hdue).1
  · rw [← show (m.maybeHeartbeat t).subscriber = m.subscriber from
      congrArg Prod.fst (SseSubscriber.maybeHeartbeat_of_not_due hdue)]
    exact h

/-- After the chance of a heartbeat. -/
theorem fresh_maybeHeartbeat (t : TimePoint) (m : Subscription ν)
    (hdetached : m.subscriber.detached = true → m.subscriber.closed = true) :
    (m.maybeHeartbeat t).Fresh t := by
  intro hopen' hinterval
  have hopen := open_maybeHeartbeat hopen'
  change (m.subscriber.maybeHeartbeat t).1.closed = false at hopen'
  change 0 < (m.subscriber.maybeHeartbeat t).1.heartbeatInterval at hinterval
  show (m.subscriber.maybeHeartbeat t).1.queue ≠ [] ∨
    t - (m.subscriber.maybeHeartbeat t).1.lastWrite <
      (m.subscriber.maybeHeartbeat t).1.heartbeatInterval
  by_cases hdue : m.subscriber.heartbeatDue t = true
  · left
    obtain ⟨hclosed, -⟩ | ⟨-, hqueue⟩ := (SseSubscriber.maybeHeartbeat_of_due hdue).2.2.2
    · cases hopen'.symm.trans hclosed
    · rw [hqueue]
      exact List.cons_ne_nil _ _
  · rw [SseSubscriber.maybeHeartbeat_of_not_due hdue] at hinterval ⊢
    have hattached : m.subscriber.detached = false := by
      refine Bool.eq_false_of_not_eq_true fun hyes => ?_
      cases hopen.symm.trans (hdetached hyes)
    -- no heartbeat was due, for want of time or for something in the queue
    unfold SseSubscriber.heartbeatDue at hdue
    rw [hopen, hattached, decide_eq_false (not_le.2 hinterval)] at hdue
    by_cases hidle : t - m.subscriber.lastWrite < m.subscriber.heartbeatInterval
    · exact .inr hidle
    · left
      rw [decide_eq_false hidle] at hdue
      rintro hnil
      rw [hnil] at hdue
      exact hdue rfl

end Subscription

/-! ### The subscribers of a channel -/

namespace SseChannel

variable {ν : Type} {options : SseOptions} {channel channel' : SseChannel ν} {clock : TimePoint}

open Subscription

/-- The subscriber of this number is there, and open. -/
def Opened (channel : SseChannel ν) (number : ℕ) : Prop :=
  ∃ m, channel.subscriptions[number]? = some m ∧ m.subscriber.closed = false

theorem Opened.lt {number : ℕ} (h : channel.Opened number) :
    number < channel.subscriptions.length := by
  obtain ⟨m, hm, -⟩ := h
  exact (List.getElem?_eq_some_iff.1 hm).1

theorem Opened.isAlive {number : ℕ} (h : channel.Opened number) (hinv : channel.Inv options) :
    channel.isAlive number = true := by
  obtain ⟨m, hm, hopen⟩ := h
  exact alive_of_opened hinv hm hopen

theorem opened_of_isAlive {number : ℕ} (h : channel.isAlive number = true) :
    channel.Opened number := by
  unfold SseChannel.isAlive at h
  cases hm : channel.subscriptions[number]? with
  | none =>
    rw [hm] at h
    cases h
  | some m =>
    rw [hm, Option.any_some, SseSubscriber.alive, Bool.and_eq_true, Bool.not_eq_true'] at h
    exact ⟨m, hm, h.1⟩

/-- The vector of the channel holds every open subscriber. -/
theorem Opened.holds {number : ℕ} (h : channel.Opened number) (hinv : channel.Inv options) :
    channel.holds number = true := by
  obtain ⟨m, hm, hopen⟩ := h
  have hroster := hinv.opened number m hm hopen
  rw [roster] at hroster
  rw [SseChannel.holds, Bool.or_eq_true]
  -- a section under the mutex may have the list in two parts
  cases hentered : channel.entered with
  | none =>
    rw [hentered] at hroster
    exact .inl (List.contains_iff_mem.2 hroster)
  | some entered =>
    rw [hentered] at hroster
    cases entered with
    | pruning => exact .inr (List.contains_iff_mem.2 hroster)
    | delivering => exact .inl (List.contains_iff_mem.2 hroster)
    | closing => exact .inr (List.contains_iff_mem.2 hroster)

/-- What became of the subscribers: each of them as a call leaves it. -/
structure Evolves (channel channel' : SseChannel ν)
    (Kept : Subscription ν → Subscription ν → Prop) : Prop where
  length_le : channel.subscriptions.length ≤ channel'.subscriptions.length
  length_le' : channel'.subscriptions.length ≤ channel.subscriptions.length + 1
  old : ∀ number < channel.subscriptions.length, ∀ m',
    channel'.subscriptions[number]? = some m' →
      ∃ m, channel.subscriptions[number]? = some m ∧ Kept m m'

theorem Evolves.of_eq {Kept : Subscription ν → Subscription ν → Prop} (hkept : ∀ m, Kept m m)
    (h : channel'.subscriptions = channel.subscriptions) : Evolves channel channel' Kept := by
  refine ⟨h ▸ le_rfl, h ▸ Nat.le_succ _, fun number _ m' hm' => ?_⟩
  rw [h] at hm'
  exact ⟨m', hm', hkept m'⟩

theorem Evolves.modify {Kept : Subscription ν → Subscription ν → Prop} (hkept : ∀ m, Kept m m)
    {number : ℕ} {f : Subscription ν → Subscription ν} (hf : ∀ m, Kept m (f m))
    (h : channel'.subscriptions = (channel.modify number f).subscriptions) :
    Evolves channel channel' Kept := by
  have hlength : channel'.subscriptions.length = channel.subscriptions.length := by
    rw [h]
    exact List.length_modify ..
  refine ⟨hlength.ge, hlength.le.trans (Nat.le_succ _), ?_⟩
  · intro other _ m' hm'
    rw [h, getElem?_modify, Option.map_eq_some_iff] at hm'
    obtain ⟨m, hm, rfl⟩ := hm'
    refine ⟨m, hm, ?_⟩
    split_ifs
    · exact hf m
    · exact hkept m

/-- Open it was before, and fresh it is as it was. -/
def Kept (clock : TimePoint) (m m' : Subscription ν) : Prop :=
  (m'.subscriber.closed = false → m.subscriber.closed = false) ∧
    ∀ t ≤ clock, m.Fresh t → m'.Fresh t

theorem Kept.refl (clock : TimePoint) (m : Subscription ν) : Kept clock m m := ⟨id, fun _ _ => id⟩

theorem Kept.of_call {f : Subscription ν → Subscription ν} (h : Call clock f)
    (m : Subscription ν) : Kept clock m (f m) :=
  ⟨h.open, fun _ ht hfresh => h.fresh ht hfresh⟩

theorem step_evolves {next : ChannelStep ν} (hreads : next.readsClock clock = true)
    (h : channel.step options next = some channel') : Evolves channel channel' (Kept clock) := by
  have henter {c : SseChannel ν} {entered : Section ν} (h : c.enter entered = some channel') :
      channel'.subscriptions = c.subscriptions := by
    unfold SseChannel.enter at h
    split at h
    · cases h
      rfl
    · cases h
  cases next with
  | subscribe method now =>
    simp only [step] at h
    split_ifs at h
    · cases h
      exact .of_eq (.refl clock) rfl
    · cases h
      exact .of_eq (.refl clock) rfl
    · exact .of_eq (.refl clock) (henter h)
  | publish event data =>
    simp only [step] at h
    split_ifs at h
    · cases h
      exact .of_eq (.refl clock) rfl
    · exact .of_eq (.refl clock) (henter h)
  | closeAll => exact .of_eq (.refl clock) (henter h)
  | shutdown => exact .of_eq (.refl clock) (henter (c := { channel with accepting := false }) h)
  | proceed =>
    simp only [step, Option.map_eq_some_iff] at h
    obtain ⟨entered, -, rfl⟩ := h
    unfold SseChannel.proceed
    split
    · exact .of_eq (.refl clock) rfl
    · next kept purpose =>
      unfold afterPruning
      cases purpose with
      | subscribe subscriber =>
        dsimp only
        split_ifs
        · exact .of_eq (.refl clock) rfl
        · -- the new subscriber comes after the others
          have hlength : (channel.subscriptions ++
              [({ subscriber := subscriber, since := channel.published.length } :
                Subscription ν)]).length = channel.subscriptions.length + 1 := List.length_append
          refine ⟨hlength ▸ Nat.le_succ _, hlength.le, fun number hlt m' hm' => ?_⟩
          refine ⟨m', ?_, .refl clock m'⟩
          · change (channel.subscriptions ++ [_])[number]? = some m' at hm'
            rwa [List.getElem?_append_left hlt] at hm'
      | publish event data => exact .of_eq (.refl clock) rfl
    · next frame number rest =>
      exact .modify (.refl clock) (fun m => .of_call (.enqueue frame) m) rfl
    · exact .of_eq (.refl clock) rfl
    · next number rest =>
      exact .modify (.refl clock) (fun m => .of_call (.beginClose channel.published.length) m) rfl
    · exact .of_eq (.refl clock) rfl
  | pull number now =>
    cases h
    cases of_decide_eq_true hreads
    exact .modify (.refl clock) (fun m => .of_call .pull m) rfl
  | heartbeat number now => cases hreads
  | attach number notifier =>
    cases h
    exact .modify (.refl clock) (fun m => .of_call (.onAttached notifier) m) rfl
  | detach number =>
    cases h
    exact .modify (.refl clock) (fun m => .of_call .onDetached m) rfl

end SseChannel

/-! ### The pump -/

/-- Who is on the list; a tick may be on its way through it. -/
def HeartbeatPump.list {n : ℕ} (p : HeartbeatPump n) : List (Watched n) :=
  match p.tick with
  | none => p.subscribers
  | some tick => tick.kept ++ tick.locked.toList ++ tick.rest

namespace SseProcess

open Subscription SseChannel

variable {n : ℕ} {ν : Type} {options : Fin n → SseOptions} {s s' : SseProcess n ν}

/-- Who is on the list of the pump, or about to be put there. -/
def onList (s : SseProcess n ν) : List (Watched n) := s.adding ++ s.pump.list

/-- The subscriber is open. -/
def Opened (s : SseProcess n ν) (w : Watched n) : Prop := (s.channels w.1).Opened w.2

/-- There is such a subscriber. -/
def Known (s : SseProcess n ν) (w : Watched n) : Prop :=
  w.2 < (s.channels w.1).subscriptions.length

/-- The invariant of the process. -/
structure Inv (options : Fin n → SseOptions) (s : SseProcess n ν) : Prop where
  channels : ∀ c, (s.channels c).Inv (options c)
  known : ∀ w ∈ s.onList, s.Known w
  nodup : s.onList.Nodup
  /-- Every open subscriber is on the list, or about to be. -/
  watched : ∀ w, s.Opened w → w ∈ s.onList
  expired : ∀ w ∈ s.expired, s.Known w ∧ ¬ s.Opened w
  gone : ∀ w, s.pump.gone w = true → s.Known w ∧ ¬ s.Opened w ∧ w ∉ s.adding
  /-- Who was visited got a heartbeat, or had no need of one. -/
  visited : ∀ w t, s.pump.visited w = some t → s.Known w ∧ t ≤ s.clock ∧ w ∉ s.adding ∧
    ∀ m, (s.channels w.1).subscriptions[w.2]? = some m → m.Fresh t
  tick : ∀ tick, s.pump.tick = some tick → tick.now ≤ s.clock ∧ s.pump.lastTick = some tick.now ∧
    (∀ w ∈ tick.kept, s.pump.gone w = false ∧ s.pump.visited w = some tick.now) ∧
    ∀ w, tick.locked = some w → s.pump.gone w = false
  idle : s.pump.tick = none → ∀ w ∈ s.pump.subscribers, s.pump.gone w = false ∧
    (s.pump.visited w = none ∨ s.pump.visited w = s.pump.lastTick)

/-! One channel changes. -/

section

variable {c : Fin n} {channel : SseChannel ν} {K : Subscription ν → Subscription ν → Prop}
  {w : Watched n}

theorem Known.evolve (h : s.Known w) (hevolves : Evolves (s.channels c) channel K)
    (hchannels : s'.channels = Function.update s.channels c channel) : s'.Known w := by
  unfold Known at h ⊢
  rw [hchannels]
  by_cases hc : w.1 = c
  · subst hc
    rw [Function.update_self]
    exact h.trans_le hevolves.length_le
  · rwa [Function.update_of_ne hc]

/-- A subscriber that is known was there before. -/
theorem exists_of_evolves (h : s.Known w) (hevolves : Evolves (s.channels c) channel K)
    (hrefl : ∀ m, K m m) (hchannels : s'.channels = Function.update s.channels c channel)
    {m' : Subscription ν} (hm' : (s'.channels w.1).subscriptions[w.2]? = some m') :
    ∃ m, (s.channels w.1).subscriptions[w.2]? = some m ∧ K m m' := by
  rw [hchannels] at hm'
  by_cases hc : w.1 = c
  · subst hc
    rw [Function.update_self] at hm'
    exact hevolves.old w.2 h m' hm'
  · rw [Function.update_of_ne hc] at hm'
    exact ⟨m', hm', hrefl m'⟩

/-- No known subscriber is opened. -/
theorem opened_of_evolves (h : s.Known w) (hevolves : Evolves (s.channels c) channel K)
    (hrefl : ∀ m, K m m)
    (hopen : ∀ m m', K m m' → m'.subscriber.closed = false → m.subscriber.closed = false)
    (hchannels : s'.channels = Function.update s.channels c channel) (hopened : s'.Opened w) :
    s.Opened w := by
  obtain ⟨m', hm', hopen'⟩ := hopened
  obtain ⟨m, hm, hkept⟩ := exists_of_evolves h hevolves hrefl hchannels hm'
  exact ⟨m, hm, hopen m m' hkept hopen'⟩

theorem channels_evolve (h : ∀ d, (s.channels d).Inv (options d)) (hinv : channel.Inv (options c))
    (hchannels : s'.channels = Function.update s.channels c channel) (d : Fin n) :
    (s'.channels d).Inv (options d) := by
  rw [hchannels]
  by_cases hd : d = c
  · subst hd
    rwa [Function.update_self]
  · rw [Function.update_of_ne hd]
    exact h d

end

/-- A call of a channel, and what it leaves of the list. -/
theorem Inv.call (h : s.Inv options) {c : Fin n} {channel : SseChannel ν}
    (hinv : channel.Inv (options c))
    (hevolves : Evolves (s.channels c) channel (Kept s.clock)) :
    Inv options { s with
      channels := Function.update s.channels c channel
      adding := s.adding ++
        if (s.channels c).subscriptions.length < channel.subscriptions.length then
          [(c, (s.channels c).subscriptions.length)]
        else [] } := by
  generalize hnew : (if (s.channels c).subscriptions.length < channel.subscriptions.length then
    [(c, (s.channels c).subscriptions.length)] else []) = new
  have hmem : ∀ w ∈ new, ¬ s.Known w ∧ w.1 = c ∧ w.2 < channel.subscriptions.length := by
    intro w hw
    rw [← hnew] at hw
    split_ifs at hw with hlt
    · cases List.mem_singleton.1 hw
      exact ⟨lt_irrefl _, rfl, hlt⟩
    · cases hw
  have hopened {w : Watched n} (hk : s.Known w)
      (hopen : Opened { s with channels := Function.update s.channels c channel } w) :
      s.Opened w :=
    opened_of_evolves hk hevolves (Kept.refl s.clock) (fun _ _ hkept => hkept.1) rfl hopen
  have hknown {w : Watched n} (hk : s.Known w) :
      Known { s with channels := Function.update s.channels c channel } w :=
    hk.evolve hevolves rfl
  have hperm : (s.adding ++ new ++ s.pump.list).Perm (new ++ s.onList) := by
    rw [onList, ← List.append_assoc]
    exact List.perm_append_comm.append_right _
  refine ⟨channels_evolve h.channels hinv rfl, fun w hw => ?_, ?_, fun w hw => ?_, fun w hw => ?_,
    fun w hw => ?_, fun w t hw => ?_, h.tick, h.idle⟩
  · rcases List.mem_append.1 (hperm.mem_iff.1 hw) with hw | hw
    · obtain ⟨-, hc, hlt⟩ := hmem w hw
      show w.2 < (Function.update s.channels c channel w.1).subscriptions.length
      rw [hc, Function.update_self]
      exact hlt
    · exact hknown (h.known w hw)
  · refine hperm.nodup_iff.2 (List.nodup_append.2 ⟨?_, h.nodup, ?_⟩)
    · rw [← hnew]
      split_ifs
      · exact List.nodup_singleton _
      · exact List.nodup_nil
    · rintro w hw w' hw' rfl
      exact (hmem w hw).1 (h.known w hw')
  · refine hperm.mem_iff.2 (List.mem_append.2 ?_)
    by_cases hk : s.Known w
    · exact .inr (h.watched w (hopened hk hw))
    · -- it is the new one
      left
      have hlt := SseChannel.Opened.lt hw
      obtain ⟨d, number⟩ := w
      unfold Known at hk
      dsimp only at hk hlt
      by_cases hd : d = c
      · subst hd
        rw [Function.update_self] at hlt
        have hle := hevolves.length_le'
        rw [← hnew, if_pos (by omega), List.mem_singleton]
        exact Prod.ext rfl (by dsimp only; omega)
      · rw [Function.update_of_ne hd] at hlt
        exact absurd hlt hk
  · obtain ⟨hk, hclosed⟩ := h.expired w hw
    exact ⟨hknown hk, fun hopen => hclosed (hopened hk hopen)⟩
  · obtain ⟨hk, hclosed, hadding⟩ := h.gone w hw
    refine ⟨hknown hk, fun hopen => hclosed (hopened hk hopen), fun hin => ?_⟩
    exact (List.mem_append.1 hin).elim hadding fun hin => (hmem w hin).1 hk
  · obtain ⟨hk, ht, hadding, hfresh⟩ := h.visited w t hw
    refine ⟨hknown hk, ht, fun hin => ?_, fun m' hm' => ?_⟩
    · exact (List.mem_append.1 hin).elim hadding fun hin => (hmem w hin).1 hk
    · have hchanged : (SseProcess.channels { s with
          channels := Function.update s.channels c channel }) =
            Function.update s.channels c channel := rfl
      obtain ⟨m, hm, hkept⟩ :=
        exists_of_evolves hk hevolves (Kept.refl s.clock) hchanged hm'
      exact hkept.2 t ht (hfresh m hm)

/-- Only the pump, or who is about to be put on its list, changes. -/
theorem Inv.of_perm (h : s.Inv options) (hchannels : s'.channels = s.channels)
    (hperm : s'.onList.Perm s.onList) (hexpired : s'.expired = s.expired)
    (hgone : ∀ w, s'.pump.gone w = true → s'.Known w ∧ ¬ s'.Opened w ∧ w ∉ s'.adding)
    (hvisited : s'.pump.visited = s.pump.visited) (hclock : s'.clock = s.clock)
    (hadding : s'.adding ⊆ s.adding)
    (htick : ∀ tick, s'.pump.tick = some tick → tick.now ≤ s'.clock ∧
      s'.pump.lastTick = some tick.now ∧
      (∀ w ∈ tick.kept, s'.pump.gone w = false ∧ s'.pump.visited w = some tick.now) ∧
      ∀ w, tick.locked = some w → s'.pump.gone w = false)
    (hidle : s'.pump.tick = none → ∀ w ∈ s'.pump.subscribers, s'.pump.gone w = false ∧
      (s'.pump.visited w = none ∨ s'.pump.visited w = s'.pump.lastTick)) : s'.Inv options := by
  refine ⟨hchannels ▸ h.channels, fun w hw => ?_, hperm.nodup_iff.2 h.nodup, fun w hw => ?_,
    fun w hw => ?_, hgone, fun w t hw => ?_, htick, hidle⟩
  · rw [Known, hchannels]
    exact h.known w (hperm.mem_iff.1 hw)
  · rw [Opened, hchannels] at hw
    exact hperm.mem_iff.2 (h.watched w hw)
  · rw [Known, Opened, hchannels]
    exact h.expired w (hexpired ▸ hw)
  · rw [hvisited] at hw
    rw [Known, hchannels, hclock]
    obtain ⟨hk, ht, hout, hfresh⟩ := h.visited w t hw
    exact ⟨hk, ht, fun hin => hout (hadding hin), hfresh⟩

theorem onList_of_tick {tick : Tick n} (h : s.pump.tick = some tick) :
    s.onList = s.adding ++ (tick.kept ++ tick.locked.toList ++ tick.rest) := by
  rw [onList, HeartbeatPump.list, h]

theorem onList_of_idle (h : s.pump.tick = none) : s.onList = s.adding ++ s.pump.subscribers := by
  rw [onList, HeartbeatPump.list, h]

/-- The pump gives the subscriber that it has locked the chance of a heartbeat. -/
theorem Inv.beat (h : s.Inv options) {now : TimePoint} {kept rest : List (Watched n)}
    {w : Watched n} (htick : s.pump.tick = some ⟨now, kept, some w, rest⟩) :
    Inv options { s with
      channels := Function.update s.channels w.1
        ((s.channels w.1).modify w.2 (·.maybeHeartbeat now))
      pump := { s.pump with
        tick := some ⟨now, kept ++ [w], none, rest⟩
        visited := Function.update s.pump.visited w (some now) } } := by
  obtain ⟨hnow, hlast, hkept, hlocked⟩ := h.tick _ htick
  have honList := onList_of_tick htick
  have hw : w ∈ s.onList := by
    rw [honList]
    simp
  have hknown := h.known w hw
  have hevolves : Evolves (s.channels w.1) ((s.channels w.1).modify w.2 (·.maybeHeartbeat now))
      fun m m' => m'.subscriber.closed = false → m.subscriber.closed = false :=
    .modify (fun _ => id) (fun _ => open_maybeHeartbeat) rfl
  have hstep : (s.channels w.1).step (options w.1) (.heartbeat w.2 now) =
      some ((s.channels w.1).modify w.2 (·.maybeHeartbeat now)) := rfl
  generalize hs' : ({ s with
      channels := Function.update s.channels w.1
        ((s.channels w.1).modify w.2 (·.maybeHeartbeat now))
      pump := { s.pump with
        tick := some ⟨now, kept ++ [w], none, rest⟩
        visited := Function.update s.pump.visited w (some now) } } : SseProcess n ν) = s'
  have hchannels : s'.channels = Function.update s.channels w.1
    ((s.channels w.1).modify w.2 (·.maybeHeartbeat now)) := hs' ▸ rfl
  have htick' : s'.pump.tick = some ⟨now, kept ++ [w], none, rest⟩ := hs' ▸ rfl
  have hvisited : s'.pump.visited = Function.update s.pump.visited w (some now) := hs' ▸ rfl
  have hadding : s'.adding = s.adding := hs' ▸ rfl
  have hclock : s'.clock = s.clock := hs' ▸ rfl
  have hgone : s'.pump.gone = s.pump.gone := hs' ▸ rfl
  have hopened {v : Watched n} (hk : s.Known v) (hopen : s'.Opened v) : s.Opened v :=
    opened_of_evolves hk hevolves (fun _ => id) (fun _ _ => id) hchannels hopen
  have hlist : s'.onList = s.onList := by
    rw [honList, onList_of_tick htick', hadding]
    simp
  refine ⟨channels_evolve h.channels (SseChannel.step_inv (h.channels w.1) hstep) hchannels,
    fun v hv => ?_, hlist ▸ h.nodup, fun v hv => ?_, fun v hv => ?_, fun v hv => ?_,
    fun v t hv => ?_, fun tick htick'' => ?_, fun hnone => ?_⟩
  · exact (h.known v (hlist ▸ hv)).evolve hevolves hchannels
  · rw [hlist]
    by_cases hk : s.Known v
    · exact h.watched v (hopened hk hv)
    · -- no subscriber was added
      refine absurd ?_ hk
      have hlt := SseChannel.Opened.lt hv
      rw [hchannels] at hlt
      by_cases hc : v.1 = w.1
      · rw [hc, Function.update_self] at hlt
        have hlength := List.length_modify (l := (s.channels w.1).subscriptions) (i := w.2)
          (f := fun m => m.maybeHeartbeat now)
        rw [Known, hc, ← hlength]
        exact hlt
      · rwa [Function.update_of_ne hc] at hlt
  · obtain ⟨hk, hclosed⟩ := h.expired v (by rw [← hs'] at hv; exact hv)
    exact ⟨hk.evolve hevolves hchannels, fun hopen => hclosed (hopened hk hopen)⟩
  · obtain ⟨hk, hclosed, hout⟩ := h.gone v (hgone ▸ hv)
    exact ⟨hk.evolve hevolves hchannels, fun hopen => hclosed (hopened hk hopen), hadding ▸ hout⟩
  · rw [hvisited] at hv
    by_cases hvw : v = w
    · subst hvw
      rw [Function.update_self] at hv
      cases hv
      refine ⟨hknown.evolve hevolves hchannels, hclock ▸ hnow, ?_, fun m' hm' => ?_⟩
      · have hnodup := h.nodup
        rw [honList] at hnodup
        rw [hadding]
        exact fun hin => (List.nodup_append.1 hnodup).2.2 v hin v (by simp) rfl
      · rw [hchannels, Function.update_self, getElem?_modify, Option.map_eq_some_iff] at hm'
        obtain ⟨m, hm, rfl⟩ := hm'
        rw [if_pos rfl]
        exact fresh_maybeHeartbeat now m ((h.channels v.1).sound v.2 m hm).detached
    · rw [Function.update_of_ne hvw] at hv
      obtain ⟨hk, ht, hout, hfresh⟩ := h.visited v t hv
      refine ⟨hk.evolve hevolves hchannels, hclock ▸ ht, hadding ▸ hout, fun m' hm' => hfresh m' ?_⟩
      rw [hchannels] at hm'
      by_cases hc : v.1 = w.1
      · rw [hc, Function.update_self, getElem?_modify, Option.map_eq_some_iff] at hm'
        obtain ⟨m, hm, rfl⟩ := hm'
        rw [if_neg fun heq => hvw (Prod.ext hc heq.symm), hc]
        exact hm
      · rwa [Function.update_of_ne hc] at hm'
  · cases htick'.symm.trans htick''
    refine ⟨hclock ▸ hnow, ?_, fun v hv => ?_, fun v hv => ?_⟩
    · rw [← hs']
      exact hlast
    · rw [hgone, hvisited]
      by_cases hvw : v = w
      · subst hvw
        exact ⟨hlocked v rfl, Function.update_self ..⟩
      · rw [Function.update_of_ne hvw]
        refine hkept v ((List.mem_append.1 hv).resolve_right fun hin => hvw ?_)
        exact List.mem_singleton.1 hin
    · cases hv
  · cases htick'.symm.trans hnone

theorem step_inv (h : s.Inv options) {next : ProcessStep n ν}
    (hstep : s.step options next = some s') : s'.Inv options := by
  cases next with
  | elapse time =>
    cases hstep
    refine ⟨h.channels, h.known, h.nodup, h.watched, h.expired, h.gone, fun w t hw => ?_,
      fun tick htick => ?_, h.idle⟩
    · obtain ⟨hk, ht, hout⟩ := h.visited w t hw
      exact ⟨hk, ht.trans (Int.le_add_of_nonneg_right (Int.natCast_nonneg time)), hout⟩
    · obtain ⟨hnow, hrest⟩ := h.tick tick htick
      exact ⟨hnow.trans (Int.le_add_of_nonneg_right (Int.natCast_nonneg time)), hrest⟩
  | call c next =>
    simp only [step] at hstep
    split_ifs at hstep with hreads
    obtain ⟨channel, hcall, rfl⟩ := Option.map_eq_some_iff.1 hstep
    exact h.call (SseChannel.step_inv (h.channels c) hcall) (step_evolves hreads hcall)
  | expire w =>
    simp only [step] at hstep
    split_ifs at hstep with hheld hknown
    cases hstep
    refine ⟨h.channels, h.known, h.nodup, h.watched, fun v hv => ?_, h.gone, h.visited, h.tick,
      h.idle⟩
    rcases List.mem_cons.1 hv with rfl | hv
    · refine ⟨hknown, fun hopen => hheld ?_⟩
      rw [SseChannel.Opened.holds hopen (h.channels v.1)]
      rfl
    · exact h.expired v hv
  | add index =>
    simp only [step] at hstep
    split at hstep
    · next w hget hidle =>
      cases hstep
      obtain ⟨hlt, heq⟩ := List.getElem?_eq_some_iff.1 hget
      have hw : w ∈ s.adding := List.mem_of_getElem? hget
      have hperm : s.adding.Perm (w :: s.adding.eraseIdx index) := by
        rw [← heq]
        exact (List.getElem_cons_eraseIdx_perm hlt).symm
      refine h.of_perm rfl ?_ rfl ?_ rfl rfl (List.eraseIdx_subset ..) ?_ fun _ v hv => ?_
      · rw [onList_of_idle hidle]
        show (s.adding.eraseIdx index ++ HeartbeatPump.list { s.pump with
          subscribers := s.pump.subscribers ++ [w] }).Perm _
        rw [HeartbeatPump.list]
        dsimp only
        rw [hidle]
        dsimp only
        refine List.Perm.trans ?_ (hperm.symm.append_right _)
        rw [← List.append_assoc]
        exact List.perm_append_comm
      · intro v hv
        obtain ⟨hk, hclosed, hout⟩ := h.gone v hv
        exact ⟨hk, hclosed, fun hin => hout (List.mem_of_mem_eraseIdx hin)⟩
      · intro tick htick
        cases hidle.symm.trans htick
      · rcases List.mem_append.1 hv with hv | hv
        · exact h.idle hidle v hv
        · -- neither was it gone before it was put on the list, nor visited
          cases List.mem_singleton.1 hv
          refine ⟨Bool.eq_false_of_not_eq_true fun hyes => (h.gone w hyes).2.2 hw, .inl ?_⟩
          refine Option.eq_none_iff_forall_ne_some.2 fun t ht => ?_
          exact (h.visited w t ht).2.2.1 hw
    · cases hstep
  | tick =>
    simp only [step] at hstep
    split at hstep
    · next first rest hidle hlist =>
      cases hstep
      have honList := onList_of_idle hidle
      refine h.of_perm rfl ?_ rfl (fun w hw => ?_) rfl rfl (List.Subset.refl _) ?_ fun hnone => ?_
      · rw [honList]
        exact List.Perm.refl _
      · obtain ⟨hin, hdead⟩ := Bool.and_eq_true_iff.1 hw
        have hmem := List.contains_iff_mem.1 hin
        have hnodup := h.nodup
        rw [honList] at hnodup
        refine ⟨h.known w (honList ▸ List.mem_append_right _ hmem), fun hopen => ?_,
          fun hadding => ?_⟩
        · have halive := SseChannel.Opened.isAlive hopen (h.channels w.1)
          rw [isAlive, halive] at hdead
          cases hdead
        · exact (List.nodup_append.1 hnodup).2.2 w hadding w hmem rfl
      · intro tick htick
        cases htick
        exact ⟨le_rfl, rfl, fun _ hw => absurd hw List.not_mem_nil, fun _ hw => by cases hw⟩
      · cases hnone
    · cases hstep
  | lock =>
    simp only [step] at hstep
    split at hstep
    · next now kept w rest htick =>
      obtain ⟨hnow, hlast, hkept, -⟩ := h.tick _ htick
      have honList := onList_of_tick htick
      split_ifs at hstep with hdead
      · cases hstep
        have hclosed : ¬ s.Opened w := by
          rcases Bool.or_eq_true_iff.1 hdead with hexpired | hnot
          · exact (h.expired w (List.contains_iff_mem.1 hexpired)).2
          · intro hopen
            rw [isAlive, SseChannel.Opened.isAlive hopen (h.channels w.1)] at hnot
            cases hnot
        have hsub : (onList (s.putTick ⟨now, kept, none, rest⟩)).Sublist s.onList := by
          rw [honList]
          exact (((List.sublist_cons_self w rest).append_left _).append_left _)
        refine ⟨h.channels, fun v hv => h.known v (hsub.subset hv), h.nodup.sublist hsub,
          fun v hv => ?_, h.expired, h.gone, h.visited, fun tick htick' => ?_, fun hnone => ?_⟩
        · have hin := h.watched v hv
          have hne : v ≠ w := fun heq => hclosed (heq ▸ hv)
          rw [honList] at hin
          simp only [List.mem_append, List.mem_cons, hne, false_or] at hin
          simp only [onList_of_tick (s := s.putTick ⟨now, kept, none, rest⟩) rfl, List.mem_append]
          exact hin
        · cases htick'
          exact ⟨hnow, hlast, hkept, fun _ hv => by cases hv⟩
        · cases hnone
      · cases hstep
        refine h.of_perm rfl ?_ rfl h.gone rfl rfl (List.Subset.refl _) (fun tick htick' => ?_)
          fun hnone => ?_
        · rw [honList]
          show (s.adding ++ (kept ++ [w] ++ rest)).Perm (s.adding ++ (kept ++ [] ++ w :: rest))
          rw [List.append_nil, List.append_assoc]
          exact List.Perm.refl _
        · cases htick'
          refine ⟨hnow, hlast, hkept, fun v hv => ?_⟩
          cases hv
          refine Bool.eq_false_of_not_eq_true fun hyes => (h.gone w hyes).2.1 ?_
          refine opened_of_isAlive (Bool.eq_true_of_not_eq_false fun hnot => hdead ?_)
          rw [isAlive, hnot, Bool.or_eq_true_iff]
          exact .inr rfl
        · cases hnone
    · cases hstep
  | beat =>
    simp only [step] at hstep
    split at hstep
    · next now kept w rest htick =>
      cases hstep
      exact h.beat htick
    · cases hstep
  | tickEnds =>
    simp only [step] at hstep
    split at hstep
    · next now kept htick =>
      obtain ⟨hnow, hlast, hkept, -⟩ := h.tick _ htick
      cases hstep
      refine h.of_perm rfl ?_ rfl h.gone rfl rfl (List.Subset.refl _) (fun tick htick' => ?_)
        fun _ w hw => ?_
      · rw [onList_of_tick htick]
        show (s.adding ++ kept).Perm (s.adding ++ (kept ++ [] ++ []))
        rw [List.append_nil, List.append_nil]
      · cases htick'
      · obtain ⟨hgone, hvisited⟩ := hkept w hw
        exact ⟨hgone, .inr (hvisited.trans hlast.symm)⟩
    · cases hstep

theorem init_inv (start : TimePoint) : Inv options ({ clock := start } : SseProcess n ν) := by
  refine ⟨fun c => SseChannel.init_inv (options c), fun w hw => ?_, List.nodup_nil, fun w hw => ?_,
    fun w hw => ?_, fun w hw => ?_, fun w t hw => ?_, fun tick htick => ?_, fun _ w hw => ?_⟩
  · cases hw
  · obtain ⟨m, hm, -⟩ := hw
    cases hm
  · cases hw
  · cases hw
  · cases hw
  · cases htick
  · cases hw

/-- **Heartbeats.**  In every state that any steps of the channels, the reactors and the pump lead
to:

* an open subscriber is on the list of the pump once, unless its `subscribe` is still to put it
  there;
* if its heartbeats are on (its interval is not zero) and nothing is queued for it, it was written to
  less than an interval, and the time since the pump last came by, ago;
* between two ticks, everybody on the list was seen by the last tick or came later, and nobody was
  dead already when that tick began;
* no channel has more open subscribers than it may have, and what is destroyed was not open. -/
theorem heartbeats {start : TimePoint} {steps : List (ProcessStep n ν)}
    (h : Transitions.Run (step options) { clock := start } steps s) :
    (∀ w m, (s.channels w.1).subscriptions[w.2]? = some m → m.subscriber.closed = false →
      s.onList.count w = 1) ∧
    (∀ w t m, s.pump.visited w = some t → (s.channels w.1).subscriptions[w.2]? = some m →
      m.subscriber.closed = false → 0 < m.subscriber.heartbeatInterval → m.subscriber.queue = [] →
        s.clock - m.subscriber.lastWrite < m.subscriber.heartbeatInterval + (s.clock - t)) ∧
    (s.pump.tick = none → ∀ w ∈ s.pump.subscribers, s.pump.gone w = false ∧
      (s.pump.visited w = none ∨ s.pump.visited w = s.pump.lastTick)) ∧
    (∀ c, (s.channels c).liveCount ≤ (options c).maxSubscribers) ∧
    ∀ w ∈ s.expired, ∃ m, (s.channels w.1).subscriptions[w.2]? = some m ∧
      m.subscriber.closed = true := by
  have hinv : s.Inv options :=
    h.invariant (fun _ _ _ hs hstep => step_inv hs hstep) (init_inv start)
  refine ⟨fun w m hm hopen => ?_, fun w t m hw hm hopen hinterval hqueue => ?_, hinv.idle,
    fun c => (hinv.channels c).liveCount_le, fun w hw => ?_⟩
  · exact List.count_eq_one_of_mem hinv.nodup (hinv.watched w ⟨m, hm, hopen⟩)
  · obtain ⟨-, ht, -, hfresh⟩ := hinv.visited w t hw
    obtain hne | hidle := hfresh m hm hopen hinterval
    · exact absurd hqueue hne
    · rw [← sub_add_sub_cancel' t]
      exact Int.add_lt_add_right hidle _
  · obtain ⟨hk, hclosed⟩ := hinv.expired w hw
    obtain ⟨m, hm⟩ : ∃ m, (s.channels w.1).subscriptions[w.2]? = some m :=
      ⟨_, List.getElem?_eq_getElem hk⟩
    exact ⟨m, hm, Bool.eq_true_of_not_eq_false fun hopen => hclosed ⟨m, hm, hopen⟩⟩

/-- A subscriber gets its retry hint, is idle for two seconds, and the pump comes by. -/
def idleStream : List (ProcessStep 1 Unit) :=
  [.call (.last 0) (.subscribe .get 0), .call (.last 0) .proceed, .add 0,
    .call (.last 0) (.pull 0 0), .elapse 2000000000, .tick, .lock, .beat, .tickEnds,
    .call (.last 0) (.pull 0 2000000000), .elapse 1500000000]

/-- Heartbeats after a second. -/
def everySecond : SseOptions := { heartbeatInterval := 1 }

theorem heartbeats_idleStream :
    ∃ s m, Transitions.Run (step fun _ => everySecond) { clock := 0 } idleStream s ∧
      (s.channels (.last 0)).subscriptions[0]? = some m ∧
      s.onList.count (.last 0, 0) = 1 ∧
      s.clock - m.subscriber.lastWrite < m.subscriber.heartbeatInterval + 1500000000 := by
  have hruns : ((idleStream.foldlM (step fun _ => everySecond) { clock := 0 }).bind fun s =>
      (s.channels (.last 0)).subscriptions[0]?.map fun m => (m.subscriber.closed,
        m.subscriber.heartbeatInterval, m.subscriber.queue.length, s.clock,
        s.pump.visited (.last 0, 0))) =
          some (false, 1000000000, 0, 3500000000, some 2000000000) := by
    decide +kernel
  obtain ⟨s, hs, hrest⟩ := Option.bind_eq_some_iff.1 hruns
  obtain ⟨m, hm, hall⟩ := Option.map_eq_some_iff.1 hrest
  obtain ⟨hopen, hinterval, hqueue, hclock, hvisited⟩ : _ ∧ _ ∧ _ ∧ _ ∧ _ := by
    simpa using hall
  have hrun := Transitions.Run.of_foldlM hs
  obtain ⟨hlisted, hsilent, -⟩ := heartbeats hrun
  have hless := hsilent (.last 0, 0) _ m hvisited hm hopen (by rw [hinterval]; decide) hqueue
  refine ⟨s, m, hrun, hm, hlisted (.last 0, 0) m hm hopen, ?_⟩
  rw [hclock] at hless ⊢
  exact hless

end SseProcess

end ErikslundHttp
