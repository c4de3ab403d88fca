import ErikslundHttp.Lib.Result
import ErikslundHttp.Sse.Channel
import Mathlib.Data.List.Basic
import Mathlib.Data.List.Nodup

/-!
# Delivery of server-sent events

A frame is handed to one subscriber after the other, so during a `publish` some have it and others
await it.  What a call of the subscriber keeps is shown once for each call.

* `due` is what a subscriber should have been given at any moment.
* `Follows` says that it was, less the frames that it lost.
* `step_inv`: every step of a channel keeps that.
* `sse_delivery` says what clients get in every run.
-/

namespace ErikslundHttp

namespace Subscription

variable {ν : Type} {options : SseOptions} {m : Subscription ν} {due : List SharedFrame}

/-- The frames it has pulled and those still queued. -/
def frames (m : Subscription ν) : List SharedFrame := m.taken ++ m.subscriber.queue

/-- The published ones of some frames. -/
def events (frames : List SharedFrame) : List SharedFrame := frames.filter SharedFrame.isPublished

/-- Its bytes are whole frames, the retry hint only at the front. -/
structure Sound (options : SseOptions) (m : Subscription ν) : Prop where
  received : m.received = m.taken.flatMap SharedFrame.text
  /-- The retry hint comes first. -/
  retry : ∀ frame ∈ m.frames.tail, frame.origin ≠ .retry
  /-- What was not published is a hint or a heartbeat. -/
  whole : ∀ frame ∈ m.frames, frame.isPublished = false →
    frame = ⟨.retry, buildRetryFrame options.retryHint.toNat⟩ ∨
      frame = ⟨.heartbeat, kHeartbeatFrame⟩
  detached : m.subscriber.detached = true → m.subscriber.closed = true

/-- Its events are among those due, in their order; and all of them if none was lost. -/
structure Follows (due : List SharedFrame) (m : Subscription ν) : Prop where
  sublist : (events m.frames).Sublist due
  since : m.since ≤ due.length
  /-- Without a loss an open subscriber has everything since it subscribed. -/
  opened : m.subscriber.closed = false → m.lost = false →
    m.ended = none ∧ events m.frames = due.drop m.since
  /-- One that `close_all` closed has everything up to then. -/
  closed : m.subscriber.closed = true → m.lost = false → m.subscriber.detached = false →
    ∃ number ≤ due.length, m.ended = some number ∧
      events m.frames = (due.take number).drop m.since

theorem events_append (frames later : List SharedFrame) :
    events (frames ++ later) = events frames ++ events later := List.filter_append ..

theorem events_of_isPublished {frame : SharedFrame} (h : frame.isPublished = true) :
    events [frame] = [frame] := by
  rw [events, List.filter_singleton, h]
  rfl

/-- Later events are none of a closed subscriber's. -/
theorem Follows.append (h : m.Follows due) (hclosed : m.subscriber.closed = true)
    (later : List SharedFrame) : m.Follows (due ++ later) := by
  have hle : due.length ≤ (due ++ later).length := by
    rw [List.length_append]
    exact Nat.le_add_right _ _
  refine ⟨h.sublist.trans (List.sublist_append_left _ _), h.since.trans hle, ?_, ?_⟩
  · intro hopen
    cases hclosed.symm.trans hopen
  · intro _ hlost hdetached
    obtain ⟨number, hnumber, hended, hevents⟩ := h.closed hclosed hlost hdetached
    refine ⟨number, hnumber.trans hle, hended, ?_⟩
    rw [List.take_append_of_le_length hnumber]
    exact hevents

/-- A call that leaves the frames and the marks alone. -/
theorem Follows.of_eq {m' : Subscription ν} (h : m.Follows due)
    (hevents : events m'.frames = events m.frames) (hsince : m'.since = m.since)
    (hclosed : m'.subscriber.closed = m.subscriber.closed)
    (hdetached : m'.subscriber.detached = m.subscriber.detached) (hlost : m'.lost = m.lost)
    (hended : m'.ended = m.ended) : m'.Follows due := by
  obtain ⟨hsublist, hle, hopened, hended'⟩ := h
  rw [← hevents] at hsublist hopened hended'
  rw [← hsince] at hle hopened hended'
  rw [← hclosed, ← hlost, ← hended] at hopened hended'
  rw [← hdetached] at hended'
  exact ⟨hsublist, hle, hopened, hended'⟩

/-- A subscriber that drops its queue when it closes, or goes. -/
theorem Follows.clear {m' : Subscription ν} (h : m.Follows due) (htaken : m'.taken = m.taken)
    (hqueue : m'.subscriber.queue = []) (hsince : m'.since = m.since)
    (hclosed : m'.subscriber.closed = true)
    (hlost : m'.lost = true ∨ m'.subscriber.detached = true) : m'.Follows due := by
  have hframes : m'.frames.Sublist m.frames := by
    rw [frames, frames, htaken, hqueue, List.append_nil]
    exact List.sublist_append_left _ _
  refine ⟨(hframes.filter _).trans h.sublist, hsince ▸ h.since, ?_, ?_⟩
  · intro hopen
    cases hclosed.symm.trans hopen
  · intro _ hno hdetached
    rcases hlost with hyes | hyes
    · cases hno.symm.trans hyes
    · cases hdetached.symm.trans hyes

/-! ### Each call of a subscriber -/

theorem frames_pull (now : TimePoint) (m : Subscription ν) : (m.pull now).frames = m.frames := by
  obtain ⟨-, hqueue, -⟩ := m.subscriber.pull_spec now
  show (m.taken ++ m.subscriber.queue) ++ (m.subscriber.pull now).2.2.queue = m.frames
  rw [hqueue, List.append_nil]
  rfl

theorem Sound.pull (h : m.Sound options) (now : TimePoint) : (m.pull now).Sound options := by
  obtain ⟨hout, -, hclosed, hdetached, -⟩ := m.subscriber.pull_spec now
  have hframes := m.frames_pull now
  refine ⟨?_, ?_, ?_, ?_⟩
  · show m.received ++ (m.subscriber.pull now).1 = (m.taken ++ m.subscriber.queue).flatMap _
    rw [hout, List.flatMap_append, h.received]
  · rw [hframes]
    exact h.retry
  · rw [hframes]
    exact h.whole
  · show (m.subscriber.pull now).2.2.detached = true → (m.subscriber.pull now).2.2.closed = true
    rw [hclosed, hdetached]
    exact h.detached

theorem Follows.pull (h : m.Follows due) (now : TimePoint) : (m.pull now).Follows due := by
  obtain ⟨-, -, hclosed, hdetached, -⟩ := m.subscriber.pull_spec now
  exact h.of_eq (congrArg events (m.frames_pull now)) rfl hclosed hdetached rfl rfl

/-- One more frame at the end is no retry hint at the front. -/
theorem Sound.push {m' : Subscription ν} (h : m.Sound options) {kept : List SharedFrame}
    (hkept : kept <:+ m.subscriber.queue) {frame : SharedFrame} (hretry : frame.origin ≠ .retry)
    (hwhole : frame.isPublished = false → frame = ⟨.heartbeat, kHeartbeatFrame⟩)
    (htaken : m'.taken = m.taken) (hreceived : m'.received = m.received)
    (hqueue : m'.subscriber.queue = kept ++ [frame])
    (hdetached : m'.subscriber.detached = true → m'.subscriber.closed = true) :
    m'.Sound options := by
  have hframes : m'.frames = (m.taken ++ kept) ++ [frame] := by
    rw [frames, htaken, hqueue, List.append_assoc]
  have hsub : (m.taken ++ kept).Sublist m.frames := hkept.sublist.append_left _
  refine ⟨?_, ?_, ?_, hdetached⟩
  · rw [hreceived, htaken]
    exact h.received
  · rw [hframes]
    cases hfront : m.taken ++ kept with
    | nil => exact fun _ hmem => absurd hmem List.not_mem_nil
    | cons first rest =>
      rw [List.cons_append, List.tail_cons]
      intro f hf
      rcases List.mem_append.1 hf with hf | hf
      · rw [hfront] at hsub
        exact h.retry f (hsub.tail.subset hf)
      · rw [List.mem_singleton.1 hf]
        exact hretry
  · rw [hframes]
    intro f hf hno
    rcases List.mem_append.1 hf with hf | hf
    · exact h.whole f (hsub.subset hf) hno
    · rw [List.mem_singleton.1 hf] at hno ⊢
      exact .inr (hwhole hno)

/-- Closing drops the queue at most. -/
theorem Sound.clear {m' : Subscription ν} (h : m.Sound options) (htaken : m'.taken = m.taken)
    (hreceived : m'.received = m.received)
    (hqueue : m'.subscriber.queue = [] ∨ m'.subscriber.queue = m.subscriber.queue)
    (hclosed : m'.subscriber.detached = true → m'.subscriber.closed = true) : m'.Sound options := by
  have hframes : m'.frames.Sublist m.frames := by
    rcases hqueue with hqueue | hqueue
    · rw [frames, frames, htaken, hqueue, List.append_nil]
      exact List.sublist_append_left _ _
    · rw [frames, frames, htaken, hqueue]
  refine ⟨?_, ?_, ?_, hclosed⟩
  · rw [hreceived, htaken]
    exact h.received
  · exact fun f hf => h.retry f (hframes.tail.subset hf)
  · exact fun f hf => h.whole f (hframes.subset hf)

theorem Sound.enqueue (h : m.Sound options) {frame : SharedFrame}
    (hframe : frame.isPublished = true) : (m.enqueue frame).Sound options := by
  have hretry : frame.origin ≠ .retry := by
    intro horigin
    rw [SharedFrame.isPublished, horigin] at hframe
    cases hframe
  have hdetached : (m.enqueue frame).subscriber.detached = m.subscriber.detached :=
    (m.subscriber.enqueue_same frame).2
  cases hclosed : m.subscriber.closed with
  | true =>
    have hsame : (m.enqueue frame).subscriber = m.subscriber :=
      congrArg Prod.fst (SseSubscriber.enqueue_of_closed frame hclosed)
    refine h.clear rfl rfl (.inr (congrArg SseSubscriber.queue hsame)) ?_
    rw [hsame]
    exact h.detached
  | false =>
    -- an open subscriber is not detached
    have hno : ¬ (m.enqueue frame).subscriber.detached = true := by
      rw [hdetached]
      intro hyes
      cases hclosed.symm.trans (h.detached hyes)
    obtain ⟨-, ⟨-, hqueue, -⟩ | ⟨-, hqueue, -⟩⟩ :=
      SseSubscriber.enqueue_of_open frame hclosed
    · exact h.clear rfl rfl (.inl hqueue) fun hyes => absurd hyes hno
    · refine h.push (SseSubscriber.makeRoom_suffix _ _ _ _) hretry ?_ rfl rfl hqueue
        fun hyes => absurd hyes hno
      intro hnot
      cases hframe.symm.trans hnot

/-- The next event. -/
theorem Follows.enqueue (h : m.Follows due) {frame : SharedFrame}
    (hframe : frame.isPublished = true) : (m.enqueue frame).Follows (due ++ [frame]) := by
  cases hclosed : m.subscriber.closed with
  | true =>
    have hsame : (m.enqueue frame).subscriber = m.subscriber :=
      congrArg Prod.fst (SseSubscriber.enqueue_of_closed frame hclosed)
    have hlost : (m.enqueue frame).lost = m.lost := by
      show (m.lost || m.subscriber.loses frame) = m.lost
      rw [SseSubscriber.loses, hclosed]
      exact Bool.or_false _
    refine (h.append hclosed [frame]).of_eq ?_ rfl ?_ ?_ hlost rfl
    · rw [frames, hsame]
      rfl
    · rw [hsame]
    · rw [hsame]
  | false =>
    have hle : m.since ≤ (due ++ [frame]).length := by
      rw [List.length_append]
      exact h.since.trans (Nat.le_add_right _ _)
    obtain ⟨-, ⟨hclosed', hqueue, hloses⟩ | ⟨hclosed', hqueue, hloses⟩⟩ :=
      SseSubscriber.enqueue_of_open frame hclosed
    · have hlost : (m.enqueue frame).lost = true := by
        show (m.lost || m.subscriber.loses frame) = true
        rw [hloses, Bool.or_true]
      refine ⟨?_, hle, ?_, ?_⟩
      · have hcleared : (m.enqueue frame).frames.Sublist m.frames := by
          show (m.taken ++ (m.subscriber.enqueue frame).1.queue).Sublist _
          rw [hqueue, List.append_nil]
          exact List.sublist_append_left _ _
        exact ((hcleared.filter _).trans h.sublist).trans (List.sublist_append_left _ _)
      · intro hopen
        cases hclosed'.symm.trans hopen
      · intro _ hno
        cases hlost.symm.trans hno
    · have hevents : events (m.enqueue frame).frames =
          events (m.taken ++ (m.subscriber.kept frame.text.length).1) ++ [frame] := by
        show events (m.taken ++ (m.subscriber.enqueue frame).1.queue) = _
        rw [hqueue, ← List.append_assoc, events_append, events_of_isPublished hframe]
      refine ⟨?_, hle, ?_, ?_⟩
      · rw [hevents]
        have hkept : (m.taken ++ (m.subscriber.kept frame.text.length).1).Sublist m.frames :=
          (SseSubscriber.makeRoom_suffix _ _ _ _).sublist.append_left _
        exact ((hkept.filter _).trans h.sublist).append_right [frame]
      · intro _ hlost
        have hlost' : (m.lost || m.subscriber.loses frame) = false := hlost
        obtain ⟨hlost', hnone⟩ := Bool.or_eq_false_iff.1 hlost'
        rw [hloses] at hnone
        obtain ⟨hended, hall⟩ := h.opened hclosed hlost'
        refine ⟨hended, ?_⟩
        rw [hevents, SseSubscriber.kept_eq_of_drops_eq_false hnone]
        show events m.frames ++ [frame] = (due ++ [frame]).drop m.since
        rw [hall, List.drop_append_of_le_length h.since]
      · intro hyes
        cases hclosed'.symm.trans hyes

theorem Sound.maybeHeartbeat (h : m.Sound options) (now : TimePoint) :
    (m.maybeHeartbeat now).Sound options := by
  by_cases hdue : m.subscriber.heartbeatDue now = true
  · obtain ⟨hclosed, -, -, hcases⟩ := SseSubscriber.maybeHeartbeat_of_due hdue
    have hno : ¬ (m.maybeHeartbeat now).subscriber.detached = true := by
      rw [show (m.maybeHeartbeat now).subscriber.detached = m.subscriber.detached from
        (m.subscriber.maybeHeartbeat_same now).2]
      intro hyes
      cases hclosed.symm.trans (h.detached hyes)
    rcases hcases with ⟨-, hqueue⟩ | ⟨-, hqueue⟩
    · exact h.clear rfl rfl (.inl hqueue) fun hyes => absurd hyes hno
    · exact h.push List.nil_suffix (by intro horigin; cases horigin) (fun _ => rfl) rfl rfl hqueue
        fun hyes => absurd hyes hno
  · have hsame : (m.maybeHeartbeat now).subscriber = m.subscriber :=
      congrArg Prod.fst (SseSubscriber.maybeHeartbeat_of_not_due hdue)
    refine h.clear rfl rfl (.inr (congrArg SseSubscriber.queue hsame)) ?_
    rw [hsame]
    exact h.detached

theorem Follows.maybeHeartbeat (h : m.Follows due) (now : TimePoint) :
    (m.maybeHeartbeat now).Follows due := by
  have hdetached : (m.maybeHeartbeat now).subscriber.detached = m.subscriber.detached :=
    (m.subscriber.maybeHeartbeat_same now).2
  by_cases hdue : m.subscriber.heartbeatDue now = true
  · obtain ⟨hclosed, hnil, -, hcases⟩ := SseSubscriber.maybeHeartbeat_of_due hdue
    rcases hcases with ⟨hclosed', hqueue⟩ | ⟨hclosed', hqueue⟩
    · refine h.clear rfl hqueue rfl hclosed' (.inl ?_)
      show (m.lost || (!m.subscriber.closed && (m.subscriber.maybeHeartbeat now).1.closed)) = true
      rw [hclosed, hclosed']
      exact Bool.or_true _
    · refine h.of_eq ?_ rfl (hclosed'.trans hclosed.symm) hdetached ?_ rfl
      · show events (m.taken ++ (m.subscriber.maybeHeartbeat now).1.queue) = events (m.taken ++ _)
        rw [hqueue, hnil, events_append, events_append]
        rfl
      · show (m.lost || (!m.subscriber.closed && (m.subscriber.maybeHeartbeat now).1.closed)) =
          m.lost
        rw [hclosed']
        simp
  · have hsame : (m.maybeHeartbeat now).subscriber = m.subscriber :=
      congrArg Prod.fst (SseSubscriber.maybeHeartbeat_of_not_due hdue)
    refine h.of_eq ?_ rfl (congrArg SseSubscriber.closed hsame) hdetached ?_ rfl
    · rw [frames, hsame]
      rfl
    · show (m.lost || (!m.subscriber.closed && (m.maybeHeartbeat now).subscriber.closed)) = m.lost
      rw [hsame]
      simp

theorem Sound.beginClose (h : m.Sound options) (published : ℕ) :
    (m.beginClose published).Sound options :=
  h.clear rfl rfl (.inr rfl) fun _ => rfl

/-- `close_all` leaves the queue to be pulled. -/
theorem Follows.beginClose (h : m.Follows due) : (m.beginClose due.length).Follows due := by
  refine ⟨h.sublist, h.since, nofun, ?_⟩
  intro _ hlost hdetached
  cases hclosed : m.subscriber.closed with
  | false =>
    obtain ⟨hended, hevents⟩ := h.opened hclosed hlost
    refine ⟨due.length, le_refl _, ?_, ?_⟩
    · show m.ended.or (some due.length) = _
      rw [hended]
      rfl
    · rw [List.take_length]
      exact hevents
  | true =>
    obtain ⟨number, hnumber, hended, hevents⟩ := h.closed hclosed hlost hdetached
    refine ⟨number, hnumber, ?_, hevents⟩
    show m.ended.or (some due.length) = _
    rw [hended]
    rfl

theorem Sound.onDetached (h : m.Sound options) : m.onDetached.Sound options :=
  h.clear rfl rfl (.inl rfl) fun _ => rfl

theorem Follows.onDetached (h : m.Follows due) : m.onDetached.Follows due :=
  h.clear rfl rfl rfl rfl (.inr rfl)

end Subscription

namespace SseChannel

variable {ν : Type} {options : SseOptions} {channel channel' : SseChannel ν}

open Subscription

/-! ### The invariant of a channel -/

/-- The subscriber has still to be given the frame that is being delivered. -/
def awaits (number : ℕ) (channel : SseChannel ν) : Bool :=
  match channel.entered with
  | some (.delivering _ rest) => rest.contains number
  | _ => false

/-- The events that a subscriber should have been given so far, if it was there. -/
def due (number : ℕ) (channel : SseChannel ν) : List SharedFrame :=
  if channel.awaits number then channel.published.dropLast else channel.published

/-- The subscribers that may be open. -/
def roster (channel : SseChannel ν) : List ℕ :=
  match channel.entered with
  | some (.pruning kept rest _) => kept ++ rest
  | some (.closing rest) => rest
  | _ => channel.subscribers

/-- The invariant of a channel. -/
structure Inv (options : SseOptions) (channel : SseChannel ν) : Prop where
  numbered : ∀ (number : ℕ) frame, channel.published[number]? = some frame →
    ∃ event data, frame = ⟨.published number, buildEventFrame event data⟩
  sound : ∀ (number : ℕ) m, channel.subscriptions[number]? = some m → m.Sound options
  follows : ∀ (number : ℕ) m, channel.subscriptions[number]? = some m →
    m.Follows (channel.due number)
  /-- Every open subscriber is on the list. -/
  opened : ∀ (number : ℕ) m, channel.subscriptions[number]? = some m → m.subscriber.closed = false →
    number ∈ channel.roster
  nodup : channel.roster.Nodup
  known : ∀ number ∈ channel.roster, number < channel.subscriptions.length
  /-- The list is within its limit. -/
  limited : channel.roster.length ≤ options.maxSubscribers
  joining : ∀ kept rest subscriber,
    channel.entered = some (.pruning kept rest (.subscribe subscriber)) →
      ∃ now, subscriber = .init options now
  delivering : ∀ frame rest, channel.entered = some (.delivering frame rest) →
    rest.Nodup ∧ ∃ front, channel.published = front ++ [frame]

theorem isPublished_of_mem (h : channel.Inv options) {frame : SharedFrame}
    (hframe : frame ∈ channel.published) : frame.isPublished = true := by
  obtain ⟨number, hnumber⟩ := List.mem_iff_getElem?.1 hframe
  obtain ⟨event, data, rfl⟩ := h.numbered number frame hnumber
  rfl

theorem getElem?_modify (number other : ℕ) (f : Subscription ν → Subscription ν)
    (channel : SseChannel ν) : (channel.modify number f).subscriptions[other]? =
      channel.subscriptions[other]?.map fun m => if number = other then f m else m :=
  List.getElem?_modify ..

/-- A call of a subscriber from outside of the critical section. -/
theorem Inv.modify (h : channel.Inv options) (number : ℕ) {f : Subscription ν → Subscription ν}
    (hsound : ∀ m, m.Sound options → (f m).Sound options)
    (hfollows : ∀ m due, m.Follows due → (f m).Follows due)
    (hopen : ∀ m, (f m).subscriber.closed = false → m.subscriber.closed = false) :
    (channel.modify number f).Inv options := by
  refine ⟨h.numbered, ?_, ?_, ?_, h.nodup, ?_, h.limited, h.joining, h.delivering⟩
  · intro other m hm
    rw [getElem?_modify, Option.map_eq_some_iff] at hm
    obtain ⟨m₀, hm₀, rfl⟩ := hm
    split_ifs
    · exact hsound m₀ (h.sound other m₀ hm₀)
    · exact h.sound other m₀ hm₀
  · intro other m hm
    rw [getElem?_modify, Option.map_eq_some_iff] at hm
    obtain ⟨m₀, hm₀, rfl⟩ := hm
    split_ifs
    · exact hfollows m₀ _ (h.follows other m₀ hm₀)
    · exact h.follows other m₀ hm₀
  · intro other m hm hclosed
    rw [getElem?_modify, Option.map_eq_some_iff] at hm
    obtain ⟨m₀, hm₀, rfl⟩ := hm
    refine h.opened other m₀ hm₀ ?_
    split_ifs at hclosed
    · exact hopen m₀ hclosed
    · exact hclosed
  · intro other hother
    show other < (channel.subscriptions.modify number f).length
    rw [List.length_modify]
    exact h.known other hother

/-! ### The critical section -/

theorem due_eq_published {number : ℕ} (h : channel.awaits number = false) :
    channel.due number = channel.published := by
  rw [due, h]
  rfl

theorem awaits_eq_false {number : ℕ}
    (h : ∀ frame rest, channel.entered ≠ some (.delivering frame rest)) :
    channel.awaits number = false := by
  rw [awaits]
  split
  · rename_i frame rest hentered
    exact absurd hentered (h frame rest)
  · rfl

/-- Progress that calls no subscriber. -/
theorem Inv.of_roster (h : channel.Inv options) (hpublished : channel'.published = channel.published)
    (hsubscriptions : channel'.subscriptions = channel.subscriptions)
    (hdue : ∀ number, channel'.due number = channel.due number)
    (hroster : channel'.roster.Sublist channel.roster)
    (hopened : ∀ (number : ℕ) m, channel.subscriptions[number]? = some m →
      m.subscriber.closed = false → number ∈ channel'.roster)
    (hjoining : ∀ kept rest subscriber,
      channel'.entered = some (.pruning kept rest (.subscribe subscriber)) →
        ∃ now, subscriber = .init options now)
    (hdelivering : ∀ frame rest, channel'.entered ≠ some (.delivering frame rest)) :
    channel'.Inv options := by
  refine ⟨?_, ?_, ?_, ?_, hroster.nodup h.nodup, ?_, ?_, hjoining, ?_⟩
  · rw [hpublished]
    exact h.numbered
  · rw [hsubscriptions]
    exact h.sound
  · intro number m hm
    rw [hdue]
    exact h.follows number m (hsubscriptions ▸ hm)
  · rw [hsubscriptions]
    exact hopened
  · intro number hnumber
    rw [hsubscriptions]
    exact h.known number (hroster.subset hnumber)
  · exact hroster.length_le.trans h.limited
  · exact fun frame rest hentered => absurd hentered (hdelivering frame rest)

theorem alive_of_opened (h : channel.Inv options) {number : ℕ} {m : Subscription ν}
    (hm : channel.subscriptions[number]? = some m) (hopen : m.subscriber.closed = false) :
    channel.isAlive number = true := by
  have hdetached : m.subscriber.detached = false := by
    refine Bool.eq_false_of_not_eq_true fun hyes => ?_
    cases hopen.symm.trans ((h.sound number m hm).detached hyes)
  rw [isAlive, hm, Option.any_some, SseSubscriber.alive, hopen, hdetached]
  rfl

/-- `prune_dead` looks at the next subscriber. -/
theorem Inv.prune (h : channel.Inv options) {kept rest : List ℕ} {number : ℕ} {purpose : Purpose ν}
    (hentered : channel.entered = some (.pruning kept (number :: rest) purpose)) :
    { channel with entered := some (.pruning
      (if channel.isAlive number then kept ++ [number] else kept) rest purpose) }.Inv options := by
  have hroster : channel.roster = kept ++ number :: rest := by
    rw [roster, hentered]
  refine h.of_roster rfl rfl ?_ ?_ ?_ ?_ nofun
  · intro other
    have hbefore : channel.awaits other = false := by
      rw [awaits, hentered]
    rw [due_eq_published (awaits_eq_false (by intro frame rest' heq; cases heq)),
      due_eq_published hbefore]
  · rw [hroster]
    show ((if channel.isAlive number then kept ++ [number] else kept) ++ rest).Sublist _
    split_ifs
    · rw [List.append_assoc]
      exact List.Sublist.refl _
    · exact (List.sublist_cons_self number rest).append_left kept
  · intro other m hm hopen
    have hmem := h.opened other m hm hopen
    rw [hroster] at hmem
    show other ∈ (if channel.isAlive number then kept ++ [number] else kept) ++ rest
    split_ifs with halive
    · rw [List.append_assoc]
      exact hmem
    · rcases List.mem_append.1 hmem with hkept | hrest
      · exact List.mem_append_left _ hkept
      · rcases List.mem_cons.1 hrest with rfl | hrest
        · exact absurd (alive_of_opened h hm hopen) halive
        · exact List.mem_append_right _ hrest
  · intro kept' rest' subscriber heq
    cases purpose with
    | subscribe subscriber' =>
      cases heq
      exact h.joining kept (number :: rest) subscriber hentered
    | publish event data => cases heq

theorem roster_of_pruned {kept : List ℕ} {purpose : Purpose ν}
    (h : channel.entered = some (.pruning kept [] purpose)) : channel.roster = kept := by
  rw [roster, h]
  exact List.append_nil kept

/-- A new subscriber has its retry hint, and no events. -/
theorem init_sound (now : TimePoint) (since : ℕ) :
    ({ subscriber := .init options now, since := since } : Subscription ν).Sound options := by
  refine ⟨rfl, ?_, ?_, ?_⟩
  · show ∀ frame ∈ (SseSubscriber.init options now : SseSubscriber ν).queue.tail, _
    rcases SseSubscriber.queue_init ν options now with hqueue | hqueue
    · rw [hqueue]
      exact fun _ hmem => absurd hmem List.not_mem_nil
    · rw [hqueue]
      exact fun _ hmem => absurd hmem List.not_mem_nil
  · show ∀ frame ∈ (SseSubscriber.init options now : SseSubscriber ν).queue, _
    rcases SseSubscriber.queue_init ν options now with hqueue | hqueue
    · rw [hqueue]
      exact fun _ hmem => absurd hmem List.not_mem_nil
    · rw [hqueue]
      exact fun frame hmem _ => .inl (List.mem_singleton.1 hmem)
  · intro hdetached
    cases (SseSubscriber.init_open ν options now).2.symm.trans hdetached

theorem init_follows (now : TimePoint) (due : List SharedFrame) :
    ({ subscriber := .init options now, since := due.length } : Subscription ν).Follows due := by
  have hevents : events
      ({ subscriber := .init options now, since := due.length } : Subscription ν).frames = [] := by
    show events (SseSubscriber.init options now : SseSubscriber ν).queue = []
    rcases SseSubscriber.queue_init ν options now with hqueue | hqueue
    · rw [hqueue]
      rfl
    · rw [hqueue]
      rfl
  refine ⟨?_, le_refl _, ?_, ?_⟩
  · rw [hevents]
    exact List.nil_sublist due
  · intro _ _
    rw [hevents, List.drop_length]
    exact ⟨rfl, rfl⟩
  · intro hclosed
    cases (SseSubscriber.init_open ν options now).1.symm.trans hclosed

/-- `subscribe` adds the subscriber, if there is room for it. -/
theorem Inv.join (h : channel.Inv options) {kept : List ℕ} {now : TimePoint}
    (hentered : channel.entered = some (.pruning kept [] (.subscribe (.init options now)))) :
    (channel.afterPruning options kept (.subscribe (.init options now))).Inv options := by
  have hroster := roster_of_pruned hentered
  have hawaits : ∀ other, channel.awaits other = false := by
    intro other
    rw [awaits, hentered]
  rw [afterPruning]
  dsimp only
  by_cases hfull : kept.length ≥ options.maxSubscribers
  · rw [if_pos hfull]
    refine h.of_roster rfl rfl ?_ ?_ ?_ nofun nofun
    · exact fun other => (due_eq_published (hawaits other)).symm
    · rw [hroster]
      exact List.Sublist.refl kept
    · intro other m hm hopen
      rw [← hroster]
      exact h.opened other m hm hopen
  · rw [if_neg hfull]
    have hknown : channel.subscriptions.length ∉ kept := by
      intro hmem
      rw [← hroster] at hmem
      exact lt_irrefl _ (h.known _ hmem)
    -- the subscribers so far, and the new one
    have hcases : ∀ (other : ℕ) (m : Subscription ν), (channel.subscriptions ++
        [{ subscriber := .init options now, since := channel.published.length }])[other]? =
          some m → channel.subscriptions[other]? = some m ∨
            other = channel.subscriptions.length ∧
              m = { subscriber := .init options now, since := channel.published.length } := by
      intro other m hm
      rw [List.getElem?_append] at hm
      split_ifs at hm with hlt
      · exact .inl hm
      · rw [List.getElem?_singleton] at hm
        split_ifs at hm with hzero
        exact .inr ⟨by omega, (Option.some.inj hm).symm⟩
    refine ⟨h.numbered, ?_, ?_, ?_, ?_, ?_, ?_, nofun, nofun⟩
    · intro other m hm
      rcases hcases other m hm with hold | ⟨-, rfl⟩
      · exact h.sound other m hold
      · exact init_sound now _
    · intro other m hm
      rcases hcases other m hm with hold | ⟨-, rfl⟩
      · have hfollows := h.follows other m hold
        rw [due_eq_published (hawaits other)] at hfollows
        exact hfollows
      · exact init_follows now channel.published
    · intro other m hm hopen
      show other ∈ kept ++ [channel.subscriptions.length]
      rcases hcases other m hm with hold | ⟨rfl, -⟩
      · have hmem := h.opened other m hold hopen
        rw [hroster] at hmem
        exact List.mem_append_left _ hmem
      · exact List.mem_append_right _ (List.mem_singleton_self _)
    · show (kept ++ [channel.subscriptions.length]).Nodup
      rw [List.nodup_append']
      refine ⟨hroster ▸ h.nodup, List.nodup_singleton _, ?_⟩
      intro other hother hsame
      rw [List.mem_singleton.1 hsame] at hother
      exact hknown hother
    · intro other hother
      show other < (channel.subscriptions ++ [_]).length
      rw [List.length_append, List.length_singleton]
      rcases List.mem_append.1 (show other ∈ kept ++ [channel.subscriptions.length] from hother)
        with hold | hnew
      · rw [← hroster] at hold
        exact Nat.lt_succ_of_lt (h.known other hold)
      · rw [List.mem_singleton.1 hnew]
        exact Nat.lt_succ_self _
    · show (kept ++ [channel.subscriptions.length]).length ≤ _
      rw [List.length_append, List.length_singleton]
      exact Nat.lt_of_not_le hfull

/-- `publish` has a new frame to deliver. -/
theorem Inv.publish (h : channel.Inv options) {kept : List ℕ} {event data : Bytes}
    (hentered : channel.entered = some (.pruning kept [] (.publish event data))) :
    (channel.afterPruning options kept (.publish event data)).Inv options := by
  have hroster := roster_of_pruned hentered
  have hawaits : ∀ other, channel.awaits other = false := by
    intro other
    rw [awaits, hentered]
  refine ⟨?_, h.sound, ?_, ?_, ?_, ?_, ?_, nofun, ?_⟩
  · intro number frame hframe
    have hframe' : (channel.published ++ [⟨.published channel.published.length,
      buildEventFrame event data⟩])[number]? = some frame := hframe
    rw [List.getElem?_append] at hframe'
    split_ifs at hframe' with hlt
    · exact h.numbered number frame hframe'
    · rw [List.getElem?_singleton] at hframe'
      split_ifs at hframe' with hzero
      have hnumber : number = channel.published.length := by omega
      exact ⟨event, data, by rw [hnumber]; exact (Option.some.inj hframe').symm⟩
  · intro other m hm
    have hfollows := h.follows other m hm
    rw [due_eq_published (hawaits other)] at hfollows
    rw [due]
    split_ifs with hnew
    · -- it awaits the frame
      show m.Follows (channel.published ++ [_]).dropLast
      rw [List.dropLast_concat]
      exact hfollows
    · -- it was found dead
      refine hfollows.append ?_ _
      refine Bool.eq_true_of_not_eq_false fun hopen => hnew ?_
      have hmem := h.opened other m hm hopen
      rw [hroster] at hmem
      exact List.contains_iff_mem.2 hmem
  · intro other m hm hopen
    rw [← hroster]
    exact h.opened other m hm hopen
  · exact hroster ▸ h.nodup
  · intro other hother
    exact h.known other (by rw [hroster]; exact hother)
  · exact hroster ▸ h.limited
  · intro frame rest heq
    cases heq
    exact ⟨hroster ▸ h.nodup, channel.published, rfl⟩

/-- `publish` hands the frame to the next subscriber. -/
theorem Inv.deliver (h : channel.Inv options) {frame : SharedFrame} {number : ℕ} {rest : List ℕ}
    (hentered : channel.entered = some (.delivering frame (number :: rest))) :
    { channel.modify number (·.enqueue frame) with
      entered := some (.delivering frame rest) }.Inv options := by
  obtain ⟨hnodup, front, hpublished⟩ := h.delivering frame _ hentered
  obtain ⟨hnot, hrest⟩ := List.nodup_cons.1 hnodup
  have hframe : frame.isPublished = true := by
    refine isPublished_of_mem h ?_
    rw [hpublished]
    exact List.mem_append_right _ (List.mem_singleton_self frame)
  have hroster : channel.roster = channel.subscribers := by
    rw [roster, hentered]
  have hbefore : ∀ other, channel.awaits other = (number :: rest).contains other := by
    intro other
    rw [awaits, hentered]
  refine ⟨h.numbered, ?_, ?_, ?_, ?_, ?_, ?_, nofun, ?_⟩
  · intro other m hm
    rw [getElem?_modify, Option.map_eq_some_iff] at hm
    obtain ⟨m₀, hm₀, rfl⟩ := hm
    split_ifs
    · exact (h.sound other m₀ hm₀).enqueue hframe
    · exact h.sound other m₀ hm₀
  · intro other m hm
    rw [getElem?_modify, Option.map_eq_some_iff] at hm
    obtain ⟨m₀, hm₀, rfl⟩ := hm
    have hfollows := h.follows other m₀ hm₀
    rw [due, hbefore] at hfollows
    show Follows (if rest.contains other then channel.published.dropLast else channel.published) _
    by_cases heq : number = other
    · -- this one has the frame now
      subst heq
      rw [if_pos rfl, if_neg (by rw [List.contains_iff_mem]; exact hnot)]
      rw [if_pos (List.contains_iff_mem.2 List.mem_cons_self), hpublished,
        List.dropLast_concat] at hfollows
      rw [hpublished]
      exact hfollows.enqueue hframe
    · rw [if_neg heq]
      have hsame : (number :: rest).contains other = rest.contains other := by
        rw [List.contains_cons, beq_false_of_ne (Ne.symm heq), Bool.false_or]
      rw [hsame] at hfollows
      exact hfollows
  · intro other m hm hopen
    rw [getElem?_modify, Option.map_eq_some_iff] at hm
    obtain ⟨m₀, hm₀, rfl⟩ := hm
    show other ∈ channel.subscribers
    rw [← hroster]
    refine h.opened other m₀ hm₀ ?_
    split_ifs at hopen
    · refine Bool.eq_false_of_not_eq_true fun hclosed => ?_
      have hsame : (m₀.enqueue frame).subscriber = m₀.subscriber :=
        congrArg Prod.fst (SseSubscriber.enqueue_of_closed frame hclosed)
      rw [hsame, hclosed] at hopen
      cases hopen
    · exact hopen
  · show channel.subscribers.Nodup
    rw [← hroster]
    exact h.nodup
  · intro other hother
    show other < (channel.subscriptions.modify number _).length
    rw [List.length_modify]
    exact h.known other (by rw [hroster]; exact hother)
  · show channel.subscribers.length ≤ _
    rw [← hroster]
    exact h.limited
  · intro frame' rest' heq
    cases heq
    exact ⟨hrest, front, hpublished⟩

/-- `close_subscribers` closes the next subscriber. -/
theorem Inv.close (h : channel.Inv options) {number : ℕ} {rest : List ℕ}
    (hentered : channel.entered = some (.closing (number :: rest))) :
    { channel.modify number (·.beginClose channel.published.length) with
      entered := some (.closing rest) }.Inv options := by
  have hroster : channel.roster = number :: rest := by
    rw [roster, hentered]
  have hbefore : ∀ other, channel.awaits other = false := by
    intro other
    rw [awaits, hentered]
  refine ⟨h.numbered, ?_, ?_, ?_, ?_, ?_, ?_, nofun, nofun⟩
  · intro other m hm
    rw [getElem?_modify, Option.map_eq_some_iff] at hm
    obtain ⟨m₀, hm₀, rfl⟩ := hm
    split_ifs
    · exact (h.sound other m₀ hm₀).beginClose _
    · exact h.sound other m₀ hm₀
  · intro other m hm
    rw [getElem?_modify, Option.map_eq_some_iff] at hm
    obtain ⟨m₀, hm₀, rfl⟩ := hm
    have hfollows := h.follows other m₀ hm₀
    rw [due_eq_published (hbefore other)] at hfollows
    show Follows channel.published _
    split_ifs
    · exact hfollows.beginClose
    · exact hfollows
  · intro other m hm hopen
    rw [getElem?_modify, Option.map_eq_some_iff] at hm
    obtain ⟨m₀, hm₀, rfl⟩ := hm
    split_ifs at hopen with heq
    · cases hopen
    · have hmem := h.opened other m₀ hm₀ hopen
      rw [hroster] at hmem
      exact (List.mem_cons.1 hmem).resolve_left (Ne.symm heq)
  · exact (List.nodup_cons.1 (hroster ▸ h.nodup)).2
  · intro other hother
    show other < (channel.subscriptions.modify number _).length
    rw [List.length_modify]
    exact h.known other (by rw [hroster]; exact List.mem_cons_of_mem _ hother)
  · have hlen := h.limited
    rw [hroster] at hlen
    exact (Nat.le_succ _).trans hlen

/-- A thread leaves the critical section. -/
theorem Inv.leave (h : channel.Inv options) (hawaits : ∀ number, channel.awaits number = false)
    (hroster : channel'.roster = channel.roster) (hnone : channel'.entered = none)
    (hpublished : channel'.published = channel.published)
    (hsubscriptions : channel'.subscriptions = channel.subscriptions) : channel'.Inv options := by
  refine h.of_roster hpublished hsubscriptions ?_ ?_ ?_ ?_ ?_
  · intro number
    rw [due_eq_published (hawaits number), due_eq_published, hpublished]
    rw [awaits, hnone]
  · rw [hroster]
  · rw [hroster]
    exact h.opened
  · intro kept rest subscriber heq
    cases hnone.symm.trans heq
  · intro frame rest heq
    cases hnone.symm.trans heq

theorem Inv.proceed (h : channel.Inv options) {entered : Section ν}
    (hentered : channel.entered = some entered) :
    (channel.proceed options entered).Inv options := by
  cases entered with
  | pruning kept rest purpose =>
    cases rest with
    | cons number rest => exact h.prune hentered
    | nil =>
      cases purpose with
      | subscribe subscriber =>
        obtain ⟨now, rfl⟩ := h.joining kept [] subscriber hentered
        exact h.join hentered
      | publish event data => exact h.publish hentered
  | delivering frame rest =>
    cases rest with
    | cons number rest => exact h.deliver hentered
    | nil =>
      refine h.leave ?_ ?_ rfl rfl rfl
      · intro number
        rw [awaits, hentered]
        rfl
      · rw [roster, roster, hentered]
        rfl
  | closing rest =>
    cases rest with
    | cons number rest => exact h.close hentered
    | nil =>
      refine h.leave ?_ ?_ rfl rfl rfl
      · intro number
        rw [awaits, hentered]
      · rw [roster, roster, hentered]
        rfl

/-! ### Runs -/

theorem Inv.enter (h : channel.Inv options) {entered : Section ν}
    (hstep : channel.enter entered = some channel')
    (hroster : { channel with entered := some entered }.roster = channel.subscribers)
    (hjoining : ∀ kept rest subscriber, entered = .pruning kept rest (.subscribe subscriber) →
      ∃ now, subscriber = .init options now)
    (hdelivering : ∀ frame rest, entered ≠ .delivering frame rest) : channel'.Inv options := by
  rw [SseChannel.enter] at hstep
  cases hfree : channel.entered with
  | some other =>
    rw [hfree] at hstep
    cases hstep
  | none =>
    rw [hfree] at hstep
    cases hstep
    have hsame : { channel with entered := some entered }.roster = channel.roster := by
      rw [hroster, roster, hfree]
    refine h.of_roster rfl rfl ?_ ?_ ?_ ?_ ?_
    · intro number
      have hbefore : channel.awaits number = false := by
        rw [awaits, hfree]
      rw [due_eq_published hbefore, due_eq_published]
      refine awaits_eq_false fun frame rest heq => ?_
      exact hdelivering frame rest (Option.some.inj heq)
    · rw [hsame]
    · rw [hsame]
      exact h.opened
    · exact fun kept rest subscriber heq => hjoining kept rest subscriber (Option.some.inj heq)
    · exact fun frame rest heq => hdelivering frame rest (Option.some.inj heq)

theorem Inv.answer (h : channel.Inv options) (answer : SubscribeAnswer) :
    (channel.answer answer).Inv options :=
  ⟨h.numbered, h.sound, h.follows, h.opened, h.nodup, h.known, h.limited, h.joining, h.delivering⟩

theorem Inv.stopAccepting (h : channel.Inv options) :
    { channel with accepting := false }.Inv options :=
  ⟨h.numbered, h.sound, h.follows, h.opened, h.nodup, h.known, h.limited, h.joining, h.delivering⟩

theorem step_inv (h : channel.Inv options) {next : ChannelStep ν}
    (hstep : channel.step options next = some channel') : channel'.Inv options := by
  cases next with
  | subscribe method now =>
    simp only [step] at hstep
    split_ifs at hstep
    · cases hstep
      exact h.answer _
    · cases hstep
      exact h.answer _
    · refine h.enter hstep rfl ?_ nofun
      intro kept rest subscriber heq
      cases heq
      exact ⟨now, rfl⟩
  | publish event data =>
    simp only [step] at hstep
    split_ifs at hstep
    · cases hstep
      exact h
    · exact h.enter hstep rfl nofun nofun
  | closeAll => exact h.enter hstep rfl nofun nofun
  | shutdown => exact h.stopAccepting.enter hstep rfl nofun nofun
  | proceed =>
    simp only [step, Option.map_eq_some_iff] at hstep
    obtain ⟨entered, hentered, rfl⟩ := hstep
    exact h.proceed hentered
  | pull number now =>
    cases hstep
    refine h.modify number (fun m hm => hm.pull now) (fun m due hm => hm.pull now) ?_
    intro m hopen
    rw [← (m.subscriber.pull_spec now).2.2.1]
    exact hopen
  | heartbeat number now =>
    cases hstep
    refine h.modify number (fun m hm => hm.maybeHeartbeat now)
      (fun m due hm => hm.maybeHeartbeat now) ?_
    intro m hopen
    by_cases hdue : m.subscriber.heartbeatDue now = true
    · exact (SseSubscriber.maybeHeartbeat_of_due hdue).1
    · rw [← show (m.maybeHeartbeat now).subscriber = m.subscriber from
        congrArg Prod.fst (SseSubscriber.maybeHeartbeat_of_not_due hdue)]
      exact hopen
  | attach number notifier =>
    cases hstep
    refine h.modify number ?_ ?_ fun m hopen => hopen
    · exact fun m hm => ⟨hm.received, hm.retry, hm.whole, hm.detached⟩
    · exact fun m due hm => ⟨hm.sublist, hm.since, hm.opened, hm.closed⟩
  | detach number =>
    cases hstep
    exact h.modify number (fun m hm => hm.onDetached) (fun m due hm => hm.onDetached) nofun

theorem init_inv (options : SseOptions) : ({} : SseChannel ν).Inv options := by
  refine ⟨?_, ?_, ?_, ?_, List.nodup_nil, ?_, Nat.zero_le _, nofun, nofun⟩
  · intro number frame hframe
    cases hframe
  · intro number m hm
    cases hm
  · intro number m hm
    cases hm
  · intro number m hm
    cases hm
  · intro number hnumber
    cases hnumber

theorem run_inv {steps : List (ChannelStep ν)} (h : run options steps = some channel) :
    channel.Inv options :=
  foldlM_invariant (fun _ _ _ _ hx hstep => step_inv hx hstep) (init_inv options) h

/-! ### Order and number -/

/-- The first frame was published before the second. -/
def Precedes (frame later : SharedFrame) : Prop :=
  ∃ i j, i < j ∧ frame.origin = .published i ∧ later.origin = .published j

theorem precedes_asymm {frame later : SharedFrame} (h : Precedes frame later) :
    ¬ Precedes later frame := by
  rintro ⟨i', j', hlt', hlater', hframe'⟩
  obtain ⟨i, j, hlt, hframe, hlater⟩ := h
  cases hframe.symm.trans hframe'
  cases hlater.symm.trans hlater'
  exact Nat.lt_asymm hlt hlt'

theorem Inv.published_pairwise (h : channel.Inv options) : channel.published.Pairwise Precedes := by
  rw [List.pairwise_iff_getElem]
  intro i j hi hj hlt
  obtain ⟨event, data, hframe⟩ := h.numbered i _ (List.getElem?_eq_getElem hi)
  obtain ⟨event', data', hlater⟩ := h.numbered j _ (List.getElem?_eq_getElem hj)
  rw [hframe, hlater]
  exact ⟨i, j, hlt, rfl, rfl⟩

theorem Inv.published_nodup (h : channel.Inv options) : channel.published.Nodup := by
  refine h.published_pairwise.imp ?_
  rintro frame _ hprecedes rfl
  exact precedes_asymm hprecedes hprecedes

/-- A list in the order of publication has any two of its frames in that order. -/
theorem pair_sublist {frames : List SharedFrame} (h : frames.Pairwise Precedes)
    {frame later : SharedFrame} (hframe : frame ∈ frames) (hlater : later ∈ frames)
    (hprecedes : Precedes frame later) : [frame, later].Sublist frames := by
  obtain ⟨front, back, rfl⟩ := List.append_of_mem hframe
  rw [List.pairwise_append] at h
  rcases List.mem_append.1 hlater with hfront | hback
  · exact absurd (h.2.2 later hfront frame List.mem_cons_self) (precedes_asymm hprecedes)
  · refine List.Sublist.trans ?_ (List.sublist_append_right _ _)
    rcases List.mem_cons.1 hback with rfl | hback
    · exact absurd hprecedes (precedes_asymm hprecedes)
    · exact (List.singleton_sublist.2 hback).cons_cons frame

theorem due_sublist (number : ℕ) (channel : SseChannel ν) :
    (channel.due number).Sublist channel.published := by
  rw [due]
  split_ifs
  · exact List.dropLast_sublist _
  · exact List.Sublist.refl _

/-- What was taken is in the order of publication. -/
theorem Inv.taken_sublist (h : channel.Inv options) {number : ℕ} {m : Subscription ν}
    (hm : channel.subscriptions[number]? = some m) :
    (events m.taken).Sublist channel.published := by
  have hfollows := h.follows number m hm
  have htaken : (events m.taken).Sublist (events m.frames) :=
    (List.sublist_append_left m.taken m.subscriber.queue).filter _
  exact (htaken.trans hfollows.sublist).trans (due_sublist number channel)

/-- Two subscribers have the events that both have in the same order. -/
theorem Inv.agree (h : channel.Inv options) {number number' : ℕ} {m m' : Subscription ν}
    (hm : channel.subscriptions[number]? = some m)
    (hm' : channel.subscriptions[number']? = some m') {frame later : SharedFrame}
    (hframe : frame.isPublished = true) (hlater : later.isPublished = true)
    (hpair : [frame, later].Sublist m.taken) (hframe' : frame ∈ m'.taken)
    (hlater' : later ∈ m'.taken) : [frame, later].Sublist m'.taken := by
  have hevents : [frame, later].Sublist (events m.taken) := by
    have hfiltered := hpair.filter SharedFrame.isPublished
    rw [List.filter_cons_of_pos hframe, List.filter_cons_of_pos hlater] at hfiltered
    exact hfiltered
  have hprecedes : Precedes frame later := by
    have hordered := h.published_pairwise.sublist (hevents.trans (h.taken_sublist hm))
    exact (List.pairwise_cons.1 hordered).1 later (List.mem_singleton_self later)
  have hordered' := h.published_pairwise.sublist (h.taken_sublist hm')
  refine (pair_sublist hordered' ?_ ?_ hprecedes).trans List.filter_sublist
  · exact List.mem_filter.2 ⟨hframe', hframe⟩
  · exact List.mem_filter.2 ⟨hlater', hlater⟩

/-- The number of live subscribers. -/
def liveCount (channel : SseChannel ν) : ℕ :=
  (List.range channel.subscriptions.length).countP fun number => channel.isAlive number

theorem Inv.liveCount_le (h : channel.Inv options) :
    channel.liveCount ≤ options.maxSubscribers := by
  rw [liveCount, List.countP_eq_length_filter]
  refine le_trans ?_ h.limited
  refine (List.Nodup.subperm (List.nodup_range.filter _) fun number hnumber => ?_).length_le
  obtain ⟨-, halive⟩ := List.mem_filter.1 hnumber
  rw [isAlive, Option.any_eq_true] at halive
  obtain ⟨m, hm, halive⟩ := halive
  rw [SseSubscriber.alive, Bool.and_eq_true, Bool.not_eq_true'] at halive
  exact h.opened number m hm halive.1

/-- A frame as `sse_delivery` allows it: the retry hint, a heartbeat or a published event. -/
theorem Inv.whole (h : channel.Inv options) {number : ℕ} {m : Subscription ν}
    (hm : channel.subscriptions[number]? = some m) {frame : SharedFrame} (hframe : frame ∈ m.taken) :
    frame = ⟨.retry, buildRetryFrame options.retryHint.toNat⟩ ∨
      frame = ⟨.heartbeat, kHeartbeatFrame⟩ ∨ frame ∈ channel.published := by
  cases hpublished : frame.isPublished with
  | true =>
    have hevents : frame ∈ events m.taken := List.mem_filter.2 ⟨hframe, hpublished⟩
    exact .inr (.inr ((h.taken_sublist hm).subset hevents))
  | false =>
    have hmem : frame ∈ m.frames := List.mem_append_left _ hframe
    exact ((h.sound number m hm).whole frame hmem hpublished).imp_right .inl

/-- **Delivery of server-sent events.**  After every sequence of steps of the threads:

* the `k`-th published frame is the encoding of an event, and no frame was published twice;
* the bytes that the pulls of a subscriber returned are those of whole frames: its retry hint, which
  can only be the first one, heartbeats, and published frames in the order of their publication;
* two subscribers have the events that both received in the same order;
* a subscriber that lost none, and is not detached, has received or still queued exactly the events
  published since it subscribed, until `close_all` closed it; while an event is being delivered,
  that one counts from its turn on;
* there are at most `max_subscribers` live subscribers. -/
theorem sse_delivery (options : SseOptions) (steps : List (ChannelStep ν)) (channel : SseChannel ν)
    (h : run options steps = some channel) :
    ((∀ (k : ℕ) frame, channel.published[k]? = some frame →
        ∃ event data, frame = ⟨.published k, buildEventFrame event data⟩) ∧
      channel.published.Nodup) ∧
    (∀ (n : ℕ) m, channel.subscriptions[n]? = some m →
      m.received = m.taken.flatMap SharedFrame.text ∧
      (∀ frame ∈ m.taken.tail, frame.origin ≠ .retry) ∧
      (∀ frame ∈ m.taken, frame = ⟨.retry, buildRetryFrame options.retryHint.toNat⟩ ∨
        frame = ⟨.heartbeat, kHeartbeatFrame⟩ ∨ frame ∈ channel.published) ∧
      (m.taken.filter SharedFrame.isPublished).Sublist channel.published) ∧
    (∀ (n n' : ℕ) m m' frame later, channel.subscriptions[n]? = some m →
      channel.subscriptions[n']? = some m' → frame.isPublished = true → later.isPublished = true →
      [frame, later].Sublist m.taken → frame ∈ m'.taken → later ∈ m'.taken →
      [frame, later].Sublist m'.taken) ∧
    (∀ (n : ℕ) m, channel.subscriptions[n]? = some m → m.lost = false →
      m.subscriber.detached = false →
      (m.taken ++ m.subscriber.queue).filter SharedFrame.isPublished =
          (channel.due n).drop m.since ∧ m.subscriber.closed = false ∨
        ∃ number, m.ended = some number ∧ m.subscriber.closed = true ∧
          (m.taken ++ m.subscriber.queue).filter SharedFrame.isPublished =
            (channel.published.take number).drop m.since) ∧
    channel.liveCount ≤ options.maxSubscribers := by
  have hinv := run_inv h
  refine ⟨⟨hinv.numbered, hinv.published_nodup⟩, ?_, ?_, ?_, hinv.liveCount_le⟩
  · intro n m hm
    have hsound := hinv.sound n m hm
    refine ⟨hsound.received, ?_, fun frame hframe => hinv.whole hm hframe, hinv.taken_sublist hm⟩
    intro frame hframe
    have htail : m.taken.tail.Sublist m.frames.tail := (List.sublist_append_left _ _).tail
    exact hsound.retry frame (htail.subset hframe)
  · exact fun n n' m m' frame later hm hm' hframe hlater hpair => hinv.agree hm hm' hframe hlater hpair
  · intro n m hm hlost hdetached
    have hfollows := hinv.follows n m hm
    cases hclosed : m.subscriber.closed with
    | false => exact .inl ⟨(hfollows.opened hclosed hlost).2, rfl⟩
    | true =>
      obtain ⟨number, hnumber, hended, hevents⟩ := hfollows.closed hclosed hlost hdetached
      refine .inr ⟨number, hended, rfl, hevents.trans ?_⟩
      -- the close was before the event that is being delivered
      rw [due] at hnumber ⊢
      split_ifs at hnumber ⊢
      · rw [List.dropLast_eq_take, List.take_take]
        rw [List.length_dropLast] at hnumber
        rw [Nat.min_eq_left hnumber]
      · rfl

/-- A subscriber with room for one frame: it pulls the first event before the second comes. -/
theorem sse_delivery_pulled :
    let options : SseOptions := { maxSubscribers := 1, maxQueuedBytesPerSubscriber := 13 }
    let publish (data : Bytes) : List (ChannelStep ℕ) :=
      [.publish [] data, .proceed, .proceed, .proceed, .proceed]
    let steps := [.subscribe .get 0, .proceed, .pull 0 1] ++ publish (ascii "a") ++ [.pull 0 2] ++
      publish (ascii "b") ++ [.subscribe .get 3, .proceed, .proceed]
    ∃ channel m, run options steps = some channel ∧ channel.subscriptions[0]? = some m ∧
      m.received = ascii "retry: 5000\n\ndata: a\n\n" ∧
      (m.taken ++ m.subscriber.queue).filter SharedFrame.isPublished = channel.published ∧
      channel.liveCount ≤ 1 := by
  intro options publish steps
  have hrun : ((run options steps).bind fun channel => channel.subscriptions[0]?.map fun m =>
      (m.received, m.lost, m.subscriber.detached, m.subscriber.closed, m.since,
        channel.awaits 0)) =
      some (ascii "retry: 5000\n\ndata: a\n\n", false, false, false, 0, false) := by
    decide +kernel
  obtain ⟨channel, hchannel, hm⟩ := Option.bind_eq_some_iff.1 hrun
  obtain ⟨m, hm, hfields⟩ := Option.map_eq_some_iff.1 hm
  simp only [Prod.mk.injEq] at hfields
  obtain ⟨hreceived, hlost, hdetached, hclosed, hsince, hawaits⟩ := hfields
  obtain ⟨-, -, -, hexact, hlive⟩ := sse_delivery options steps channel hchannel
  refine ⟨channel, m, hchannel, hm, hreceived, ?_, hlive⟩
  rcases hexact 0 m hm hlost hdetached with ⟨hevents, -⟩ | ⟨-, -, hyes, -⟩
  · rw [due_eq_published hawaits, hsince] at hevents
    exact hevents
  · cases hclosed.symm.trans hyes

end SseChannel

end ErikslundHttp
