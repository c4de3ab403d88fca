import ErikslundHttp.Lib.Result
import ErikslundHttp.Reactor.Invariants
import ErikslundHttp.Reactor.Wakeup

/-!
# No lost wakeup

A stream that was idle is pulled again only when the reactor is told of its id.

* `Linked` says that it will be: while the subscriber of an idle stream has something to give, the id
  of its notifier is on the way to the reactor.
* `ReactorCall.Excused` is the one exception: the call that the reactor makes for the id, which has
  taken it from the list and has not pulled yet.
* `no_lost_wakeup` says so of every state of every run.
-/

namespace ErikslundHttp

open Connection (streamStatus Held)

/-- The call has yet to pull, or does not return. -/
def ReactorCall.Excused {σ : Type} (call : ReactorCall σ) : Prop :=
  (∃ entry ∈ call.events, entry.2.isPulled = true) ∨ call.interest = none

namespace StreamSystem

variable {σ : Type} {server : ReactorEnvironment} {s s' : StreamSystem σ}

/-! ### The invariant -/

/-- The id is pending, or in the list being drained, or a thread is about to push it. -/
def InFlight (s : StreamSystem σ) (id : ℕ) : Prop :=
  id ∈ s.reactor.pendingStreams ∨ id ∈ s.drained ∨
    ∃ thread, s.producers thread = .notifying id ∨ s.producers thread = .pushing id

/-- The next pull of the subscriber is not idle. -/
def HasWork (subscriber : SseSubscriber ℕ) : Prop :=
  subscriber.queue ≠ [] ∨ subscriber.closed = true

/-- The subscriber of the connection at `fd`, whose events so far are the trace: it has the notifier
of the stream, and the reactor hears of its work, while it is alive. -/
def Linked (s : StreamSystem σ) (fd : Fd) (trace : List (ℕ × Event)) (excused : Prop)
    (subscriber : SseSubscriber ℕ) : Prop :=
  s.alive = true → (streamStatus trace).attached = true → ∃ id, subscriber.notifier = some id ∧
    FlatMap.lookup id s.reactor.streaming = some fd ∧
    ((streamStatus trace).last = some .idle → HasWork subscriber → s.InFlight id ∨ excused)

/-- Each connection with a stream is linked to its subscriber, or is about to be. -/
structure Links (s : StreamSystem σ) : Prop where
  /-- A connection that is not being called is linked to its subscriber. -/
  resting : ∀ fd entry subscriber, FlatMap.lookup fd s.reactor.connections = some entry →
    s.executing ≠ some fd → s.subscribers entry.number = some subscriber →
      s.Linked fd entry.connection.trace False subscriber
  /-- The connection that is being called is in the table, as it was before. -/
  calling : ∀ call, s.phase = .calling call →
    FlatMap.lookup call.fd s.reactor.connections = some call.entry ∧ Held call.connection ∧
      (call.catches = true → call.ids = none) ∧
      ∃ performed, call.connection.trace = performed ++ call.events ∧
        ∀ subscriber, s.subscribers call.entry.number = some subscriber →
          s.Linked call.fd performed call.Excused subscriber

/-- The tables of the reactor. -/
structure Table (r : Reactor σ) : Prop where
  sorted : FlatMap.Sorted r.connections
  sortedIds : FlatMap.Sorted r.streaming
  /-- Every connection of the table is at rest. -/
  held : ∀ fd entry, FlatMap.lookup fd r.connections = some entry → Held entry.connection
  /-- The number of a connection is below that of the next one. -/
  known : ∀ fd entry, FlatMap.lookup fd r.connections = some entry → entry.number < r.admitted
  /-- No two descriptors hold one connection. -/
  numbers : ∀ fd fd' entry entry', FlatMap.lookup fd r.connections = some entry →
    FlatMap.lookup fd' r.connections = some entry' → entry.number = entry'.number → fd = fd'
  /-- The ids in use are below the next one. -/
  fresh : ∀ id fd, FlatMap.lookup id r.streaming = some fd → id < r.nextStreamId

/-- A pending id has its signal, or gets it, or the reactor is about to take the list. -/
def Signalled (s : StreamSystem σ) : Prop :=
  ∀ id ∈ s.reactor.pendingStreams, 0 < s.eventFd ∨
    s.producers (s.pushedBy id) = .signalling id ∨ s.phase = .draining ∨ s.phase = .swapping

/-- The invariant of the system. -/
structure Inv (s : StreamSystem σ) : Prop where
  table : Table s.reactor
  /-- Streams are linked to their subscribers. -/
  links : s.Links
  /-- A pending id has a signal on its way, or is about to be taken. -/
  signalled : s.Signalled

theorem Linked.mono {fd : Fd} {trace : List (ℕ × Event)} {excused excused' : Prop}
    {subscriber : SseSubscriber ℕ} (h : s.Linked fd trace excused subscriber)
    (hstreaming : ∀ id, FlatMap.lookup id s.reactor.streaming = some fd →
      FlatMap.lookup id s'.reactor.streaming = some fd)
    (halive : s'.alive = true → s.alive = true)
    (hflight : ∀ id, s'.alive = true → FlatMap.lookup id s.reactor.streaming = some fd →
      (streamStatus trace).last = some .idle → s.InFlight id → s'.InFlight id ∨ excused')
    (hexcused : excused → excused') : s'.Linked fd trace excused' subscriber := by
  intro hyes hattached
  obtain ⟨id, hnotifier, hlookup, hwork⟩ := h (halive hyes) hattached
  refine ⟨id, hnotifier, hstreaming id hlookup, ?_⟩
  intro hlast hhas
  rcases hwork hlast hhas with hin | hex
  · exact hflight id hyes hlookup hlast hin
  · exact .inr (hexcused hex)

/-! ### Other threads -/

/-- A step that leaves the tables and the reactor where they are. -/
theorem Links.of_threads (h : s.Links) (hphase : s'.phase = s.phase)
    (hconnections : s'.reactor.connections = s.reactor.connections)
    (hsubscribers : ∀ number subscriber', s'.subscribers number = some subscriber' →
      ∃ subscriber, s.subscribers number = some subscriber ∧ ∀ fd trace excused,
        s.Linked fd trace excused subscriber → s'.Linked fd trace excused subscriber') :
    s'.Links := by
  have hexecuting : s'.executing = s.executing := by
    rw [executing, executing, hphase]
  refine ⟨?_, ?_⟩
  · intro fd entry subscriber' hentry hresting hsubscriber'
    rw [hconnections] at hentry
    rw [hexecuting] at hresting
    obtain ⟨subscriber, hsubscriber, hlinked⟩ := hsubscribers _ _ hsubscriber'
    exact hlinked _ _ _ (h.resting fd entry subscriber hentry hresting hsubscriber)
  · intro call hcall
    rw [hphase] at hcall
    obtain ⟨hentry, hheld, hcatches, performed, htrace, hall⟩ := h.calling call hcall
    refine ⟨by rw [hconnections]; exact hentry, hheld, hcatches, performed, htrace, ?_⟩
    intro subscriber' hsubscriber'
    obtain ⟨subscriber, hsubscriber, hlinked⟩ := hsubscribers _ _ hsubscriber'
    exact hlinked _ _ _ (hall subscriber hsubscriber)

theorem drained_of_phase (h : s'.phase = s.phase) : s'.drained = s.drained := by
  rw [drained, drained, h]

/-- A call of a subscriber leaves with its notifier, or has changed nothing. -/
def Notifies (f : SseSubscriber ℕ → SseSubscriber ℕ × Option ℕ) : Prop :=
  ∀ subscriber, (f subscriber).1.notifier = subscriber.notifier ∧
    ((f subscriber).2 = subscriber.notifier ∨ (f subscriber).1 = subscriber)

theorem notifies_enqueue (frame : SharedFrame) :
    Notifies fun subscriber => subscriber.enqueue frame := by
  intro subscriber
  refine ⟨(subscriber.enqueue_same frame).1, ?_⟩
  cases hclosed : subscriber.closed with
  | true => exact .inr (congrArg Prod.fst (SseSubscriber.enqueue_of_closed frame hclosed))
  | false => exact .inl (SseSubscriber.enqueue_of_open frame hclosed).1

theorem notifies_beginClose : Notifies SseSubscriber.beginClose :=
  fun _ => ⟨rfl, .inl rfl⟩

theorem notifies_maybeHeartbeat (now : TimePoint) :
    Notifies fun subscriber => subscriber.maybeHeartbeat now := by
  intro subscriber
  refine ⟨(subscriber.maybeHeartbeat_same now).1, ?_⟩
  by_cases hdue : subscriber.heartbeatDue now = true
  · exact .inl (SseSubscriber.maybeHeartbeat_of_due hdue).2.2.1
  · exact .inr (congrArg Prod.fst (SseSubscriber.maybeHeartbeat_of_not_due hdue))

/-- A thread that was not about to push an id does something else. -/
theorem InFlight.of_update {next : Producer} {id : ℕ} (h : s.InFlight id) (thread : ℕ)
    (hno : s.producers thread ≠ .notifying id ∧ s.producers thread ≠ .pushing id)
    (hpending : s'.reactor.pendingStreams = s.reactor.pendingStreams)
    (hdrained : s'.drained = s.drained)
    (hproducers : s'.producers = Function.update s.producers thread next) : s'.InFlight id := by
  rcases h with h | h | ⟨other, h⟩
  · exact .inl (by rw [hpending]; exact h)
  · exact .inr (.inl (by rw [hdrained]; exact h))
  · refine .inr (.inr ⟨other, ?_⟩)
    have hne : other ≠ thread := by
      rintro rfl
      exact h.elim hno.1 hno.2
    rw [hproducers, Function.update_of_ne hne]
    exact h

theorem Signalled.of_update (h : s.Signalled) (thread : ℕ) {next : Producer}
    (hno : ∀ id, s.producers thread ≠ .signalling id)
    (hpending : s'.reactor.pendingStreams = s.reactor.pendingStreams)
    (heventFd : s'.eventFd = s.eventFd) (hpushedBy : s'.pushedBy = s.pushedBy)
    (hphase : s'.phase = s.phase)
    (hproducers : s'.producers = Function.update s.producers thread next) : s'.Signalled := by
  intro id hid
  rw [hpending] at hid
  rw [heventFd, hpushedBy, hphase, hproducers]
  rcases h id hid with h | h | h
  · exact .inl h
  · have hne : s.pushedBy id ≠ thread := by
      rintro rfl
      exact hno id h
    rw [Function.update_of_ne hne]
    exact .inr (.inl h)
  · exact .inr (.inr h)

theorem produce_inv (h : s.Inv) {thread number : ℕ}
    {f : SseSubscriber ℕ → SseSubscriber ℕ × Option ℕ} (hf : Notifies f)
    (hstep : s.produce thread number f = some s') : s'.Inv := by
  rw [produce.eq_def] at hstep
  cases hidle : s.producers thread with
  | idle =>
    cases hsubscriber : s.subscribers number with
    | none =>
      rw [hidle, hsubscriber] at hstep
      cases hstep
    | some subscriber =>
      rw [hidle, hsubscriber] at hstep
      cases hstep
      have hno : ∀ id, s.producers thread ≠ .notifying id ∧ s.producers thread ≠ .pushing id := by
        intro id
        rw [hidle]
        exact ⟨nofun, nofun⟩
      refine ⟨h.table, ?_, ?_⟩
      · refine h.links.of_threads rfl rfl ?_
        intro other subscriber' hsubscriber'
        by_cases hother : other = number
        · -- the subscriber that was called
          subst hother
          have hsame : Function.update s.subscribers other (some (f subscriber).1) other =
            some subscriber' := hsubscriber'
          rw [Function.update_self] at hsame
          cases hsame
          refine ⟨subscriber, hsubscriber, ?_⟩
          intro fd trace excused hlinked halive hattached
          obtain ⟨id, hnotifier, hlookup, hwork⟩ := hlinked halive hattached
          obtain ⟨hkeeps, hleaves⟩ := hf subscriber
          refine ⟨id, hkeeps.trans hnotifier, hlookup, ?_⟩
          intro hlast hhas
          rcases hleaves with hleaves | hunchanged
          · refine .inl (.inr (.inr ⟨thread, .inl ?_⟩))
            rw [hnotifier] at hleaves
            show Function.update s.producers thread _ thread = _
            rw [Function.update_self, hleaves]
          · rw [hunchanged] at hhas
            rcases hwork hlast hhas with hin | hex
            · exact .inl (hin.of_update thread (hno id) rfl rfl rfl)
            · exact .inr hex
        · have hsame : Function.update s.subscribers number _ other = some subscriber' :=
            hsubscriber'
          rw [Function.update_of_ne hother] at hsame
          refine ⟨subscriber', hsame, ?_⟩
          intro fd trace excused hlinked
          refine hlinked.mono (fun _ hid => hid) (fun halive => halive) ?_ fun hex => hex
          exact fun id _ _ _ hin => .inl (hin.of_update thread (hno id) rfl rfl rfl)
      · refine h.signalled.of_update thread ?_ rfl rfl rfl rfl rfl
        intro id
        rw [hidle]
        exact nofun
  | notifying id =>
    rw [hidle] at hstep
    cases hstep
  | pushing id =>
    rw [hidle] at hstep
    cases hstep
  | signalling id =>
    rw [hidle] at hstep
    cases hstep

theorem notify_inv (h : s.Inv) {thread id : ℕ} (hthread : s.producers thread = .notifying id)
    (hs' : s' = { s with
      producers := Function.update s.producers thread (if s.alive then .pushing id else .idle) }) :
    s'.Inv := by
  subst hs'
  refine ⟨h.table, ?_, ?_⟩
  · refine h.links.of_threads rfl rfl ?_
    intro number subscriber hsubscriber
    refine ⟨subscriber, hsubscriber, fun fd trace excused hlinked => ?_⟩
    refine hlinked.mono (fun _ hid => hid) (fun halive => halive) ?_ fun hex => hex
    intro id' halive _ _ hin
    have halive' : s.alive = true := halive
    by_cases hid : id' = id
    · subst hid
      refine .inl (.inr (.inr ⟨thread, .inr ?_⟩))
      show Function.update s.producers thread _ thread = _
      rw [Function.update_self, if_pos halive']
    · refine .inl (hin.of_update thread ⟨?_, ?_⟩ rfl rfl rfl)
      · rw [hthread]
        exact fun heq => hid (Producer.notifying.inj heq).symm
      · rw [hthread]
        exact nofun
  · refine h.signalled.of_update thread ?_ rfl rfl rfl rfl rfl
    intro id'
    rw [hthread]
    exact nofun

theorem Table.of_eq {r r' : Reactor σ} (h : Table r) (hconnections : r'.connections = r.connections)
    (hstreaming : r'.streaming = r.streaming) (hnext : r'.nextStreamId = r.nextStreamId)
    (hadmitted : r'.admitted = r.admitted) : Table r' := by
  obtain ⟨hsorted, hsortedIds, hheld, hknown, hnumbers, hfresh⟩ := h
  rw [← hconnections] at hsorted hheld hknown hnumbers
  rw [← hstreaming] at hsortedIds hfresh
  rw [← hadmitted] at hknown
  rw [← hnext] at hfresh
  exact ⟨hsorted, hsortedIds, hheld, hknown, hnumbers, hfresh⟩

theorem notifyStream_eq (id : ℕ) (r : Reactor σ) : r.notifyStream id = { r with
    pendingStreams := if id ∈ r.pendingStreams then r.pendingStreams
      else r.pendingStreams ++ [id] } := by
  rw [Reactor.notifyStream]
  split_ifs <;> rfl

theorem mem_notifyStream {id id' : ℕ} {r : Reactor σ} :
    id' ∈ (r.notifyStream id).pendingStreams ↔ id' ∈ r.pendingStreams ∨ id' = id := by
  rw [notifyStream_eq]
  dsimp only
  split_ifs with hid
  · constructor
    · exact .inl
    · rintro (hold | rfl)
      · exact hold
      · exact hid
  · rw [List.mem_append, List.mem_singleton]

theorem push_inv (h : s.Inv) {thread id : ℕ} (hthread : s.producers thread = .pushing id) :
    (s.push thread id).Inv := by
  have hreactor := notifyStream_eq id s.reactor
  refine ⟨?_, ?_, ?_⟩
  · show Table (s.reactor.notifyStream id)
    rw [hreactor]
    exact h.table.of_eq rfl rfl rfl rfl
  · have hconnections : (s.push thread id).reactor.connections = s.reactor.connections := by
      show (s.reactor.notifyStream id).connections = _
      rw [hreactor]
    refine h.links.of_threads rfl hconnections ?_
    intro number subscriber hsubscriber
    refine ⟨subscriber, hsubscriber, fun fd trace excused hlinked => ?_⟩
    refine hlinked.mono ?_ (fun halive => halive) ?_ fun hex => hex
    · intro id' hid'
      show FlatMap.lookup id' (s.reactor.notifyStream id).streaming = some fd
      rw [hreactor]
      exact hid'
    · intro id' _ _ _ hin
      rcases hin with hin | hin | ⟨other, hin⟩
      · exact .inl (.inl (mem_notifyStream.2 (.inl hin)))
      · exact .inl (.inr (.inl hin))
      · by_cases hother : other = thread
        · -- the thread has pushed its id
          rw [hother, hthread] at hin
          rcases hin with hin | hin
          · cases hin
          · cases hin
            exact .inl (.inl (mem_notifyStream.2 (.inr rfl)))
        · refine .inl (.inr (.inr ⟨other, ?_⟩))
          show Function.update s.producers thread _ other = _ ∨ Function.update _ _ _ other = _
          rw [Function.update_of_ne hother]
          exact hin
  · intro id' hid'
    have hother : ∀ other, other = thread → ∀ id, s.producers other ≠ .signalling id := by
      intro other heq id
      rw [heq, hthread]
      exact nofun
    show 0 < s.eventFd ∨ Function.update s.producers thread (.signalling id)
      ((if id ∈ s.reactor.pendingStreams then s.pushedBy
        else Function.update s.pushedBy id thread) id') = _ ∨ _
    by_cases hold : id' ∈ s.reactor.pendingStreams
    · have hpusher : (if id ∈ s.reactor.pendingStreams then s.pushedBy
          else Function.update s.pushedBy id thread) id' = s.pushedBy id' := by
        split_ifs with hid
        · rfl
        · rw [Function.update_of_ne]
          rintro rfl
          exact hid hold
      rw [hpusher]
      rcases h.signalled id' hold with hyes | hyes | hyes
      · exact .inl hyes
      · have hne : s.pushedBy id' ≠ thread := fun heq => hother _ heq id' hyes
        rw [Function.update_of_ne hne]
        exact .inr (.inl hyes)
      · exact .inr (.inr hyes)
    · -- a new id: this thread signals next
      rcases mem_notifyStream.1 hid' with hin | rfl
      · exact absurd hin hold
      · rw [if_neg hold, Function.update_self, Function.update_self]
        exact .inr (.inl rfl)

theorem signalEventFd_pos (count : ℕ) : 0 < signalEventFd count := by
  rw [signalEventFd, kEventFdMax]
  split_ifs
  · exact Nat.succ_pos count
  · omega

theorem signal_inv (h : s.Inv) {thread id : ℕ} (hthread : s.producers thread = .signalling id)
    (hs' : s' = { s with
      eventFd := signalEventFd s.eventFd
      producers := Function.update s.producers thread .idle }) : s'.Inv := by
  subst hs'
  refine ⟨h.table, ?_, fun _ _ => .inl (signalEventFd_pos _)⟩
  refine h.links.of_threads rfl rfl ?_
  intro number subscriber hsubscriber
  refine ⟨subscriber, hsubscriber, fun fd trace excused hlinked => ?_⟩
  refine hlinked.mono (fun _ hid => hid) (fun halive => halive) ?_ fun hex => hex
  intro id' _ _ _ hin
  refine .inl (hin.of_update thread ⟨?_, ?_⟩ rfl rfl rfl)
  · rw [hthread]
    exact nofun
  · rw [hthread]
    exact nofun

/-! ### The reactor -/

theorem not_calling (h : s.executing = none) (call : ReactorCall σ) : s.phase ≠ .calling call := by
  intro hphase
  rw [executing, hphase] at h
  cases h

/-- A step of the reactor between its calls. -/
theorem Links.of_phase (h : s.Links) (hexecuting : s.executing = none)
    (hexecuting' : s'.executing = none)
    (hconnections : s'.reactor.connections = s.reactor.connections)
    (hstreaming : s'.reactor.streaming = s.reactor.streaming)
    (hsubscribers : s'.subscribers = s.subscribers) (halive : s'.alive = true → s.alive = true)
    (hflight : ∀ fd entry id, s'.alive = true →
      FlatMap.lookup fd s.reactor.connections = some entry →
      FlatMap.lookup id s.reactor.streaming = some fd → s.InFlight id → s'.InFlight id) :
    s'.Links := by
  refine ⟨?_, fun call hcall => absurd hcall (not_calling hexecuting' call)⟩
  intro fd entry subscriber hentry _ hsubscriber
  rw [hconnections] at hentry
  rw [hsubscribers] at hsubscriber
  have hlinked := h.resting fd entry subscriber hentry (by rw [hexecuting]; exact nofun) hsubscriber
  refine hlinked.mono ?_ halive ?_ fun hex => hex
  · intro id hid
    rw [hstreaming]
    exact hid
  · exact fun id hyes hid _ hin => .inl (hflight fd entry id hyes hentry hid hin)

theorem InFlight.of_drained {id : ℕ} (h : s.InFlight id)
    (hpending : s'.reactor.pendingStreams = s.reactor.pendingStreams)
    (hdrained : id ∈ s.drained → id ∈ s'.drained) (hproducers : s'.producers = s.producers) :
    s'.InFlight id := by
  rcases h with h | h | ⟨thread, h⟩
  · exact .inl (by rw [hpending]; exact h)
  · exact .inr (.inl (hdrained h))
  · exact .inr (.inr ⟨thread, by rw [hproducers]; exact h⟩)

/-- The phases other than those in which the pending ids wait for the reactor. -/
theorem Signalled.of_phase (h : s.Signalled) (hdraining : s.phase ≠ .draining)
    (hswapping : s.phase ≠ .swapping) {id : ℕ} (hid : id ∈ s.reactor.pendingStreams) :
    0 < s.eventFd ∨ s.producers (s.pushedBy id) = .signalling id := by
  rcases h id hid with h | h | h | h
  · exact .inl h
  · exact .inr h
  · exact absurd h hdraining
  · exact absurd h hswapping

/-- The reactor reads the eventfd, or has found it empty. -/
theorem drain_inv (h : s.Inv) (hexecuting : s.executing = none) (hdrained : s.drained = [])
    {eventFd : ℕ} {phase : ReactorPhase σ}
    (hphase : phase = .draining ∨ phase = .swapping) :
    { s with eventFd := eventFd, phase := phase }.Inv := by
  refine ⟨h.table, ?_, fun _ _ => .inr (.inr hphase)⟩
  refine h.links.of_phase hexecuting ?_ rfl rfl rfl (fun hyes => hyes) ?_
  · rcases hphase with rfl | rfl <;> rfl
  · intro fd entry id _ _ _ hin
    refine hin.of_drained rfl ?_ rfl
    rw [hdrained]
    exact fun hmem => absurd hmem List.not_mem_nil

theorem swap_inv (h : s.Inv) (hphase : s.phase = .swapping) :
    { s with
      phase := .waking s.reactor.pendingStreams
      reactor := { s.reactor with pendingStreams := [] } }.Inv := by
  refine ⟨h.table.of_eq rfl rfl rfl rfl, ?_, fun _ hmem => absurd hmem List.not_mem_nil⟩
  refine h.links.of_phase (by rw [executing, hphase]) rfl rfl rfl rfl (fun hyes => hyes) ?_
  intro fd entry id _ _ _ hin
  rcases hin with hin | hin | hin
  · exact .inr (.inl hin)
  · rw [drained, hphase] at hin
    exact absurd hin List.not_mem_nil
  · exact .inr (.inr hin)

/-- The reactor calls a connection.  It takes at most one id from the list, that of a notification
for this connection. -/
theorem enter_inv (h : s.Inv) (hexecuting : s.executing = none) (hdraining : s.phase ≠ .draining)
    (hswapping : s.phase ≠ .swapping) {fd : Fd} {entry : ConnectionEntry σ}
    (hentry : FlatMap.lookup fd s.reactor.connections = some entry)
    {occurrence : Connection.Occurrence σ} {catches : Bool} {ids : Option (List ℕ)}
    (hcatches : catches = true → ids = none)
    (hids : ∀ id ∈ s.drained, id ∈ ids.getD [] ∨
      FlatMap.lookup id s.reactor.streaming = some fd ∧ ∃ fuel, occurrence = .streamNotified fuel) :
    (s.enter fd occurrence entry catches ids).Inv := by
  have hheld := h.table.held fd entry hentry
  have hheld' := Connection.occur_held entry.environment hheld occurrence
  have htrace := Connection.occur_trace entry.environment entry.connection occurrence
  rcases hdriven : Connection.occur entry.environment entry.connection occurrence with ⟨c, interest⟩
  rw [hdriven] at hheld' htrace
  have henter : s.enter fd occurrence entry catches ids = { s with phase := .calling ⟨fd, entry, c,
      interest, c.trace.drop entry.connection.trace.length, catches, ids⟩ } := by
    rw [enter, hdriven]
  rw [henter]
  -- an id that is not there any more was for this connection
  have hflight : ∀ id, s.InFlight id → { s with phase := .calling ⟨fd, entry, c, interest,
      c.trace.drop entry.connection.trace.length, catches, ids⟩ }.InFlight id ∨
        FlatMap.lookup id s.reactor.streaming = some fd ∧
          ∃ fuel, occurrence = .streamNotified fuel := by
    intro id hin
    rcases hin with hin | hin | hin
    · exact .inl (.inl hin)
    · rcases hids id hin with hrest | htaken
      · exact .inl (.inr (.inl hrest))
      · exact .inr htaken
    · exact .inl (.inr (.inr hin))
  refine ⟨h.table, ⟨?_, ?_⟩, ?_⟩
  · intro fd' entry' subscriber hentry' hresting hsubscriber
    have hne : fd' ≠ fd := fun heq => hresting (congrArg some heq.symm)
    have hlinked := h.links.resting fd' entry' subscriber hentry' (by rw [hexecuting]; exact nofun)
      hsubscriber
    refine hlinked.mono (fun _ hid => hid) (fun hyes => hyes) ?_ fun hex => hex
    intro id _ hid _ hin
    rcases hflight id hin with hin | ⟨hid', -⟩
    · exact .inl hin
    · exact absurd (Option.some.inj (hid.symm.trans hid')) hne
  · intro call hcall
    cases hcall
    refine ⟨hentry, hheld', hcatches, entry.connection.trace,
      (List.prefix_iff_eq_append.1 htrace).symm, ?_⟩
    intro subscriber hsubscriber halive hattached
    have hlinked := h.links.resting fd entry subscriber hentry (by rw [hexecuting]; exact nofun)
      hsubscriber
    refine hlinked.mono (fun _ hid => hid) (fun hyes => hyes) ?_ False.elim halive hattached
    intro id _ _ hlast hin
    rcases hflight id hin with hin | ⟨-, fuel, rfl⟩
    · exact .inl hin
    · -- the call that took the id pulls
      refine .inr ?_
      cases interest with
      | none => exact .inr rfl
      | some interest =>
        obtain ⟨bytes, answer, hpulled⟩ :=
          Connection.onStreamNotified_pulls hheld hattached hlast hdriven
        refine .inl ⟨(entry.connection.ticks, .pulled bytes answer), ?_, rfl⟩
        obtain ⟨later, hlater⟩ := hpulled
        show _ ∈ c.trace.drop entry.connection.trace.length
        rw [← hlater, List.append_assoc, List.drop_left]
        exact List.mem_append_left _ (List.mem_singleton_self _)
  · intro id hid
    rcases h.signalled.of_phase hdraining hswapping hid with hyes | hyes
    · exact .inl hyes
    · exact .inr (.inl hyes)

/-- A call that is not for a notification. -/
theorem call_inv (h : s.Inv) (hphase : s.phase = .waiting) {fd : Fd}
    {occurrence : Connection.Occurrence σ} {catches : Bool}
    (hstep : s.call fd occurrence catches = some s') : s'.Inv := by
  rw [call, Option.map_eq_some_iff] at hstep
  obtain ⟨entry, hentry, rfl⟩ := hstep
  refine enter_inv h (by rw [executing, hphase]) (by rw [hphase]; exact nofun)
    (by rw [hphase]; exact nofun) hentry (fun _ => rfl) ?_
  intro id hmem
  rw [drained, hphase] at hmem
  exact absurd hmem List.not_mem_nil

theorem wakeNext_inv (h : s.Inv) {ids : List ℕ} (hphase : s.phase = .waking ids) (fuel : ℕ) :
    (s.wakeNext fuel ids).Inv := by
  have hexecuting : s.executing = none := by rw [executing, hphase]
  have hdrained : s.drained = ids := by rw [drained, hphase]
  have hdraining : s.phase ≠ .draining := by
    rw [hphase]
    exact nofun
  have hswapping : s.phase ≠ .swapping := by
    rw [hphase]
    exact nofun
  -- an id that no connection has is skipped
  have hskip : ∀ phase : ReactorPhase σ, { s with phase := phase }.executing = none →
      (∀ fd entry id, FlatMap.lookup fd s.reactor.connections = some entry →
        FlatMap.lookup id s.reactor.streaming = some fd → id ∈ ids →
          id ∈ { s with phase := phase }.drained) → { s with phase := phase }.Inv := by
    intro phase hexecuting' hstays
    refine ⟨h.table, ?_, ?_⟩
    · refine h.links.of_phase hexecuting hexecuting' rfl rfl rfl (fun hyes => hyes) ?_
      intro fd entry id _ hentry hid hin
      refine hin.of_drained rfl ?_ rfl
      rw [hdrained]
      exact hstays fd entry id hentry hid
    · intro id hid
      rcases h.signalled.of_phase hdraining hswapping hid with hyes | hyes
      · exact .inl hyes
      · exact .inr (.inl hyes)
  cases ids with
  | nil => exact hskip .waiting rfl fun _ _ _ _ _ hmem => hmem
  | cons id ids =>
    rw [wakeNext]
    cases hlookup : FlatMap.lookup id s.reactor.streaming with
    | none =>
      refine hskip (.waking ids) rfl ?_
      intro fd entry id' _ hid' hmem
      refine (List.mem_cons.1 hmem).resolve_left ?_
      rintro rfl
      cases hlookup.symm.trans hid'
    | some fd =>
      dsimp only
      cases hentry : FlatMap.lookup fd s.reactor.connections with
      | none =>
        refine hskip (.waking ids) rfl ?_
        intro fd' entry id' hentry' hid' hmem
        refine (List.mem_cons.1 hmem).resolve_left ?_
        rintro rfl
        cases hlookup.symm.trans hid'
        cases hentry.symm.trans hentry'
      | some entry =>
        refine enter_inv h hexecuting hdraining hswapping hentry nofun ?_
        intro id' hmem
        rw [hdrained] at hmem
        rcases List.mem_cons.1 hmem with rfl | hmem
        · exact .inr ⟨hlookup, fuel, rfl⟩
        · exact .inl hmem

/-- A connection is put into the table, with a new number or in the place of the one it was. -/
theorem Table.put {r r' : Reactor σ} (h : Table r) {fd : Fd} {entry : ConnectionEntry σ}
    (hconnections : r'.connections = FlatMap.insertOrAssign fd entry r.connections)
    (hstreaming : r'.streaming = r.streaming) (hnext : r'.nextStreamId = r.nextStreamId)
    (hadmitted : r.admitted ≤ r'.admitted) (hheld : Held entry.connection)
    (hknown : entry.number < r'.admitted)
    (hnumber : ∀ fd' entry', FlatMap.lookup fd' r.connections = some entry' →
      entry'.number = entry.number → fd' = fd) : Table r' := by
  refine ⟨?_, by rw [hstreaming]; exact h.sortedIds, ?_, ?_, ?_, ?_⟩
  · rw [hconnections]
    exact h.sorted.insertOrAssign fd entry
  · intro fd' entry' hentry'
    rw [hconnections] at hentry'
    rcases FlatMap.lookup_insertOrAssign_cases hentry' with ⟨-, rfl⟩ | ⟨-, hold⟩
    · exact hheld
    · exact h.held fd' entry' hold
  · intro fd' entry' hentry'
    rw [hconnections] at hentry'
    rcases FlatMap.lookup_insertOrAssign_cases hentry' with ⟨-, rfl⟩ | ⟨-, hold⟩
    · exact hknown
    · exact (h.known fd' entry' hold).trans_le hadmitted
  · intro fd₁ fd₂ entry₁ entry₂ h₁ h₂ heq
    rw [hconnections] at h₁ h₂
    rcases FlatMap.lookup_insertOrAssign_cases h₁ with ⟨hfd₁, hentry₁⟩ | ⟨-, hold₁⟩
    · rcases FlatMap.lookup_insertOrAssign_cases h₂ with ⟨hfd₂, -⟩ | ⟨-, hold₂⟩
      · exact hfd₁.trans hfd₂.symm
      · rw [hentry₁] at heq
        exact hfd₁.trans (hnumber fd₂ entry₂ hold₂ heq.symm).symm
    · rcases FlatMap.lookup_insertOrAssign_cases h₂ with ⟨hfd₂, hentry₂⟩ | ⟨-, hold₂⟩
      · rw [hentry₂] at heq
        exact (hnumber fd₁ entry₁ hold₁ heq).trans hfd₂.symm
      · exact h.numbers fd₁ fd₂ entry₁ entry₂ hold₁ hold₂ heq
  · intro id fd' hid
    rw [hstreaming] at hid
    rw [hnext]
    exact h.fresh id fd' hid

theorem accept_inv (h : s.Inv) (hphase : s.phase = .waiting) {fd : Fd}
    (hopen : ¬ s.reactor.isOpen server fd = true) (environment : Environment σ) (transport : σ)
    (subscriber : Option (SseOptions × TimePoint)) :
    (s.accept server fd environment transport subscriber).Inv := by
  have hadmitted : s.reactor.admitConnection server fd (.admitted environment transport) =
      { s.reactor.record (.admitted s.reactor.batches s.reactor.admitted fd) with
        connections := FlatMap.insertOrAssign fd ⟨s.reactor.admitted, environment,
          Connection.init environment transport⟩ s.reactor.connections
        connectionsActive := s.reactor.connectionsActive + 1
        admitted := s.reactor.admitted + 1 } := by
    rw [Reactor.admitConnection.eq_def, if_neg hopen]
  have hnew : ∀ fd' entry', FlatMap.lookup fd' s.reactor.connections = some entry' →
      entry'.number ≠ s.reactor.admitted :=
    fun fd' entry' hentry' => (h.table.known fd' entry' hentry').ne
  refine ⟨?_, ⟨?_, ?_⟩, ?_⟩
  · show Table (s.reactor.admitConnection server fd (.admitted environment transport))
    rw [hadmitted]
    refine h.table.put rfl rfl rfl (Nat.le_succ _) (Connection.held_init environment transport)
      (Nat.lt_succ_self _) ?_
    exact fun fd' entry' hentry' heq => absurd heq (hnew fd' entry' hentry')
  · intro fd' entry' subscriber' hentry' _ hsubscriber'
    have hentry'' : FlatMap.lookup fd'
        (s.reactor.admitConnection server fd (.admitted environment transport)).connections =
          some entry' :=
      hentry'
    rw [hadmitted] at hentry''
    rcases FlatMap.lookup_insertOrAssign_cases hentry'' with ⟨-, rfl⟩ | ⟨-, hold⟩
    · -- its trace is empty
      rintro - ⟨⟩
    · have hsame : Function.update s.subscribers s.reactor.admitted _ entry'.number =
        some subscriber' := hsubscriber'
      rw [Function.update_of_ne (hnew fd' entry' hold)] at hsame
      have hlinked := h.links.resting fd' entry' subscriber' hold
        (by rw [executing, hphase]; rintro ⟨⟩) hsame
      refine hlinked.mono ?_ (fun hyes => hyes) ?_ fun hex => hex
      · intro id hid
        show FlatMap.lookup id
          (s.reactor.admitConnection server fd (.admitted environment transport)).streaming = _
        rw [hadmitted]
        exact hid
      · intro id _ _ _ hin
        refine .inl (hin.of_drained ?_ (fun hmem => hmem) rfl)
        show (s.reactor.admitConnection server fd
          (.admitted environment transport)).pendingStreams = _
        rw [hadmitted]
        rfl
  · intro call hcall
    cases hphase.symm.trans hcall
  · intro id hid
    have hid' : id ∈ (s.reactor.admitConnection server fd
      (.admitted environment transport)).pendingStreams := hid
    rw [hadmitted] at hid'
    exact h.signalled id hid'

/-! ### The events of a call -/

/-- What an event of a call leaves alone. -/
structure Carried (number : ℕ) (s s' : StreamSystem σ) : Prop where
  phase : s'.phase = s.phase
  alive : s'.alive = s.alive
  eventFd : s'.eventFd = s.eventFd
  producers : s'.producers = s.producers
  pushedBy : s'.pushedBy = s.pushedBy
  connections : s'.reactor.connections = s.reactor.connections
  pending : s'.reactor.pendingStreams = s.reactor.pendingStreams
  /-- The table stays in order. -/
  table : Table s.reactor → Table s'.reactor
  /-- No id is taken from the table. -/
  streaming : Table s.reactor → ∀ id fd, FlatMap.lookup id s.reactor.streaming = some fd →
    FlatMap.lookup id s'.reactor.streaming = some fd
  /-- No other subscriber is touched. -/
  others : ∀ other, other ≠ number → s'.subscribers other = s.subscribers other

theorem Carried.inFlight {number : ℕ} (h : Carried number s s') {id : ℕ} (hin : s.InFlight id) :
    s'.InFlight id :=
  hin.of_drained h.pending (by rw [drained_of_phase h.phase]; exact fun hmem => hmem) h.producers

/-- Only a subscriber is called. -/
theorem carried_update (number : ℕ) (subscriber : Option (SseSubscriber ℕ)) (s : StreamSystem σ) :
    Carried number s { s with subscribers := Function.update s.subscribers number subscriber } :=
  ⟨rfl, rfl, rfl, rfl, rfl, rfl, rfl, fun h => h, fun _ _ _ hid => hid,
    fun _ hother => Function.update_of_ne hother ..⟩

theorem carried_refl (number : ℕ) (s : StreamSystem σ) : Carried number s s :=
  ⟨rfl, rfl, rfl, rfl, rfl, rfl, rfl, fun h => h, fun _ _ _ hid => hid, fun _ _ => rfl⟩

/-- `make_notifier` takes a new id. -/
theorem Table.makeNotifier {r : Reactor σ} (h : Table r) (fd : Fd) (number : ℕ) :
    Table (r.makeNotifier fd number) := by
  refine ⟨h.sorted, h.sortedIds.insertOrAssign _ _, h.held, h.known, h.numbers, ?_⟩
  intro id fd' hid
  show id < r.nextStreamId + 1
  rcases FlatMap.lookup_insertOrAssign_cases hid with ⟨rfl, -⟩ | ⟨-, hid'⟩
  · exact Nat.lt_succ_self _
  · exact Nat.lt_succ_of_lt (h.fresh id fd' hid')

theorem lookup_makeNotifier {r : Reactor σ} (h : Table r) (fd : Fd) (number : ℕ) {id : ℕ} {fd' : Fd}
    (hid : FlatMap.lookup id r.streaming = some fd') :
    FlatMap.lookup id (r.makeNotifier fd number).streaming = some fd' := by
  exact (FlatMap.lookup_insertOrAssign_of_ne (h.fresh id fd' hid).ne _ _).trans hid

theorem carryOut_carried {fd : Fd} {number : ℕ} {now : TimePoint} {event : Event}
    (h : s.carryOut fd number now event = some s') : Carried number s s' := by
  have hsame : Carried number s s := carried_refl number s
  cases event with
  | attached =>
    cases h
    exact ⟨rfl, rfl, rfl, rfl, rfl, rfl, rfl, fun htable => htable.makeNotifier fd number,
      fun htable _ _ hid => lookup_makeNotifier htable fd number hid,
      fun _ hother => Function.update_of_ne hother ..⟩
  | pulled bytes answer =>
    rw [carryOut] at h
    cases hsubscriber : s.subscribers number with
    | none =>
      rw [hsubscriber] at h
      cases h
      exact hsame
    | some subscriber =>
      rw [hsubscriber] at h
      dsimp only at h
      split_ifs at h
      cases h
      exact carried_update number _ s
  | detached =>
    cases h
    exact carried_update number _ s
  | _ =>
    cases h
    exact hsame

/-- The subscriber of the connection that is called, after an event of the call. -/
theorem carryOut_linked {fd : Fd} {number tick : ℕ} {now : TimePoint} {event : Event}
    (h : s.carryOut fd number now event = some s') (htable : Table s.reactor)
    {performed : List (ℕ × Event)} {excused excused' : Prop}
    (hlinked : ∀ subscriber, s.subscribers number = some subscriber →
      s.Linked fd performed excused subscriber)
    (hexcused : event.isPulled = false → excused → excused') :
    ∀ subscriber, s'.subscribers number = some subscriber →
      s'.Linked fd (performed ++ [(tick, event)]) excused' subscriber := by
  have hcarried := carryOut_carried h
  intro subscriber' hsubscriber' halive hattached
  rw [Connection.streamStatus_concat] at hattached
  have halive' : s.alive = true := by
    rw [← hcarried.alive]
    exact halive
  -- an event that is not about the stream
  have hother : s'.subscribers number = s.subscribers number → event.isPulled = false →
      (streamStatus performed).post (tick, event) = streamStatus performed →
        ∃ id, subscriber'.notifier = some id ∧ FlatMap.lookup id s'.reactor.streaming = some fd ∧
          ((streamStatus (performed ++ [(tick, event)])).last = some .idle →
            HasWork subscriber' → s'.InFlight id ∨ excused') := by
    intro hsame hnot hstatus
    rw [Connection.streamStatus_concat, hstatus]
    rw [hstatus] at hattached
    rw [hsame] at hsubscriber'
    obtain ⟨id, hnotifier, hlookup, hwork⟩ := hlinked subscriber' hsubscriber' halive' hattached
    refine ⟨id, hnotifier, hcarried.streaming htable id fd hlookup, ?_⟩
    intro hlast hhas
    rcases hwork hlast hhas with hin | hex
    · exact .inl (hcarried.inFlight hin)
    · exact .inr (hexcused hnot hex)
  cases event with
  | attached =>
    -- the subscriber gets the new id, and has not been pulled since
    cases h
    have hsame : Function.update s.subscribers number ((s.subscribers number).map
        fun subscriber => subscriber.onAttached s.reactor.nextStreamId) number =
          some subscriber' := hsubscriber'
    rw [Function.update_self, Option.map_eq_some_iff] at hsame
    obtain ⟨subscriber, -, rfl⟩ := hsame
    refine ⟨s.reactor.nextStreamId, rfl, ?_, ?_⟩
    · exact FlatMap.lookup_insertOrAssign_self ..
    · intro hlast
      rw [Connection.streamStatus_concat] at hlast
      cases hlast
  | pulled bytes answer =>
    rw [carryOut] at h
    cases hsubscriber : s.subscribers number with
    | none =>
      rw [hsubscriber] at h
      cases h
      cases hsubscriber.symm.trans hsubscriber'
    | some subscriber =>
      rw [hsubscriber] at h
      dsimp only at h
      split_ifs at h with hanswer
      cases h
      have hsame : Function.update s.subscribers number _ number = some subscriber' := hsubscriber'
      rw [Function.update_self] at hsame
      cases hsame
      obtain ⟨id, hnotifier, hlookup, -⟩ := hlinked subscriber hsubscriber halive' hattached
      obtain ⟨-, hqueue, hclosed, -, hkeeps⟩ := subscriber.pull_spec now
      refine ⟨id, hkeeps.trans hnotifier, hlookup, ?_⟩
      -- an idle answer leaves no work
      intro hlast hhas
      rw [Connection.streamStatus_concat] at hlast
      have hidle : some (answer.getD .finished) = some .idle := hlast
      rw [← hanswer.2, Option.getD_some, Option.some.injEq] at hidle
      obtain ⟨-, hopen⟩ := SseSubscriber.of_pull_eq_idle hidle
      rcases hhas with hhas | hhas
      · exact absurd hqueue hhas
      · cases (hclosed.trans hopen).symm.trans hhas
  | detached => cases hattached
  | _ =>
    cases h
    exact hother rfl rfl rfl

theorem perform_inv (h : s.Inv) {call : ReactorCall σ} (hphase : s.phase = .calling call)
    {tick : ℕ} {event : Event} {events : List (ℕ × Event)}
    (hevents : call.events = (tick, event) :: events) {now : TimePoint}
    (hstep : { s with phase := .calling { call with events := events } }.carryOut call.fd
      call.entry.number now event = some s') : s'.Inv := by
  obtain ⟨hentry, hheld, hcatches, performed, htrace, hlinked⟩ := h.links.calling call hphase
  have hcarried := carryOut_carried hstep
  have hexecuting : s.executing = some call.fd := by rw [executing, hphase]
  have hflight : ∀ id, s.InFlight id →
      { s with phase := .calling { call with events := events } }.InFlight id := by
    intro id hin
    refine hin.of_drained rfl ?_ rfl
    rw [drained, hphase]
    exact fun hmem => hmem
  refine ⟨hcarried.table h.table, ⟨?_, ?_⟩, ?_⟩
  · intro fd entry subscriber hentry' hresting hsubscriber
    rw [hcarried.connections] at hentry'
    have hne : fd ≠ call.fd := by
      rintro rfl
      rw [executing, hcarried.phase] at hresting
      exact hresting rfl
    have hnumber : entry.number ≠ call.entry.number :=
      fun heq => hne (h.table.numbers fd call.fd entry call.entry hentry' hentry heq)
    rw [hcarried.others _ hnumber] at hsubscriber
    have hold := h.links.resting fd entry subscriber hentry'
      (by rw [hexecuting]; exact fun heq => hne (Option.some.inj heq).symm) hsubscriber
    refine hold.mono (fun id hid => hcarried.streaming h.table id fd hid)
      (fun hyes => by rw [hcarried.alive] at hyes; exact hyes) ?_ fun hex => hex
    exact fun id _ _ _ hin => .inl (hcarried.inFlight (hflight id hin))
  · intro call' hcall'
    rw [hcarried.phase] at hcall'
    cases hcall'
    refine ⟨by rw [hcarried.connections]; exact hentry, hheld, hcatches,
      performed ++ [(tick, event)], ?_, ?_⟩
    · rw [List.append_assoc, htrace, hevents]
      rfl
    · have hbegun : ∀ subscriber, s.subscribers call.entry.number = some subscriber →
          { s with phase := .calling { call with events := events } }.Linked call.fd performed
            call.Excused subscriber := by
        intro subscriber hsubscriber
        refine (hlinked subscriber hsubscriber).mono (fun _ hid => hid) (fun hyes => hyes) ?_
          fun hex => hex
        exact fun id _ _ _ hin => .inl (hflight id hin)
      refine carryOut_linked hstep h.table hbegun ?_
      rintro hnot (⟨entry, hmem, hpulled⟩ | hnone)
      · rw [hevents] at hmem
        refine .inl ⟨entry, (List.mem_cons.1 hmem).resolve_left ?_, hpulled⟩
        rintro rfl
        cases hnot.symm.trans hpulled
      · exact .inr hnone
  · intro id hid
    rw [hcarried.pending] at hid
    rw [hcarried.eventFd, hcarried.producers, hcarried.pushedBy]
    rcases h.signalled.of_phase (by rw [hphase]; exact nofun) (by rw [hphase]; exact nofun) hid
      with hyes | hyes
    · exact .inl hyes
    · exact .inr (.inl hyes)

/-! ### The end of a call -/

/-- A connection is closed.  Nothing is asked of its own subscriber. -/
theorem close_inv (htable : Table s.reactor) (hsignalled : s.Signalled)
    (hexecuting : s.executing = none) {fd : Fd} {entry : ConnectionEntry σ}
    (hentry : FlatMap.lookup fd s.reactor.connections = some entry)
    (hlinks : ∀ fd' entry' subscriber, FlatMap.lookup fd' s.reactor.connections = some entry' →
      fd' ≠ fd → s.subscribers entry'.number = some subscriber →
        s.Linked fd' entry'.connection.trace False subscriber) (held : Bool) :
    (s.close fd entry.number held).Inv := by
  have hclose : s.reactor.closeConnection fd = { s.reactor.record (.closed entry.number) with
      streaming := s.reactor.streaming.filter fun mapping => mapping.2 != fd
      connections := s.reactor.connections.filter fun e => e.1 != fd
      connectionsActive := s.reactor.connectionsActive - 1 } := by
    rw [Reactor.closeConnection, hentry]
  have hconnections : ∀ fd' entry',
      FlatMap.lookup fd' (s.reactor.connections.filter fun e => e.1 != fd) = some entry' ↔
        FlatMap.lookup fd' s.reactor.connections = some entry' ∧ fd' ≠ fd := by
    intro fd' entry'
    rw [FlatMap.lookup_filter_eq_some_iff htable.sorted, bne_iff_ne]
  have hstreaming : ∀ id fd',
      FlatMap.lookup id (s.reactor.streaming.filter fun mapping => mapping.2 != fd) = some fd' ↔
        FlatMap.lookup id s.reactor.streaming = some fd' ∧ fd' ≠ fd := by
    intro id fd'
    rw [FlatMap.lookup_filter_eq_some_iff htable.sortedIds, bne_iff_ne]
  -- what the destructor does to the subscriber changes nothing else
  obtain ⟨subscribers, heq, hsubscribers⟩ : ∃ subscribers,
      s.close fd entry.number held =
        { s with reactor := s.reactor.closeConnection fd, subscribers := subscribers } ∧
      ∀ other, other ≠ entry.number → subscribers other = s.subscribers other := by
    cases held with
    | false => exact ⟨s.subscribers, rfl, fun _ _ => rfl⟩
    | true => exact ⟨_, rfl, fun _ hother => Function.update_of_ne hother ..⟩
  rw [heq, hclose]
  refine ⟨⟨htable.sorted.filter _, htable.sortedIds.filter _, ?_, ?_, ?_, ?_⟩, ⟨?_, ?_⟩, ?_⟩
  · exact fun fd' entry' hentry' => htable.held fd' entry' ((hconnections fd' entry').1 hentry').1
  · exact fun fd' entry' hentry' => htable.known fd' entry' ((hconnections fd' entry').1 hentry').1
  · intro fd₁ fd₂ entry₁ entry₂ h₁ h₂
    exact htable.numbers fd₁ fd₂ entry₁ entry₂ ((hconnections fd₁ entry₁).1 h₁).1
      ((hconnections fd₂ entry₂).1 h₂).1
  · exact fun id fd' hid => htable.fresh id fd' ((hstreaming id fd').1 hid).1
  · intro fd' entry' subscriber hentry' _ hsubscriber
    obtain ⟨hentry', hne⟩ := (hconnections fd' entry').1 hentry'
    have hnumber : entry'.number ≠ entry.number :=
      fun hsame => hne (htable.numbers fd' fd entry' entry hentry' hentry hsame)
    have hsubscriber' : s.subscribers entry'.number = some subscriber := by
      rw [← hsubscribers _ hnumber]
      exact hsubscriber
    refine (hlinks fd' entry' subscriber hentry' hne hsubscriber').mono ?_ (fun hyes => hyes) ?_
      fun hex => hex
    · exact fun id hid => (hstreaming id fd').2 ⟨hid, hne⟩
    · exact fun id _ _ _ hin => .inl (hin.of_drained rfl (fun hmem => hmem) rfl)
  · exact fun call hcall => absurd hcall (not_calling hexecuting call)
  · exact hsignalled

theorem drained_resume {call : ReactorCall σ} (h : s.phase = .calling call)
    (hphase : s'.phase = resume call.ids) : s'.drained = s.drained := by
  rw [drained, drained, h, hphase]
  show _ = call.ids.getD []
  cases call.ids <;> rfl

theorem executing_resume (ids : Option (List ℕ)) (h : s.phase = resume ids) :
    s.executing = none := by
  rw [executing, h]
  cases ids <;> rfl

/-- A call has returned: its connection rests, or is closed. -/
theorem finish_inv (h : s.Inv) {call : ReactorCall σ} (hphase : s.phase = .calling call)
    (hevents : call.events = []) {interest : EpollInterest} (hinterest : call.interest = some interest)
    (rearmFails : Bool) : (s.finish call interest rearmFails).Inv := by
  obtain ⟨hentry, hheld, -, performed, htrace, hlinked⟩ := h.links.calling call hphase
  rw [hevents, List.append_nil] at htrace
  -- the connection is stored
  obtain ⟨s₁, hs₁⟩ : ∃ s₁ : StreamSystem σ, s₁ = { s with
      phase := resume call.ids
      reactor := { s.reactor with
        connections := FlatMap.insertOrAssign call.fd
          { call.entry with connection := call.connection } s.reactor.connections } } := ⟨_, rfl⟩
  have hdrained : s₁.drained = s.drained := drained_resume hphase (by rw [hs₁])
  have hexecuting : s₁.executing = none := executing_resume call.ids (by rw [hs₁])
  have hflight : ∀ id, s.InFlight id → s₁.InFlight id := by
    intro id hin
    refine hin.of_drained (by rw [hs₁]) ?_ (by rw [hs₁])
    rw [hdrained]
    exact fun hmem => hmem
  have hinv : s₁.Inv := by
    refine ⟨?_, ⟨?_, fun call' hcall' => absurd hcall' (not_calling hexecuting call')⟩, ?_⟩
    · rw [hs₁]
      refine h.table.put rfl rfl rfl (le_refl _) hheld (h.table.known call.fd call.entry hentry) ?_
      exact fun fd' entry' hentry' heq => h.table.numbers fd' call.fd entry' call.entry hentry'
        hentry heq
    · intro fd entry subscriber hentry' _ hsubscriber
      have hstreaming : s₁.reactor.streaming = s.reactor.streaming := by rw [hs₁]
      have halive : s₁.alive = s.alive := by rw [hs₁]
      have hsubscriber' : s.subscribers entry.number = some subscriber := by
        rw [hs₁] at hsubscriber
        exact hsubscriber
      rw [hs₁] at hentry'
      rcases FlatMap.lookup_insertOrAssign_cases hentry' with ⟨rfl, rfl⟩ | ⟨hne, hold⟩
      · -- the call is over, so it has pulled
        have hover : ¬ call.Excused := by
          rintro (⟨e, hmem, -⟩ | hnone)
          · rw [hevents] at hmem
            exact absurd hmem List.not_mem_nil
          · cases hinterest.symm.trans hnone
        show s₁.Linked call.fd call.connection.trace False subscriber
        rw [htrace]
        refine (hlinked subscriber hsubscriber').mono ?_ ?_ ?_ hover
        · rw [hstreaming]
          exact fun _ hid => hid
        · rw [halive]
          exact fun hyes => hyes
        · exact fun id _ _ _ hin => .inl (hflight id hin)
      · have hresting : s.executing ≠ some fd := by
          rw [executing, hphase]
          exact fun heq => hne (Option.some.inj heq).symm
        refine (h.links.resting fd entry subscriber hold hresting hsubscriber').mono ?_ ?_ ?_
          fun hex => hex
        · rw [hstreaming]
          exact fun _ hid => hid
        · rw [halive]
          exact fun hyes => hyes
        · exact fun id _ _ _ hin => .inl (hflight id hin)
    · intro id hid
      rw [hs₁] at hid ⊢
      rcases h.signalled.of_phase (by rw [hphase]; exact nofun) (by rw [hphase]; exact nofun) hid
        with hyes | hyes
      · exact .inl hyes
      · exact .inr (.inl hyes)
  rw [finish]
  dsimp only
  rw [← hs₁]
  split_ifs
  · have hstored : FlatMap.lookup call.fd s₁.reactor.connections =
        some { call.entry with connection := call.connection } := by
      rw [hs₁]
      exact FlatMap.lookup_insertOrAssign_self ..
    refine close_inv hinv.table hinv.signalled hexecuting hstored ?_ _
    intro fd' entry' subscriber hentry' _ hsubscriber
    exact hinv.links.resting fd' entry' subscriber hentry' (by rw [hexecuting]; exact nofun)
      hsubscriber
  · exact hinv

/-- An exception leaves a call.  The connection is closed, or the reactor stops. -/
theorem throw_inv (h : s.Inv) {call : ReactorCall σ} (hphase : s.phase = .calling call)
    (hcatches : call.catches = true) (held : Bool) :
    ({ s with phase := .waiting }.close call.fd call.entry.number held).Inv := by
  obtain ⟨hentry, -, hids, -⟩ := h.links.calling call hphase
  have hdrained : s.drained = [] := by
    rw [drained, hphase]
    show call.ids.getD [] = []
    rw [hids hcatches]
    rfl
  refine close_inv (s := { s with phase := .waiting }) h.table ?_ rfl hentry ?_ held
  · intro id hid
    rcases h.signalled.of_phase (by rw [hphase]; exact nofun) (by rw [hphase]; exact nofun) hid
      with hyes | hyes
    · exact .inl hyes
    · exact .inr (.inl hyes)
  · intro fd entry subscriber hentry' hne hsubscriber
    have hresting : s.executing ≠ some fd := by
      rw [executing, hphase]
      exact fun heq => hne (Option.some.inj heq).symm
    refine (h.links.resting fd entry subscriber hentry' hresting hsubscriber).mono
      (fun _ hid => hid) (fun hyes => hyes) ?_ fun hex => hex
    intro id _ _ _ hin
    refine .inl (hin.of_drained rfl ?_ rfl)
    rw [hdrained]
    exact fun hmem => absurd hmem List.not_mem_nil

/-- The reactor is not alive any more. -/
theorem stop_inv (h : s.Inv) (hdraining : s.phase ≠ .draining) (hswapping : s.phase ≠ .swapping) :
    { s with phase := .stopped, alive := false }.Inv := by
  refine ⟨h.table, ⟨?_, fun call hcall => absurd hcall (not_calling rfl call)⟩, ?_⟩
  · intro fd entry subscriber _ _ _ halive
    cases halive
  intro id hid
  rcases h.signalled.of_phase hdraining hswapping hid with hyes | hyes
  · exact .inl hyes
  · exact .inr (.inl hyes)

/-- The branches of a step, with the guards each has passed. -/
inductive Moves (server : ReactorEnvironment) (s : StreamSystem σ) :
    SystemStep σ → StreamSystem σ → Prop where
  | enqueue {thread number frame s'} (h : s.produce thread number (·.enqueue frame) = some s') :
      Moves server s (.enqueue thread number frame) s'
  | beginClose {thread number s'} (h : s.produce thread number (·.beginClose) = some s') :
      Moves server s (.beginClose thread number) s'
  | maybeHeartbeat {thread number now s'}
      (h : s.produce thread number (·.maybeHeartbeat now) = some s') :
      Moves server s (.maybeHeartbeat thread number now) s'
  | notify {thread id} (h : s.producers thread = .notifying id) :
      Moves server s (.notify thread) { s with
        producers := Function.update s.producers thread (if s.alive then .pushing id else .idle) }
  | push {thread id} (h : s.producers thread = .pushing id) :
      Moves server s (.push thread) (s.push thread id)
  | signal {thread id} (h : s.producers thread = .signalling id) :
      Moves server s (.signal thread) { s with
        eventFd := signalEventFd s.eventFd
        producers := Function.update s.producers thread .idle }
  | wake : Moves server s .wake { s with eventFd := signalEventFd s.eventFd }
  | accept {fd environment transport subscriber} (hphase : s.phase = .waiting)
      (hopen : ¬ s.reactor.isOpen server fd = true) :
      Moves server s (.accept fd environment transport subscriber)
        (s.accept server fd environment transport subscriber)
  | reported (hphase : s.phase = .waiting) (hsignalled : 0 < s.eventFd) :
      Moves server s .readEventFd { s with eventFd := 0, phase := .draining }
  | cleared (hphase : s.phase = .draining) (hsignalled : 0 < s.eventFd) :
      Moves server s .readEventFd { s with eventFd := 0, phase := .draining }
  | drained (hphase : s.phase = .draining) (hquiet : ¬ 0 < s.eventFd) :
      Moves server s .readEventFd { s with phase := .swapping }
  | swap (hphase : s.phase = .swapping) :
      Moves server s .swap { s with
        phase := .waking s.reactor.pendingStreams
        reactor := { s.reactor with pendingStreams := [] } }
  | wakeNext {fuel ids} (hphase : s.phase = .waking ids) :
      Moves server s (.wakeNext fuel) (s.wakeNext fuel ids)
  | event {fd fuel epollEvents s'} (hphase : s.phase = .waiting)
      (h : s.call fd (.step fuel epollEvents) true = some s') :
      Moves server s (.event fd fuel epollEvents) s'
  | expire {fd fuel s'} (hphase : s.phase = .waiting)
      (h : s.call fd (.deadlineExpired fuel) false = some s') :
      Moves server s (.expire fd fuel) s'
  | perform {now call tick event events s'} (hphase : s.phase = .calling call)
      (hevents : call.events = (tick, event) :: events)
      (h : { s with phase := .calling { call with events := events } }.carryOut call.fd
        call.entry.number now event = some s') :
      Moves server s (.perform now) s'
  | finish {rearmFails call interest} (hphase : s.phase = .calling call)
      (hevents : call.events = []) (hinterest : call.interest = some interest) :
      Moves server s (.finish rearmFails) (s.finish call interest rearmFails)
  | caught {held call} (hphase : s.phase = .calling call) (hcatches : call.catches = true) :
      Moves server s (.throw held) ({ s with phase := .waiting }.close call.fd call.entry.number held)
  | uncaught {held call} (hphase : s.phase = .calling call) (hcatches : ¬ call.catches = true) :
      Moves server s (.throw held) { s with phase := .stopped, alive := false }
  | stop (hphase : s.phase = .waiting) :
      Moves server s .stop { s with phase := .stopped, alive := false }

/-- What a step can do. -/
theorem step_moves {next : SystemStep σ} (h : s.step server next = some s') :
    Moves server s next s' := by
  cases next with
  | enqueue thread number frame => exact .enqueue h
  | beginClose thread number => exact .beginClose h
  | maybeHeartbeat thread number now => exact .maybeHeartbeat h
  | notify thread =>
    simp only [step] at h
    split at h <;> cases h
    exact .notify ‹_›
  | push thread =>
    simp only [step] at h
    split at h <;> cases h
    exact .push ‹_›
  | signal thread =>
    simp only [step] at h
    split at h <;> cases h
    exact .signal ‹_›
  | wake =>
    cases h
    exact .wake
  | accept fd environment transport subscriber =>
    simp only [step] at h
    split at h
    · split_ifs at h with hopen
      cases h
      exact .accept ‹_› hopen
    · cases h
  | readEventFd =>
    simp only [step] at h
    split at h
    · split_ifs at h with hsignalled
      cases h
      exact .reported ‹_› hsignalled
    · rename_i hphase
      cases h
      split_ifs with hsignalled
      · have hstays : { s with eventFd := 0 } = { s with eventFd := 0, phase := .draining } := by
          rw [← hphase]
        rw [hstays]
        exact .cleared hphase hsignalled
      · exact .drained hphase hsignalled
    · cases h
  | swap =>
    simp only [step] at h
    split at h <;> cases h
    exact .swap ‹_›
  | wakeNext fuel =>
    simp only [step] at h
    split at h <;> cases h
    exact .wakeNext ‹_›
  | event fd fuel epollEvents =>
    simp only [step] at h
    split at h
    · exact .event ‹_› h
    · cases h
  | expire fd fuel =>
    simp only [step] at h
    split at h
    · exact .expire ‹_› h
    · cases h
  | perform now =>
    simp only [step] at h
    split at h
    · rename_i hphase
      split at h
      · cases h
      · exact .perform hphase ‹_› h
    · cases h
  | finish rearmFails =>
    simp only [step] at h
    split at h
    · rename_i hphase
      split at h <;> cases h
      exact .finish hphase ‹_› ‹_›
    · cases h
  | throw held =>
    simp only [step] at h
    split at h <;> cases h
    split_ifs with hcatches
    · exact .caught ‹_› hcatches
    · exact .uncaught ‹_› hcatches
  | stop =>
    simp only [step] at h
    split at h <;> cases h
    exact .stop ‹_›

theorem step_inv (h : s.Inv) {next : SystemStep σ} (hstep : s.step server next = some s') :
    s'.Inv := by
  cases step_moves hstep with
  | enqueue hstep => exact produce_inv h (notifies_enqueue _) hstep
  | beginClose hstep => exact produce_inv h notifies_beginClose hstep
  | maybeHeartbeat hstep => exact produce_inv h (notifies_maybeHeartbeat _) hstep
  | notify hthread => exact notify_inv h hthread rfl
  | push hthread => exact push_inv h hthread
  | signal hthread => exact signal_inv h hthread rfl
  | wake => exact ⟨h.table, ⟨h.links.resting, h.links.calling⟩, fun _ _ => .inl (signalEventFd_pos _)⟩
  | accept hphase hopen => exact accept_inv h hphase hopen _ _ _
  | reported hphase | cleared hphase =>
    exact drain_inv h (by rw [executing, hphase]) (by rw [drained, hphase]) (.inl rfl)
  | drained hphase =>
    exact drain_inv h (by rw [executing, hphase]) (by rw [drained, hphase]) (.inr rfl)
  | swap hphase => exact swap_inv h hphase
  | wakeNext hphase => exact wakeNext_inv h hphase _
  | event hphase hstep | expire hphase hstep => exact call_inv h hphase hstep
  | perform hphase hevents hstep => exact perform_inv h hphase hevents hstep
  | finish hphase hevents hinterest => exact finish_inv h hphase hevents hinterest _
  | caught hphase hcatches => exact throw_inv h hphase hcatches _
  | uncaught hphase | stop hphase =>
    exact stop_inv h (by rw [hphase]; exact nofun) (by rw [hphase]; exact nofun)

theorem init_inv : ({} : StreamSystem σ).Inv := by
  refine ⟨⟨.nil, .nil, ?_, ?_, ?_, ?_⟩,
    ⟨?_, fun call hcall => absurd hcall (not_calling rfl call)⟩, ?_⟩
  · intro fd entry hentry
    cases hentry
  · intro fd entry hentry
    cases hentry
  · intro fd fd' entry entry' hentry
    cases hentry
  · intro id fd hid
    cases hid
  · intro fd entry subscriber hentry
    cases hentry
  · intro id hid
    cases hid

theorem run_inv {steps : List (SystemStep σ)} (h : run server steps = some s) : s.Inv :=
  foldlM_invariant (fun _ _ _ _ hx hstep => step_inv hx hstep) init_inv h

/-- The thread that takes a step, if it is not the reactor. -/
def threadOf : SystemStep σ → Option ℕ
  | .enqueue thread _ _ | .beginClose thread _ | .maybeHeartbeat thread _ _ => some thread
  | .notify thread | .push thread | .signal thread => some thread
  | _ => none

theorem produce_producers {thread number : ℕ} {f : SseSubscriber ℕ → SseSubscriber ℕ × Option ℕ}
    (h : s.produce thread number f = some s') {other : ℕ} (hother : other ≠ thread) :
    s'.producers other = s.producers other := by
  rw [produce.eq_def] at h
  split at h
  · cases h
    exact Function.update_of_ne hother ..
  · cases h

theorem close_producers (fd : Fd) (number : ℕ) (held : Bool) (s : StreamSystem σ) :
    (s.close fd number held).producers = s.producers := by
  cases held <;> rfl

/-- A thread is changed by its own steps only. -/
theorem step_producers {next : SystemStep σ} (h : s.step server next = some s') {other : ℕ}
    (hother : threadOf next ≠ some other) : s'.producers other = s.producers other := by
  have hne : ∀ thread, threadOf next = some thread → other ≠ thread := by
    rintro thread hthread rfl
    exact hother hthread
  cases step_moves h with
  | enqueue h | beginClose h | maybeHeartbeat h => exact produce_producers h (hne _ rfl)
  | notify | push | signal => exact Function.update_of_ne (hne _ rfl) ..
  | wakeNext =>
    rw [wakeNext.eq_def]
    split
    · rfl
    · split
      · rfl
      · split <;> rfl
  | event hphase h | expire hphase h =>
    rw [call, Option.map_eq_some_iff] at h
    obtain ⟨entry, -, rfl⟩ := h
    rfl
  | perform hphase hevents h => exact congrFun (carryOut_carried h).producers other
  | finish =>
    rw [finish]
    dsimp only
    split_ifs
    · rw [close_producers]
    · rfl
  | caught => rw [close_producers]
  | wake | accept | reported | cleared | drained | swap | uncaught | stop => rfl

theorem run_producers {steps : List (SystemStep σ)} (h : run server steps = some s) {other : ℕ}
    (hother : ∀ next ∈ steps, threadOf next ≠ some other) : s.producers other = .idle := by
  refine foldlM_invariant (I := fun x : StreamSystem σ => x.producers other = .idle) ?_ rfl h
  intro s₁ next hnext s₂ hidle hstep
  rw [step_producers hstep (hother next hnext)]
  exact hidle

/-- **No lost wakeup.**  In every state that the threads and the reactor reach, in any order of
their steps: while the reactor is alive and does not execute a connection that streams, was idle at
its last pull, and whose subscriber has frames or is closed, the subscriber has the notifier of an
id that leads to this connection, and

* the id is pending, and the eventfd is signalled, or the thread that pushed the id is about to
  signal it, or the reactor has cleared it and is about to take the list;
* or the id is in the list being drained;
* or a thread has left the lock of the subscriber with the notifier, and has yet to push the id. -/
theorem no_lost_wakeup (server : ReactorEnvironment) (steps : List (SystemStep σ))
    (s : StreamSystem σ) (h : run server steps = some s) (halive : s.alive = true) (fd : Fd)
    (entry : ConnectionEntry σ) (hentry : (fd, entry) ∈ s.reactor.connections)
    (hresting : s.executing ≠ some fd) (hstate : entry.connection.state = .streaming)
    (hlast : (streamStatus entry.connection.trace).last = some .idle)
    (subscriber : SseSubscriber ℕ) (hsubscriber : s.subscribers entry.number = some subscriber)
    (hwork : subscriber.queue ≠ [] ∨ subscriber.closed = true) :
    ∃ id, subscriber.notifier = some id ∧ (id, fd) ∈ s.reactor.streaming ∧
      (id ∈ s.reactor.pendingStreams ∧ (0 < s.eventFd ∨
          s.producers (s.pushedBy id) = .signalling id ∨ s.phase = .draining ∨
          s.phase = .swapping) ∨
        id ∈ s.drained ∨
        ∃ thread, s.producers thread = .notifying id ∨ s.producers thread = .pushing id) := by
  have hinv := run_inv h
  have hlookup := (FlatMap.lookup_eq_some_iff hinv.table.sorted).2 hentry
  have hattached := (hinv.table.held fd entry hlookup).idle hstate hlast
  obtain ⟨id, hnotifier, hid, hflight⟩ :=
    hinv.links.resting fd entry subscriber hlookup hresting hsubscriber halive hattached
  refine ⟨id, hnotifier, (FlatMap.lookup_eq_some_iff hinv.table.sortedIds).1 hid, ?_⟩
  rcases hflight hlast hwork with (hpending | hdrained | hthread) | hno
  · exact .inl ⟨hpending, hinv.signalled id hpending⟩
  · exact .inr (.inl hdrained)
  · exact .inr (.inr hthread)
  · exact hno.elim

/-- A reactor with its eventfd at 3 and one listener, whose calls have fuel for nine steps. -/
def closingServer : ReactorEnvironment := ⟨3, [4], fun _ => { fuel := 9 }⟩

/-- A stream is attached and idle, thread 7 closes its subscriber and signals the reactor, and the
reactor clears the eventfd. -/
def closingSteps : List (SystemStep Peer) :=
  let source : StreamSource := ⟨[], false, fun _ => ([], some .idle)⟩
  let env := Environment.scripted fun _ => .returned (.ofStream (some source))
  let peer : Peer := ⟨[ascii "GET / HTTP/1.1\r\nHost: a\r\n\r\n"], true⟩
  [.accept 5 env peer (some ({ retryHint := 0 }, 0)), .event 5 9 1] ++
    List.replicate 6 (.perform 0) ++
    [.finish false, .beginClose 7 0, .notify 7, .push 7, .signal 7, .readEventFd]

theorem run_closingSteps : ∃ s entry subscriber, run closingServer closingSteps = some s ∧
    ((s.alive = true ∧ (5, entry) ∈ s.reactor.connections ∧ s.executing = none ∧
      entry.connection.state = .streaming ∧
      (streamStatus entry.connection.trace).last = some .idle) ∧
    s.subscribers entry.number = some subscriber ∧ subscriber.closed = true ∧
      subscriber.notifier = some 1) ∧
    s.eventFd = 0 ∧ s.producers 7 = .idle ∧ s.pushedBy 1 = 7 := by
  have hrun : ((run closingServer closingSteps).bind fun s =>
      s.reactor.connections.head?.bind fun e =>
      (s.subscribers e.2.number).map fun subscriber => decide (
        (s.alive = true ∧ e.1 = 5 ∧ s.executing = none ∧ e.2.connection.state = .streaming ∧
          (streamStatus e.2.connection.trace).last = some .idle) ∧
        (subscriber.closed = true ∧ subscriber.notifier = some 1) ∧ s.eventFd = 0 ∧
          s.producers 7 = .idle ∧ s.pushedBy 1 = 7)) = some true := by
    decide +kernel
  obtain ⟨s, hs, hrest⟩ := Option.bind_eq_some_iff.1 hrun
  obtain ⟨e, he, hrest⟩ := Option.bind_eq_some_iff.1 hrest
  obtain ⟨subscriber, hsubscriber, hfields⟩ := Option.map_eq_some_iff.1 hrest
  obtain ⟨⟨halive, hfd, hrest⟩, ⟨hclosed, hnotifier⟩, hsignals⟩ := of_decide_eq_true hfields
  have hmem : (5, e.2) ∈ s.reactor.connections := by
    rw [← hfd]
    exact List.mem_of_head? he
  exact ⟨s, e.2, subscriber, hs, ⟨⟨halive, hmem, hrest⟩, hsubscriber, hclosed, hnotifier⟩, hsignals⟩

theorem no_lost_wakeup_closing : ∃ s entry subscriber,
    run closingServer closingSteps = some s ∧ (5, entry) ∈ s.reactor.connections ∧
      s.subscribers entry.number = some subscriber ∧ subscriber.closed = true ∧
      ∃ id, subscriber.notifier = some id ∧ (id, 5) ∈ s.reactor.streaming ∧
        (id ∈ s.reactor.pendingStreams ∧ (0 < s.eventFd ∨
            s.producers (s.pushedBy id) = .signalling id ∨ s.phase = .draining ∨
            s.phase = .swapping) ∨
          id ∈ s.drained ∨
          ∃ thread, s.producers thread = .notifying id ∨ s.producers thread = .pushing id) := by
  obtain ⟨s, entry, subscriber, hs, ⟨⟨halive, hmem, hexecuting, hstate, hlast⟩, hsubscriber, hclosed,
    -⟩, -⟩ := run_closingSteps
  have hresting : s.executing ≠ some 5 := by
    rw [hexecuting]
    exact nofun
  exact ⟨s, entry, subscriber, hs, hmem, hsubscriber, hclosed,
    no_lost_wakeup closingServer closingSteps s hs halive 5 entry hmem hresting hstate hlast
      subscriber hsubscriber (.inr hclosed)⟩

/-- The subscriber of an idle stream is closed, and its id is pending.  The reactor has cleared the
eventfd and not yet taken the list; so the eventfd is not signalled, and no thread is going to signal
it. -/
theorem pending_without_signal :
    ∃ s entry subscriber, run closingServer closingSteps = some s ∧ s.alive = true ∧
      (5, entry) ∈ s.reactor.connections ∧ s.executing ≠ some 5 ∧
      entry.connection.state = .streaming ∧
      (streamStatus entry.connection.trace).last = some .idle ∧
      s.subscribers entry.number = some subscriber ∧ subscriber.closed = true ∧
      subscriber.notifier = some 1 ∧
      ¬ ((1 ∈ s.reactor.pendingStreams ∨ 1 ∈ s.drained) ∧
          (0 < s.eventFd ∨ s.producers (s.pushedBy 1) = .signalling 1) ∨
        ∃ thread, s.producers thread = .notifying 1 ∨ s.producers thread = .pushing 1) := by
  obtain ⟨s, entry, subscriber, hs, ⟨⟨halive, hmem, hexecuting, hstate, hlast⟩, hsubscriber, hclosed,
    hnotifier⟩, heventFd, hidle, hpushed⟩ := run_closingSteps
  refine ⟨s, entry, subscriber, hs, halive, hmem, by rw [hexecuting]; exact nofun, hstate, hlast,
    hsubscriber, hclosed, hnotifier, ?_⟩
  rintro (⟨-, hyes | hyes⟩ | ⟨thread, hyes⟩)
  · rw [heventFd] at hyes
    exact absurd hyes (lt_irrefl 0)
  · rw [hpushed, hidle] at hyes
    cases hyes
  · -- Only thread 7 has moved, and it is idle again.
    have hthreads : ∀ next ∈ closingSteps, threadOf next = none ∨ threadOf next = some 7 := by
      simp [closingSteps, threadOf]
    have hthread : s.producers thread = .idle := by
      by_cases heq : thread = 7
      · rw [heq]
        exact hidle
      · refine run_producers hs fun next hnext hsome => heq ?_
        rcases hthreads next hnext with hnone | hseven
        · rw [hnone] at hsome
          cases hsome
        · rw [hseven] at hsome
          exact (Option.some.inj hsome).symm
    rw [hthread] at hyes
    rcases hyes with hyes | hyes <;> cases hyes

end StreamSystem

end ErikslundHttp
