import ErikslundHttp.Connection.Output
import ErikslundHttp.Lib.Result
import ErikslundHttp.Reactor.Basic

/-!
# Stream ids and descriptors

The kernel hands out the number of a closed descriptor again, while an id that `make_notifier` made
for it may still be pending.

* `Consistent` says why no notification and no event goes astray: an id in `streaming_` leads to the
  connection it was made for, closing a connection removes its ids, and events are handed out before
  anything is accepted.
* `stream_ids_and_descriptors` reads this from the log of every run.
-/

namespace ErikslundHttp

namespace Connection

variable {σ : Type} {env : Environment σ} {world : σ → σ → Prop} {c c' : Connection σ}

/-! ### Attached connections -/

open Reactor (attachments)

theorem attachments_append (trace later : List (ℕ × Event)) :
    attachments (trace ++ later) = attachments trace + attachments later := List.countP_append

theorem attachments_mono {trace trace' : List (ℕ × Event)} (h : trace <+: trace') :
    attachments trace ≤ attachments trace' := by
  obtain ⟨later, rfl⟩ := h
  rw [attachments_append]
  exact Nat.le_add_right _ _

theorem Quiet.attachments_eq {events : List (ℕ × Event)} (h : Quiet events) :
    attachments events = 0 := by
  refine List.countP_eq_zero.2 fun entry hentry => ?_
  have hturns := (h entry hentry).2
  cases hevent : entry.2 with
  | attached =>
    rw [hevent] at hturns
    cases hturns
  | _ => exact Bool.false_ne_true

/-- A connection whose stream was attached streams, or closes. -/
def StaysAttached (c : Connection σ) : Prop :=
  0 < attachments c.trace → c.state = .streaming ∨ c.state = .closing

theorem attachments_writev {status : TransportStatus} {accepted : ℕ}
    (h : writev env c = (c', status, accepted)) : attachments c'.trace = attachments c.trace := by
  rw [trace_writev h, attachments_append]
  rfl

theorem Passes.attachments_eq (h : Passes env world c c') :
    attachments c'.trace = attachments c.trace := by
  obtain ⟨events, hquiet, htrace⟩ := h.trace
  rw [htrace, attachments_append, hquiet.attachments_eq, Nat.add_zero]

theorem StaysAttached.effect (h : StaysAttached c) (heffect : Effect env world c c') :
    StaysAttached c' := by
  intro hpos
  -- a connection that reads or writes a response has not attached a stream
  have hreading : c.state.isReading = true → ¬ 0 < attachments c.trace := by
    intro hstate hattached
    rcases h hattached with h | h <;> rw [h] at hstate <;> cases hstate
  cases heffect with
  | reads hstate _ hc =>
    rw [hc.attachments_eq] at hpos
    exact absurd hpos (hreading hstate)
  | begins hstate _ _ hc =>
    rw [hc.attachments_eq] at hpos
    exact absurd hpos (hreading hstate)
  | stays hstate _ _ hc =>
    rw [hc.attachments_eq] at hpos
    rw [hstate]
    exact h hpos
  | writes _ _ hwrite hstate _ _ htrace _ =>
    rw [htrace, attachments_writev hwrite] at hpos
    rw [hstate]
    exact h hpos
  | fails _ _ _ _ hstate _ => exact .inr hstate
  | turns entry _ _ _ htrace _ hstate =>
    rcases hstate with ⟨hcompleted, hwriting, -⟩ | hstate | ⟨hstate, -⟩
    · obtain ⟨events, hquiet, htrace⟩ := htrace
      have hentry : attachments [entry] = 0 := by
        obtain ⟨tick, event⟩ := entry
        cases hcompleted
        rfl
      rw [htrace, attachments_append, attachments_append, hquiet.attachments_eq, hentry] at hpos
      rcases h hpos with h | h <;> cases hwriting.symm.trans h
    · exact .inr hstate
    · exact .inl hstate
  | settles _ _ hstate _ _ _ => exact .inl hstate
  | closes hstate _ => exact .inr hstate

/-- What a call of a connection leaves. -/
theorem StaysAttached.occur (env : Environment σ) (h : StaysAttached c)
    (occurrence : Occurrence σ) :
    StaysAttached (Connection.occur env c occurrence).1 ∧
      c.trace <+: (Connection.occur env c occurrence).1.trace := by
  have hsteps : Steps env anything c _ := (occur_occurs env c (within_anything occurrence)).steps
  refine hsteps.invariant (I := fun x => StaysAttached x ∧ c.trace <+: x.trace) ?_
    ⟨h, List.prefix_rfl⟩
  intro c₁ c₂ haction hc₁
  exact ⟨hc₁.1.effect (action_effect haction), hc₁.2.trans (action_trace haction)⟩

end Connection

namespace Reactor

variable {σ : Type}

/-! ### The invariant -/

/-- The ids made so far, in order. -/
def madeIds (log : List ReactorEvent) : List ℕ :=
  log.filterMap fun event => match event with
    | .notifierMade id _ => some id
    | _ => none

/-- What the log says: ids are not made twice, a notification goes to the connection its id was made
for, while that is open, and an event of a batch to a connection admitted before. -/
structure Orderly (log : List ReactorEvent) : Prop where
  /-- No id is given to two notifiers. -/
  madeOnce : (madeIds log).Nodup
  /-- A connection is called for an id of its own only. -/
  notified : ∀ before id n after, log = before ++ .notified id n :: after →
    .notifierMade id n ∈ before ∧ .closed n ∉ before
  /-- No connection is called in the turn that admitted it. -/
  stepped : ∀ batch n fd, .stepped batch n ∈ log → .admitted batch n fd ∉ log

/-- The tables of the reactor agree with its log.  The ids of `exempt`, which is about to be closed,
may be left over. -/
structure Consistent (exempt : Option Fd) (r : Reactor σ) : Prop where
  sorted : FlatMap.Sorted r.connections
  sortedIds : FlatMap.Sorted r.streaming
  /-- The gauge counts the open connections. -/
  active : r.connectionsActive = r.connections.length
  /-- An id leads to an open connection that was given a notifier for it. -/
  streams : ∀ id fd, FlatMap.lookup id r.streaming = some fd → some fd ≠ exempt →
    ∃ entry, FlatMap.lookup fd r.connections = some entry ∧
      .notifierMade id entry.number ∈ r.log ∧ 0 < attachments entry.connection.trace
  /-- A connection whose source was attached streams or closes. -/
  attached : ∀ fd entry, FlatMap.lookup fd r.connections = some entry →
    entry.connection.StaysAttached
  /-- An open connection has not been closed. -/
  live : ∀ fd entry, FlatMap.lookup fd r.connections = some entry →
    entry.number < r.admitted ∧ .closed entry.number ∉ r.log
  /-- No two descriptors hold one connection. -/
  numbers : ∀ fd fd' entry entry', FlatMap.lookup fd r.connections = some entry →
    FlatMap.lookup fd' r.connections = some entry' → entry.number = entry'.number → fd = fd'
  /-- The ids made are below the next one. -/
  made : ∀ id n, .notifierMade id n ∈ r.log → id < r.nextStreamId
  closed : ∀ n, .closed n ∈ r.log → n < r.admitted
  stepped : ∀ batch n, .stepped batch n ∈ r.log → n < r.admitted
  admitted : ∀ batch n fd, .admitted batch n fd ∈ r.log → n < r.admitted ∧ batch ≤ r.batches
  /-- What the log says. -/
  orderly : Orderly r.log

variable {r : Reactor σ} {exempt : Option Fd} {log : List ReactorEvent}

theorem madeIds_append (later : List ReactorEvent) :
    madeIds (log ++ later) = madeIds log ++ madeIds later := List.filterMap_append

theorem mem_madeIds {id : ℕ} : id ∈ madeIds log ↔ ∃ n, .notifierMade id n ∈ log := by
  rw [madeIds, List.mem_filterMap]
  constructor
  · rintro ⟨event, hmem, hid⟩
    cases event with
    | notifierMade id' n =>
      cases hid
      exact ⟨n, hmem⟩
    | _ => cases hid
  · rintro ⟨n, hmem⟩
    exact ⟨_, hmem, rfl⟩

/-- An id belongs to one connection. -/
theorem notifierMade_inj (h : (madeIds log).Nodup) {id n n' : ℕ} (hn : .notifierMade id n ∈ log)
    (hn' : .notifierMade id n' ∈ log) : n = n' := by
  obtain ⟨before, after, rfl⟩ := List.append_of_mem hn
  rw [madeIds_append, List.nodup_append'] at h
  obtain ⟨-, hafter, hdisjoint⟩ := h
  have hhead : id ∈ madeIds (.notifierMade id n :: after) :=
    mem_madeIds.2 ⟨n, List.mem_cons_self⟩
  rcases List.mem_append.1 hn' with hbefore | hrest
  · exact absurd hhead (hdisjoint (mem_madeIds.2 ⟨n', hbefore⟩))
  · rcases List.mem_cons.1 hrest with heq | hlater
    · exact (ReactorEvent.notifierMade.inj heq).2.symm
    · have hnot : id ∉ madeIds after := (List.nodup_cons.1 hafter).1
      exact absurd (mem_madeIds.2 ⟨n', hlater⟩) hnot

/-- One more event. -/
theorem Orderly.concat (h : Orderly log) {event : ReactorEvent}
    (hmade : ∀ id n, event = .notifierMade id n → id ∉ madeIds log)
    (hnotified : ∀ id n, event = .notified id n → .notifierMade id n ∈ log ∧ .closed n ∉ log)
    (hstepped : ∀ batch n, event = .stepped batch n → ∀ fd, .admitted batch n fd ∉ log)
    (hadmitted : ∀ batch n fd, event = .admitted batch n fd → .stepped batch n ∉ log) :
    Orderly (log ++ [event]) := by
  refine ⟨?_, ?_, ?_⟩
  · rw [madeIds_append, List.nodup_append']
    refine ⟨h.madeOnce, ?_, ?_⟩
    · cases event <;> simp [madeIds]
    · intro id hid hevent
      obtain ⟨n, hn⟩ := mem_madeIds.1 hevent
      exact hmade id n (List.mem_singleton.1 hn).symm hid
  · intro before id n after heq
    rcases List.eq_nil_or_concat after with rfl | ⟨after, last, rfl⟩
    · obtain ⟨rfl, hevent⟩ := List.append_inj' heq rfl
      exact hnotified id n (List.singleton_inj.1 hevent)
    · rw [List.concat_eq_append, ← List.cons_append, ← List.append_assoc] at heq
      obtain ⟨hlog, -⟩ := List.append_inj' heq rfl
      exact h.notified before id n after hlog
  · intro batch n fd hmem hmem'
    rw [List.mem_append, List.mem_singleton] at hmem hmem'
    rcases hmem with hmem | hmem
    · rcases hmem' with hmem' | hmem'
      · exact h.stepped batch n fd hmem hmem'
      · exact hadmitted batch n fd hmem'.symm hmem
    · rcases hmem' with hmem' | hmem'
      · exact hstepped batch n hmem.symm fd hmem'
      · cases hmem.trans hmem'.symm

/-! ### What keeps the invariant -/

theorem mem_concat {event e : ReactorEvent} : e ∈ log ++ [event] ↔ e ∈ log ∨ e = event := by
  rw [List.mem_append, List.mem_singleton]

/-- An event that neither makes an id nor admits or closes a connection. -/
theorem Consistent.record (h : Consistent exempt r) {event : ReactorEvent}
    (hmade : ∀ id n, event ≠ .notifierMade id n) (hclosed : ∀ n, event ≠ .closed n)
    (hadmitted : ∀ batch n fd, event ≠ .admitted batch n fd)
    (hnotified : ∀ id n, event = .notified id n → .notifierMade id n ∈ r.log ∧ .closed n ∉ r.log)
    (hstepped : ∀ batch n, event = .stepped batch n →
      n < r.admitted ∧ ∀ fd, .admitted batch n fd ∉ r.log) :
    Consistent exempt (r.record event) := by
  have hmem : ∀ {e : ReactorEvent}, e ∈ (r.record event).log → e ∈ r.log ∨ e = event :=
    mem_concat.1
  refine ⟨h.sorted, h.sortedIds, h.active, ?_, h.attached, ?_, h.numbers, ?_, ?_, ?_, ?_, ?_⟩
  · intro id fd hid hne
    obtain ⟨entry, hentry, hid', hattached⟩ := h.streams id fd hid hne
    exact ⟨entry, hentry, mem_concat.2 (.inl hid'), hattached⟩
  · intro fd entry hentry
    obtain ⟨hlt, hopen⟩ := h.live fd entry hentry
    refine ⟨hlt, fun hmem' => ?_⟩
    rcases hmem hmem' with hmem' | heq
    · exact hopen hmem'
    · exact hclosed _ heq.symm
  · intro id n hmem'
    rcases hmem hmem' with hmem' | heq
    · exact h.made id n hmem'
    · exact absurd heq.symm (hmade id n)
  · intro n hmem'
    rcases hmem hmem' with hmem' | heq
    · exact h.closed n hmem'
    · exact absurd heq.symm (hclosed n)
  · intro batch n hmem'
    rcases hmem hmem' with hmem' | heq
    · exact h.stepped batch n hmem'
    · exact (hstepped batch n heq.symm).1
  · intro batch n fd hmem'
    rcases hmem hmem' with hmem' | heq
    · exact h.admitted batch n fd hmem'
    · exact absurd heq.symm (hadmitted batch n fd)
  · exact h.orderly.concat (fun id n heq => absurd heq (hmade id n)) hnotified
      (fun batch n heq => (hstepped batch n heq).2) fun batch n fd heq =>
        absurd heq (hadmitted batch n fd)

/-- The counters and the pending ids do not matter. -/
theorem Consistent.of_eq {r' : Reactor σ} (h : Consistent exempt r)
    (hconnections : r'.connections = r.connections) (hstreaming : r'.streaming = r.streaming)
    (hnext : r'.nextStreamId = r.nextStreamId) (hactive : r'.connectionsActive = r.connectionsActive)
    (hadmitted : r'.admitted = r.admitted) (hlog : r'.log = r.log)
    (hbatches : r.batches ≤ r'.batches) : Consistent exempt r' := by
  obtain ⟨hsorted, hsortedIds, hlen, hstreams, hattached, hlive, hnumbers, hmade, hclosed, hstepped,
    hadmitted', horderly⟩ := h
  rw [← hconnections] at hsorted hlen hstreams hattached hlive hnumbers
  rw [← hstreaming] at hsortedIds hstreams
  rw [← hactive] at hlen
  rw [← hlog] at hstreams hlive hmade hclosed hstepped hadmitted' horderly
  rw [← hadmitted] at hlive hclosed hstepped hadmitted'
  rw [← hnext] at hmade
  exact ⟨hsorted, hsortedIds, hlen, hstreams, hattached, hlive, hnumbers, hmade, hclosed, hstepped,
    fun batch n fd hmem => ⟨(hadmitted' batch n fd hmem).1,
      (hadmitted' batch n fd hmem).2.trans hbatches⟩, horderly⟩

/-- `close_connection` removes the connection and all its ids. -/
theorem Consistent.closeConnection {fd : Fd} (h : Consistent exempt r)
    (hexempt : exempt = none ∨ exempt = some fd)
    (hopen : exempt = some fd → FlatMap.lookup fd r.connections ≠ none) :
    Consistent none (r.closeConnection fd) := by
  rw [Reactor.closeConnection]
  cases hfd : FlatMap.lookup fd r.connections with
  | none =>
    have hnone : exempt = none := by
      rcases hexempt with hnone | hsome
      · exact hnone
      · exact absurd hfd (hopen hsome)
    rw [hnone] at h
    exact h
  | some entry =>
    obtain ⟨hlt, hlive⟩ := h.live fd entry hfd
    -- the other connections stay
    have hlookup : ∀ fd' entry',
        FlatMap.lookup fd' (r.connections.filter fun e => e.1 != fd) = some entry' ↔
          FlatMap.lookup fd' r.connections = some entry' ∧ fd' ≠ fd := by
      intro fd' entry'
      rw [FlatMap.lookup_filter_eq_some_iff h.sorted, bne_iff_ne]
    have hids : ∀ id fd', FlatMap.lookup id (r.streaming.filter fun m => m.2 != fd) = some fd' ↔
        FlatMap.lookup id r.streaming = some fd' ∧ fd' ≠ fd := by
      intro id fd'
      rw [FlatMap.lookup_filter_eq_some_iff h.sortedIds, bne_iff_ne]
    have hmem : ∀ {e : ReactorEvent}, e ∈ r.log ++ [ReactorEvent.closed entry.number] →
        e ∈ r.log ∨ e = .closed entry.number := mem_concat.1
    refine ⟨h.sorted.filter _, h.sortedIds.filter _, ?_, ?_, ?_, ?_, ?_, ?_, ?_, ?_, ?_, ?_⟩
    · have hkey : fd ∈ r.connections.map Prod.fst :=
        List.mem_map.2 ⟨_, (FlatMap.lookup_eq_some_iff h.sorted).1 hfd, rfl⟩
      have hlen := FlatMap.length_filter_ne h.sorted hkey
      show r.connectionsActive - 1 = _
      rw [h.active, ← hlen]
      simp
    · intro id fd' hid _
      obtain ⟨hid', hne⟩ := (hids id fd').1 hid
      have hnot : some fd' ≠ exempt := by
        rcases hexempt with rfl | rfl
        · exact nofun
        · exact fun heq => hne (Option.some.inj heq)
      obtain ⟨entry', hentry', hmade, hattached⟩ := h.streams id fd' hid' hnot
      exact ⟨entry', (hlookup fd' entry').2 ⟨hentry', hne⟩, mem_concat.2 (.inl hmade), hattached⟩
    · intro fd' entry' hentry'
      exact h.attached fd' entry' ((hlookup fd' entry').1 hentry').1
    · intro fd' entry' hentry'
      obtain ⟨hentry', hne⟩ := (hlookup fd' entry').1 hentry'
      obtain ⟨hlt', hlive'⟩ := h.live fd' entry' hentry'
      refine ⟨hlt', fun hclosed => ?_⟩
      rcases hmem hclosed with hclosed | heq
      · exact hlive' hclosed
      · exact hne (h.numbers fd' fd entry' entry hentry' hfd (ReactorEvent.closed.inj heq))
    · intro fd₁ fd₂ entry₁ entry₂ h₁ h₂ heq
      exact h.numbers fd₁ fd₂ entry₁ entry₂ ((hlookup fd₁ entry₁).1 h₁).1
        ((hlookup fd₂ entry₂).1 h₂).1 heq
    · intro id n hmade
      rcases hmem hmade with hmade | heq
      · exact h.made id n hmade
      · cases heq
    · intro n hclosed
      rcases hmem hclosed with hclosed | heq
      · exact h.closed n hclosed
      · cases heq
        exact hlt
    · intro batch n hstepped
      rcases hmem hstepped with hstepped | heq
      · exact h.stepped batch n hstepped
      · cases heq
    · intro batch n fd' hadmitted
      rcases hmem hadmitted with hadmitted | heq
      · exact h.admitted batch n fd' hadmitted
      · cases heq
    · exact h.orderly.concat nofun nofun nofun nofun

theorem Consistent.except (h : Consistent none r) (fd : Fd) : Consistent (some fd) r :=
  ⟨h.sorted, h.sortedIds, h.active, fun id fd' hid _ => h.streams id fd' hid nofun, h.attached,
    h.live, h.numbers, h.made, h.closed, h.stepped, h.admitted, h.orderly⟩

/-- `make_notifier` leads its id to the connection that called it. -/
theorem Consistent.makeNotifier {fd : Fd} {entry : ConnectionEntry σ} (h : Consistent exempt r)
    (hentry : FlatMap.lookup fd r.connections = some entry)
    (hattached : some fd ≠ exempt → 0 < attachments entry.connection.trace) :
    Consistent exempt (r.makeNotifier fd entry.number) := by
  have hmem : ∀ {e : ReactorEvent},
      e ∈ r.log ++ [ReactorEvent.notifierMade r.nextStreamId entry.number] →
        e ∈ r.log ∨ e = .notifierMade r.nextStreamId entry.number := mem_concat.1
  refine ⟨h.sorted, h.sortedIds.insertOrAssign _ _, h.active, ?_, h.attached, ?_, h.numbers, ?_,
    ?_, ?_, ?_, ?_⟩
  · intro id fd' hid hne
    rcases FlatMap.lookup_insertOrAssign_cases hid with ⟨rfl, rfl⟩ | ⟨-, hid'⟩
    · exact ⟨entry, hentry, mem_concat.2 (.inr rfl), hattached hne⟩
    · obtain ⟨entry', hentry', hmade, hattached'⟩ := h.streams id fd' hid' hne
      exact ⟨entry', hentry', mem_concat.2 (.inl hmade), hattached'⟩
  · intro fd' entry' hentry'
    obtain ⟨hlt, hlive⟩ := h.live fd' entry' hentry'
    refine ⟨hlt, fun hclosed => ?_⟩
    rcases hmem hclosed with hclosed | heq
    · exact hlive hclosed
    · cases heq
  · intro id n hmade
    show id < r.nextStreamId + 1
    rcases hmem hmade with hmade | heq
    · exact Nat.lt_succ_of_lt (h.made id n hmade)
    · cases heq
      exact Nat.lt_succ_self _
  · intro n hclosed
    rcases hmem hclosed with hclosed | heq
    · exact h.closed n hclosed
    · cases heq
  · intro batch n hstepped
    rcases hmem hstepped with hstepped | heq
    · exact h.stepped batch n hstepped
    · cases heq
  · intro batch n fd' hadmitted
    rcases hmem hadmitted with hadmitted | heq
    · exact h.admitted batch n fd' hadmitted
    · cases heq
  · refine h.orderly.concat (fun id n heq hid => ?_) nofun nofun nofun
    -- a new id is larger than all before
    cases heq
    obtain ⟨n, hn⟩ := mem_madeIds.1 hid
    exact absurd (h.made _ n hn) (lt_irrefl _)

theorem Consistent.makeNotifiers {fd : Fd} {entry : ConnectionEntry σ} (h : Consistent exempt r)
    (hentry : FlatMap.lookup fd r.connections = some entry) (count : ℕ)
    (hattached : 0 < count → 0 < attachments entry.connection.trace) :
    Consistent exempt ((Reactor.makeNotifier fd entry.number)^[count] r) := by
  induction count generalizing r with
  | zero => exact h
  | succ count ih =>
    have hpos := hattached (Nat.succ_pos count)
    exact ih (h.makeNotifier hentry fun _ => hpos) hentry fun _ => hpos

/-- A call of a connection changes its entry, and gives it ids when it attaches a stream. -/
theorem Consistent.store {fd : Fd} {entry : ConnectionEntry σ} {c : Connection σ}
    (h : Consistent none r) (hentry : FlatMap.lookup fd r.connections = some entry)
    (hstays : c.StaysAttached) (htrace : entry.connection.trace <+: c.trace) :
    Consistent none (r.store fd entry c) := by
  have hself : FlatMap.lookup fd
      (FlatMap.insertOrAssign fd { entry with connection := c } r.connections) =
        some { entry with connection := c } := FlatMap.lookup_insertOrAssign_self ..
  have hkey : fd ∈ r.connections.map Prod.fst :=
    List.mem_map.2 ⟨_, (FlatMap.lookup_eq_some_iff h.sorted).1 hentry, rfl⟩
  have hstored : Consistent none { r with
      connections := FlatMap.insertOrAssign fd { entry with connection := c } r.connections } := by
    refine ⟨h.sorted.insertOrAssign _ _, h.sortedIds, ?_, ?_, ?_, ?_, ?_, h.made, h.closed,
      h.stepped, h.admitted, h.orderly⟩
    · rw [h.active, FlatMap.length_insertOrAssign_of_mem h.sorted hkey]
    · intro id fd' hid hne
      obtain ⟨entry', hentry', hmade, hattached⟩ := h.streams id fd' hid hne
      by_cases heq : fd' = fd
      · subst heq
        rw [hentry] at hentry'
        cases hentry'
        exact ⟨_, hself, hmade, lt_of_lt_of_le hattached (Connection.attachments_mono htrace)⟩
      · exact ⟨entry', (FlatMap.lookup_insertOrAssign_of_ne heq _ _).trans hentry', hmade, hattached⟩
    · intro fd' entry' hfd
      rcases FlatMap.lookup_insertOrAssign_cases hfd with ⟨-, rfl⟩ | ⟨-, hfd⟩
      · exact hstays
      · exact h.attached fd' entry' hfd
    · intro fd' entry' hfd
      rcases FlatMap.lookup_insertOrAssign_cases hfd with ⟨-, rfl⟩ | ⟨-, hfd⟩
      · exact h.live fd entry hentry
      · exact h.live fd' entry' hfd
    · intro fd₁ fd₂ entry₁ entry₂ h₁ h₂ heq
      -- the entry keeps its number
      have hold : ∀ {fd' entry'}, FlatMap.lookup fd' (FlatMap.insertOrAssign fd
          { entry with connection := c } r.connections) = some entry' →
            ∃ entry₀, FlatMap.lookup fd' r.connections = some entry₀ ∧
              entry₀.number = entry'.number := by
        intro fd' entry' hfd
        rcases FlatMap.lookup_insertOrAssign_cases hfd with ⟨rfl, rfl⟩ | ⟨-, hfd⟩
        · exact ⟨entry, hentry, rfl⟩
        · exact ⟨entry', hfd, rfl⟩
      obtain ⟨entry₁', h₁', hn₁⟩ := hold h₁
      obtain ⟨entry₂', h₂', hn₂⟩ := hold h₂
      exact h.numbers fd₁ fd₂ entry₁' entry₂' h₁' h₂' (hn₁.trans (heq.trans hn₂.symm))
  refine hstored.makeNotifiers hself _ fun hpos => ?_
  show 0 < attachments c.trace
  omega

/-! ### Calls of connections -/

/-- No connection was admitted, and no batch begun. -/
structure AdmitsNone (r r' : Reactor σ) : Prop where
  batches : r'.batches = r.batches
  /-- It admits no connection. -/
  admitted : ∀ batch n fd, .admitted batch n fd ∈ r'.log → .admitted batch n fd ∈ r.log

theorem AdmitsNone.refl (r : Reactor σ) : AdmitsNone r r := ⟨rfl, fun _ _ _ => id⟩

theorem AdmitsNone.trans {r' r'' : Reactor σ} (h : AdmitsNone r r') (h' : AdmitsNone r' r'') :
    AdmitsNone r r'' :=
  ⟨h'.batches.trans h.batches, fun batch n fd hmem =>
    h.admitted batch n fd (h'.admitted batch n fd hmem)⟩

theorem admitsNone_record {event : ReactorEvent}
    (hevent : ∀ batch n fd, event ≠ .admitted batch n fd) : AdmitsNone r (r.record event) := by
  refine ⟨rfl, fun batch n fd hmem => ?_⟩
  rcases mem_concat.1 hmem with hmem | heq
  · exact hmem
  · exact absurd heq.symm (hevent batch n fd)

theorem admitsNone_closeConnection (fd : Fd) (r : Reactor σ) :
    AdmitsNone r (r.closeConnection fd) := by
  rw [closeConnection]
  split
  · exact .refl r
  · have h : ∀ n, AdmitsNone r (r.record (.closed n)) := fun n => admitsNone_record nofun
    exact ⟨rfl, (h _).admitted⟩

theorem admitsNone_makeNotifier (fd : Fd) (number : ℕ) (r : Reactor σ) :
    AdmitsNone r (r.makeNotifier fd number) := by
  have h : AdmitsNone r (r.record (.notifierMade r.nextStreamId number)) := admitsNone_record nofun
  exact ⟨rfl, h.admitted⟩

theorem admitsNone_store (fd : Fd) (entry : ConnectionEntry σ) (c : Connection σ) (r : Reactor σ) :
    AdmitsNone r (r.store fd entry c) := by
  have hiterate : ∀ (count : ℕ) (r' : Reactor σ),
      AdmitsNone r' ((makeNotifier fd entry.number)^[count] r') := by
    intro count
    induction count with
    | zero => exact fun r' => .refl r'
    | succ count ih => exact fun r' => (admitsNone_makeNotifier _ _ r').trans (ih _)
  obtain ⟨hbatches, hadmitted⟩ := hiterate
    (attachments c.trace - attachments entry.connection.trace) { r with
      connections := FlatMap.insertOrAssign fd { entry with connection := c } r.connections }
  exact ⟨hbatches, hadmitted⟩

theorem settle_consistent (h : Consistent none r) (fd : Fd) (interest : EpollInterest)
    (rearmFails : Bool) : Consistent none (r.settle fd interest rearmFails) ∧
      AdmitsNone r (r.settle fd interest rearmFails) := by
  have hclose : Consistent none (r.closeConnection fd) ∧ AdmitsNone r (r.closeConnection fd) :=
    ⟨h.closeConnection (.inl rfl) nofun, admitsNone_closeConnection fd r⟩
  rw [settle, arm]
  split_ifs
  · exact hclose
  · exact hclose
  · exact ⟨h, .refl r⟩

variable {server : ReactorEnvironment} {r' : Reactor σ}

theorem call_consistent (h : Consistent none r) {fd : Fd} {entry : ConnectionEntry σ}
    (hentry : FlatMap.lookup fd r.connections = some entry)
    {occurrence : ℕ → Connection.Occurrence σ}
    (hcall : call server fd entry occurrence r = some r') :
    Consistent none r' ∧ AdmitsNone r r' := by
  rw [call] at hcall
  have hoccur := (h.attached fd entry hentry).occur entry.environment
    (occurrence (server.outcome r.calls).fuel)
  rcases hdriven : Connection.occur entry.environment entry.connection
    (occurrence (server.outcome r.calls).fuel) with ⟨c, _ | interest⟩
  · rw [hdriven] at hcall
    cases hcall
  · rw [hdriven] at hcall hoccur
    cases hcall
    have hcounted : Consistent none { r with calls := r.calls + 1 } :=
      h.of_eq rfl rfl rfl rfl rfl rfl (le_refl _)
    have hstored := hcounted.store hentry hoccur.1 hoccur.2
    obtain ⟨hsettled, hkeeps⟩ := settle_consistent hstored fd interest
      (server.outcome r.calls).rearmFails
    have hkeeps' := (admitsNone_store fd entry c { r with calls := r.calls + 1 }).trans hkeeps
    exact ⟨hsettled, hkeeps'.batches, hkeeps'.admitted⟩

/-! ### Turns -/

/-- Every connection was admitted before the batch. -/
def Earlier (r : Reactor σ) : Prop :=
  ∀ batch n fd, .admitted batch n fd ∈ r.log → batch < r.batches

theorem AdmitsNone.earlier (h : AdmitsNone r r') (hr : Earlier r) : Earlier r' := by
  intro batch n fd hmem
  rw [h.batches]
  exact hr batch n fd (h.admitted batch n fd hmem)

theorem handleConnectionEvent_consistent (h : Consistent none r) (hearlier : Earlier r) {fd : Fd}
    {events : UInt32} (hturn : handleConnectionEvent server fd events r = some r') :
    Consistent none r' ∧ AdmitsNone r r' := by
  rw [handleConnectionEvent] at hturn
  cases hentry : FlatMap.lookup fd r.connections with
  | none =>
    rw [hentry] at hturn
    cases hturn
    exact ⟨h, .refl r⟩
  | some entry =>
    rw [hentry] at hturn
    dsimp only at hturn
    have hstepped : Consistent none (r.record (.stepped r.batches entry.number)) := by
      refine h.record nofun nofun nofun nofun ?_
      intro batch n heq
      cases heq
      exact ⟨(h.live fd entry hentry).1, fun fd' hmem => lt_irrefl _ (hearlier _ _ fd' hmem)⟩
    have hkeeps : AdmitsNone r (r.record (.stepped r.batches entry.number)) :=
      admitsNone_record nofun
    cases hthrows : (server.outcome (r.record (.stepped r.batches entry.number)).calls).throws with
    | none =>
      rw [hthrows] at hturn
      obtain ⟨hconsistent, hkeeps'⟩ := call_consistent hstepped hentry hturn
      exact ⟨hconsistent, hkeeps.trans hkeeps'⟩
    | some hasNotifier =>
      rw [hthrows] at hturn
      cases hturn
      -- the ids of a connection that threw go with it
      have hcounted : Consistent none
          { r.record (.stepped r.batches entry.number) with calls := r.calls + 1 } :=
        hstepped.of_eq rfl rfl rfl rfl rfl rfl (le_refl _)
      have hexcept := hcounted.except fd
      have hkeeps₁ : AdmitsNone r
          { r.record (.stepped r.batches entry.number) with calls := r.calls + 1 } :=
        ⟨rfl, hkeeps.admitted⟩
      have hopen : FlatMap.lookup fd r.connections ≠ none := by
        rw [hentry]
        exact nofun
      cases hasNotifier with
      | false =>
        exact ⟨hexcept.closeConnection (.inr rfl) fun _ => hopen,
          hkeeps₁.trans (admitsNone_closeConnection fd _)⟩
      | true =>
        have hmade := hexcept.makeNotifier hentry fun hne => absurd rfl hne
        exact ⟨hmade.closeConnection (.inr rfl) fun _ => hopen,
          (hkeeps₁.trans (admitsNone_makeNotifier fd _ _)).trans (admitsNone_closeConnection fd _)⟩

theorem expire_consistent (h : Consistent none r) {fd : Fd}
    (hturn : expire server fd r = some r') : Consistent none r' := by
  rw [expire] at hturn
  cases hentry : FlatMap.lookup fd r.connections with
  | none =>
    rw [hentry] at hturn
    cases hturn
    exact h
  | some entry =>
    rw [hentry] at hturn
    dsimp only at hturn
    have hexpired : Consistent none (r.record (.expired entry.number)) :=
      h.record nofun nofun nofun nofun nofun
    split at hturn
    · exact (call_consistent hexpired hentry hturn).1
    · cases hturn

/-- A notification goes to the connection its id was made for. -/
theorem wakeStream_consistent (h : Consistent none r) {id : ℕ}
    (hturn : wakeStream server id r = some r') : Consistent none r' := by
  rw [wakeStream] at hturn
  cases hid : FlatMap.lookup id r.streaming with
  | none =>
    rw [hid] at hturn
    cases hturn
    exact h
  | some fd =>
    obtain ⟨entry, hentry, hmade, -⟩ := h.streams id fd hid nofun
    rw [hid] at hturn
    dsimp only at hturn
    rw [hentry] at hturn
    dsimp only at hturn
    have hnotified : Consistent none (r.record (.notified id entry.number)) := by
      refine h.record nofun nofun nofun ?_ nofun
      intro id' n heq
      cases heq
      exact ⟨hmade, (h.live fd entry hentry).2⟩
    split at hturn
    · exact (call_consistent hnotified hentry hturn).1
    · cases hturn

theorem isOpen_of_lookup {fd : Fd} {entry : ConnectionEntry σ}
    (h : FlatMap.lookup fd r.connections = some entry) : r.isOpen server fd = true := by
  rw [isOpen, h]
  simp

theorem admit_consistent (h : Consistent none r) (fd : Fd) (admission : Admission σ) :
    Consistent none (r.admitConnection server fd admission) := by
  rw [admitConnection.eq_def]
  by_cases hopen : r.isOpen server fd = true
  · rw [if_pos hopen]
    exact h
  rw [if_neg hopen]
  cases admission with
  | cidr => exact h
  | limit => exact h
  | tls => exact h
  | unregistered => exact h
  | admitted environment transport =>
    -- the descriptor is new, and so is the number of the connection
    have hnew : ∀ entry, FlatMap.lookup fd r.connections ≠ some entry :=
      fun entry hentry => hopen (isOpen_of_lookup hentry)
    have hkey : fd ∉ r.connections.map Prod.fst :=
      (FlatMap.lookup_eq_none_iff h.sorted).1 (Option.eq_none_iff_forall_ne_some.2 hnew)
    have hmem : ∀ {e : ReactorEvent},
        e ∈ r.log ++ [ReactorEvent.admitted r.batches r.admitted fd] →
          e ∈ r.log ∨ e = .admitted r.batches r.admitted fd := mem_concat.1
    refine ⟨h.sorted.insertOrAssign _ _, h.sortedIds, ?_, ?_, ?_, ?_, ?_, ?_, ?_, ?_, ?_, ?_⟩
    · show r.connectionsActive + 1 = _
      rw [FlatMap.length_insertOrAssign_of_notMem hkey, h.active]
      simp
    · intro id fd' hid hne
      obtain ⟨entry', hentry', hmade, hattached⟩ := h.streams id fd' hid hne
      have hne' : fd' ≠ fd := fun heq => hnew entry' (heq ▸ hentry')
      refine ⟨entry', ?_, mem_concat.2 (.inl hmade), hattached⟩
      exact (FlatMap.lookup_insertOrAssign_of_ne hne' _ _).trans hentry'
    · intro fd' entry' hfd
      rcases FlatMap.lookup_insertOrAssign_cases hfd with ⟨-, rfl⟩ | ⟨-, hfd⟩
      · exact fun hpos => absurd hpos (lt_irrefl 0)
      · exact h.attached fd' entry' hfd
    · intro fd' entry' hfd
      rcases FlatMap.lookup_insertOrAssign_cases hfd with ⟨-, rfl⟩ | ⟨-, hfd⟩
      · refine ⟨Nat.lt_succ_self _, fun hclosed => ?_⟩
        rcases hmem hclosed with hclosed | heq
        · exact lt_irrefl _ (h.closed _ hclosed)
        · cases heq
      · obtain ⟨hlt, hlive⟩ := h.live fd' entry' hfd
        refine ⟨Nat.lt_succ_of_lt hlt, fun hclosed => ?_⟩
        rcases hmem hclosed with hclosed | heq
        · exact hlive hclosed
        · cases heq
    · intro fd₁ fd₂ entry₁ entry₂ h₁ h₂ heq
      rcases FlatMap.lookup_insertOrAssign_cases h₁ with ⟨hfd₁, hentry₁⟩ | ⟨-, hold₁⟩
      · rcases FlatMap.lookup_insertOrAssign_cases h₂ with ⟨hfd₂, -⟩ | ⟨-, hold₂⟩
        · exact hfd₁.trans hfd₂.symm
        · rw [hentry₁] at heq
          exact absurd heq.symm (h.live fd₂ entry₂ hold₂).1.ne
      · rcases FlatMap.lookup_insertOrAssign_cases h₂ with ⟨-, hentry₂⟩ | ⟨-, hold₂⟩
        · rw [hentry₂] at heq
          exact absurd heq (h.live fd₁ entry₁ hold₁).1.ne
        · exact h.numbers fd₁ fd₂ entry₁ entry₂ hold₁ hold₂ heq
    · intro id n hmade
      rcases hmem hmade with hmade | heq
      · exact h.made id n hmade
      · cases heq
    · intro n hclosed
      rcases hmem hclosed with hclosed | heq
      · exact Nat.lt_succ_of_lt (h.closed n hclosed)
      · cases heq
    · intro batch n hstepped
      rcases hmem hstepped with hstepped | heq
      · exact Nat.lt_succ_of_lt (h.stepped batch n hstepped)
      · cases heq
    · intro batch n fd' hadmitted
      rcases hmem hadmitted with hadmitted | heq
      · obtain ⟨hlt, hle⟩ := h.admitted batch n fd' hadmitted
        exact ⟨Nat.lt_succ_of_lt hlt, hle⟩
      · cases heq
        exact ⟨Nat.lt_succ_self _, le_refl _⟩
    · refine h.orderly.concat nofun nofun nofun ?_
      intro batch n fd' heq hstepped
      cases heq
      exact lt_irrefl _ (h.stepped _ _ hstepped)

theorem acceptReady_consistent (h : Consistent none r) {rounds : ℕ}
    {answers : List (AcceptResult σ)} (hturn : acceptReady server rounds answers r = some r') :
    Consistent none r' := by
  induction rounds generalizing r answers with
  | zero =>
    cases hturn
    exact h
  | succ rounds ih =>
    cases answers with
    | nil =>
      cases hturn
      exact h
    | cons answer answers =>
      cases answer with
      | accepted fd admission => exact ih (admit_consistent h fd admission) hturn
      | wouldBlock =>
        cases hturn
        exact h
      | transientError =>
        cases hturn
        exact h
      | fatalError => cases hturn

theorem connectionPass_consistent (h : Consistent none r) (hearlier : Earlier r)
    {events : List (Fd × UInt32)} (hturn : connectionPass server events r = some r') :
    Consistent none r' := by
  refine (foldlM_invariant (I := fun x => Consistent none x ∧ Earlier x) ?_ ⟨h, hearlier⟩ hturn).1
  intro r₁ event _ r₂ h₁ hevent
  split_ifs at hevent
  · cases hevent
    exact h₁
  · obtain ⟨hconsistent, hkeeps⟩ := handleConnectionEvent_consistent h₁.1 h₁.2 hevent
    exact ⟨hconsistent, hkeeps.earlier h₁.2⟩

theorem drainStreamWakeups_consistent (h : Consistent none r)
    (hturn : drainStreamWakeups server r = some r') : Consistent none r' := by
  have hdrained : Consistent none { r with pendingStreams := [] } :=
    h.of_eq rfl rfl rfl rfl rfl rfl (le_refl _)
  exact foldlM_invariant (fun _ _ _ _ hx hstep => wakeStream_consistent hx hstep) hdrained hturn

theorem notifyStream_consistent (h : Consistent none r) (ids : List ℕ) :
    Consistent none (ids.foldl notifyStream r) := by
  induction ids generalizing r with
  | nil => exact h
  | cons id ids ih =>
    refine ih ?_
    rw [notifyStream]
    split_ifs
    · exact h
    · exact h.of_eq rfl rfl rfl rfl rfl rfl (le_refl _)

theorem acceptPass_consistent (h : Consistent none r) {batch : Batch σ}
    (hturn : acceptPass server batch r = some r') : Consistent none r' := by
  refine foldlM_invariant ?_ h hturn
  intro r₁ event _ r₂ h₁ hevent
  split_ifs at hevent
  · exact drainStreamWakeups_consistent (notifyStream_consistent h₁ _) hevent
  · exact acceptReady_consistent h₁ hevent
  · cases hevent
    exact h₁

theorem turn_consistent (h : Consistent none r) {batch : Batch σ}
    (hturn : turn server r batch = some r') : Consistent none r' := by
  simp only [turn, Option.bind_eq_bind, Option.bind_eq_some_iff] at hturn
  obtain ⟨r₁, hfirst, r₂, hsecond, hscan⟩ := hturn
  have hbegun : Consistent none { r with batches := r.batches + 1 } :=
    h.of_eq rfl rfl rfl rfl rfl rfl (Nat.le_succ _)
  have hearlier : Earlier { r with batches := r.batches + 1 } :=
    fun batch n fd hmem => Nat.lt_succ_of_le (h.admitted batch n fd hmem).2
  have h₁ := connectionPass_consistent hbegun hearlier hfirst
  have h₂ := acceptPass_consistent h₁ hsecond
  exact foldlM_invariant (fun _ _ _ _ hx hstep => expire_consistent hx hstep) h₂ hscan

theorem orderly_nil : Orderly [] := by
  refine ⟨List.nodup_nil, ?_, ?_⟩
  · intro before id n after heq
    simp at heq
  · intro batch n fd hmem
    cases hmem

theorem init_consistent : Consistent none ({} : Reactor σ) where
  sorted := .nil
  sortedIds := .nil
  active := rfl
  streams := by
    intro id fd hid
    cases hid
  attached := by
    intro fd entry hentry
    cases hentry
  live := by
    intro fd entry hentry
    cases hentry
  numbers := by
    intro fd fd' entry entry' hentry
    cases hentry
  made := by
    intro id n hmem
    cases hmem
  closed := by
    intro n hmem
    cases hmem
  stepped := by
    intro batch n hmem
    cases hmem
  admitted := by
    intro batch n fd hmem
    cases hmem
  orderly := orderly_nil

theorem run_consistent {batches : List (Batch σ)} (h : run server batches = some r) :
    Consistent none r :=
  foldlM_invariant (fun _ _ _ _ hx hstep => turn_consistent hx hstep) init_consistent h

/-- **Stream ids, descriptors and the count of connections.**  After every run of turns, for any
events, accepts, notifications and deadlines:

* an entry of `streaming_` leads to the open connection that its id was made for, which streams or
  closes;
* no id was made twice;
* a notification was handed to a connection only if its id was made for that connection; none was
  for an id whose connection was closed before;
* no event of a batch was handed to a connection admitted in that batch;
* `connections_active` is the number of connections. -/
theorem stream_ids_and_descriptors (server : ReactorEnvironment) (batches : List (Batch σ))
    (r : Reactor σ) (h : run server batches = some r) :
    (∀ id fd, (id, fd) ∈ r.streaming → ∃ entry, (fd, entry) ∈ r.connections ∧
      .notifierMade id entry.number ∈ r.log ∧ .closed entry.number ∉ r.log ∧
      (entry.connection.state = .streaming ∨ entry.connection.state = .closing)) ∧
    (r.log.filterMap fun event => match event with
      | .notifierMade id _ => some id
      | _ => none).Nodup ∧
    (∀ before id n after, r.log = before ++ .notified id n :: after →
      .notifierMade id n ∈ before ∧
      ∀ n', .notifierMade id n' ∈ before → .closed n' ∉ before) ∧
    (∀ batch n fd, .stepped batch n ∈ r.log → .admitted batch n fd ∉ r.log) ∧
    r.connectionsActive = r.connections.length := by
  have hr := run_consistent h
  refine ⟨fun id fd hid => ?_, hr.orderly.madeOnce, fun before id n after heq => ?_,
    hr.orderly.stepped, hr.active⟩
  · have hlookup := (FlatMap.lookup_eq_some_iff hr.sortedIds).2 hid
    obtain ⟨entry, hentry, hmade, hattached⟩ := hr.streams id fd hlookup nofun
    exact ⟨entry, (FlatMap.lookup_eq_some_iff hr.sorted).1 hentry, hmade,
      (hr.live fd entry hentry).2, hr.attached fd entry hentry hattached⟩
  · obtain ⟨hmade, hopen⟩ := hr.orderly.notified before id n after heq
    refine ⟨hmade, fun n' hmade' => ?_⟩
    have honce : (madeIds before).Nodup := by
      have hall := hr.orderly.madeOnce
      rw [heq, madeIds_append] at hall
      exact hall.of_append_left
    rw [← notifierMade_inj honce hmade hmade']
    exact hopen

/-- A stream ends, its descriptor goes to the next peer, and its id is notified once more. -/
theorem stream_ids_and_descriptors_reused :
    let source : StreamSource :=
      ⟨[], false, fun i => ([], some (if i = 0 then .idle else .finished))⟩
    let env := Environment.scripted fun _ => .returned (.ofStream (some source))
    let peer : Peer := ⟨[ascii "GET / HTTP/1.1\r\nHost: a\r\n\r\n"], true⟩
    let server : ReactorEnvironment := ⟨3, [4], fun _ => { fuel := 9 }⟩
    let batch (events : List (Fd × UInt32)) : Batch Peer :=
      ⟨events, fun _ => [.accepted 5 (.admitted env peer), .wouldBlock], fun _ => [1], 0⟩
    ∃ r, run server [batch [(4, 1)], batch [(5, 1)], batch [(3, 1), (4, 1)], batch [(3, 1)]] =
        some r ∧
      r.log = [.admitted 1 0 5, .stepped 2 0, .notifierMade 1 0, .notified 1 0, .closed 0,
        .admitted 3 1 5] ∧
      r.connectionsActive = r.connections.length := by
  intro source env peer server batch
  have hlog : ((run server [batch [(4, 1)], batch [(5, 1)], batch [(3, 1), (4, 1)],
      batch [(3, 1)]]).map (·.log)) = some [.admitted 1 0 5, .stepped 2 0, .notifierMade 1 0,
        .notified 1 0, .closed 0, .admitted 3 1 5] := by decide +kernel
  obtain ⟨r, hrun, hr⟩ := Option.map_eq_some_iff.1 hlog
  exact ⟨r, hrun, hr, (stream_ids_and_descriptors server _ r hrun).2.2.2.2⟩

end Reactor

end ErikslundHttp
