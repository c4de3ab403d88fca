import ErikslundHttp.Lib.Ownership
import ErikslundHttp.Server.Reactors

/-!
# Who is connected

Whatever the reactors do at the same time, every token that holds a slot is in the hands of exactly
one of them, once.

* `Held`: who holds what.
* `Held.sum_source`: the counts of the server, which are those of the tokens (`Tokens.Accounted`), are
  those of the connections.
* `connected_peers`: so the limits hold of the connections, in every state.
-/

namespace ErikslundHttp

/-! ### Tokens -/

namespace Tokens

variable {w : Tokens} {objects : List (Option ConnectionAdmission)} {k number : ℕ}
  {token : ConnectionAdmission}

/-- The object of this number is a token with a slot. -/
def liveIn (objects : List (Option ConnectionAdmission)) (k : ℕ) : Bool :=
  match objects[k]? with
  | some (some token) => token.state
  | _ => false

/-- The token of that number is held by some object, and has not been released. -/
def live (w : Tokens) (k : ℕ) : Bool := liveIn w.objects k

theorem exists_of_liveIn (h : liveIn objects k = true) :
    ∃ token, objects[k]? = some (some token) ∧ token.state = true := by
  unfold liveIn at h
  split at h
  · next token hget => exact ⟨token, hget, h⟩
  · cases h

theorem lt_of_liveIn (h : liveIn objects k = true) : k < objects.length := by
  obtain ⟨token, hget, -⟩ := exists_of_liveIn h
  exact (List.getElem?_eq_some_iff.1 hget).1

theorem liveIn_append (objects : List (Option ConnectionAdmission)) (hstate : token.state = true)
    (k : ℕ) :
    (liveIn (objects ++ [some token]) k).toNat =
      (liveIn objects k).toNat + if k = objects.length then 1 else 0 := by
  unfold liveIn
  rcases lt_trichotomy k objects.length with hlt | rfl | hgt
  · rw [List.getElem?_append_left hlt, if_neg hlt.ne, Nat.add_zero]
  · simp [hstate]
  · rw [List.getElem?_eq_none (by simpa using hgt), List.getElem?_eq_none hgt.le, if_neg hgt.ne']
    rfl

theorem liveIn_set (object : Option ConnectionAdmission) (hlive : liveIn objects number = true)
    (hobject : ∀ token, object = some token → token.state = false) (k : ℕ) :
    (liveIn (objects.set number object) k).toNat + (if k = number then 1 else 0) =
      (liveIn objects k).toNat := by
  by_cases hk : k = number
  · subst hk
    rw [if_pos rfl, hlive]
    unfold liveIn
    rw [List.getElem?_set_self (lt_of_liveIn hlive)]
    cases object with
    | none => rfl
    | some token => simp [hobject token rfl]
  · unfold liveIn
    rw [List.getElem?_set_ne (Ne.symm hk), if_neg hk, Nat.add_zero]

/-- What is known of the peers of tokens stays known. -/
def Stable (objects objects' : List (Option ConnectionAdmission)) : Prop :=
  ∀ k < objects.length, ∀ token', objects'[k]? = some (some token') →
    ∃ token, objects[k]? = some (some token) ∧ token.peer = token'.peer

theorem Stable.append (object : Option ConnectionAdmission) :
    Stable objects (objects ++ [object]) := by
  intro k hlt token' hget
  rw [List.getElem?_append_left hlt] at hget
  exact ⟨token', hget, rfl⟩

theorem Stable.set {object : Option ConnectionAdmission}
    (hget : objects[number]? = some (some token))
    (hobject : ∀ token', object = some token' → token'.peer = token.peer) :
    Stable objects (objects.set number object) := by
  intro k hlt token' hget'
  by_cases hk : k = number
  · subst hk
    rw [List.getElem?_set_self hlt] at hget'
    exact ⟨token, hget, (hobject token' (Option.some.inj hget')).symm⟩
  · rw [List.getElem?_set_ne (Ne.symm hk)] at hget'
    exact ⟨token', hget', rfl⟩

/-! What the steps that reactors take do to the tokens. -/

theorem step_admitPeer (h : w.Accounted) {peer : PeerAddress}
    (hok : (w.server.admitPeer peer).1 = .ok token) :
    (w.step (.admitPeer peer)).objects = w.objects ++ [some token] ∧ token.state = true ∧
      token.peer = peer := by
  obtain ⟨reason, heq⟩ | ⟨entries, token', heq, htoken, -⟩ := admitPeer_cases h.sorted peer
  · rw [heq] at hok
    cases hok
  · rw [heq] at hok
    cases hok
    refine ⟨?_, by rw [htoken], by rw [htoken]⟩
    unfold step
    dsimp only
    rw [heq]

theorem step_admitPeer_of_error (h : w.Accounted) {peer : PeerAddress}
    {reason : AdmissionRejection} (herror : (w.server.admitPeer peer).1 = .error reason) :
    w.step (.admitPeer peer) = w := by
  obtain ⟨reason', heq⟩ | ⟨entries, token', heq, -⟩ := admitPeer_cases h.sorted peer
  · unfold step
    dsimp only
    rw [heq]
  · rw [heq] at herror
    cases herror

theorem step_destroy (hget : w.objects[number]? = some (some token)) :
    (w.step (.destroy number)).objects = w.objects.set number none := by
  unfold step release
  dsimp only
  rw [hget]
  dsimp only
  split_ifs
  · exact List.set_set ..
  · rfl

theorem step_moveConstruct (hget : w.objects[number]? = some (some token)) :
    (w.step (.moveConstruct number)).objects =
      w.objects.set number (some { token with state := false }) ++ [some token] := by
  unfold step
  dsimp only
  rw [hget]

/-- A token that holds a slot is destroyed. -/
theorem live_destroy (hlive : w.live number = true) (k : ℕ) :
    ((w.step (.destroy number)).live k).toNat + (if k = number then 1 else 0) =
      (w.live k).toNat := by
  obtain ⟨token, hget, -⟩ := exists_of_liveIn hlive
  rw [live, step_destroy hget]
  exact liveIn_set none hlive (fun _ h => by cases h) k

theorem stable_destroy (hlive : w.live number = true) :
    Stable w.objects (w.step (.destroy number)).objects := by
  obtain ⟨token, hget, -⟩ := exists_of_liveIn hlive
  rw [step_destroy hget]
  exact .set hget fun _ h => by cases h

/-- The token moves to a new object, and the old one is destroyed. -/
def moved (w : Tokens) (number : ℕ) : Tokens :=
  (w.step (.moveConstruct number)).step (.destroy number)

theorem objects_moved (hget : w.objects[number]? = some (some token)) :
    (w.moved number).objects = w.objects.set number none ++ [some token] := by
  have hlt := (List.getElem?_eq_some_iff.1 hget).1
  have hget' : (w.step (.moveConstruct number)).objects[number]? =
      some (some { token with state := false }) := by
    rw [step_moveConstruct hget, List.getElem?_append_left (by simpa using hlt),
      List.getElem?_set_self hlt]
  rw [moved, step_destroy hget', step_moveConstruct hget,
    List.set_append_left _ _ (by simpa using hlt), List.set_set]

theorem live_moved (hlive : w.live number = true) (k : ℕ) :
    ((w.moved number).live k).toNat + (if k = number then 1 else 0) =
      (w.live k).toNat + if k = w.objects.length then 1 else 0 := by
  obtain ⟨token, hget, hstate⟩ := exists_of_liveIn hlive
  have happend := liveIn_append (w.objects.set number none) hstate k
  have hset := liveIn_set none hlive (fun _ h => by cases h) k
  rw [List.length_set] at happend
  rw [live, live, objects_moved hget]
  omega

theorem stable_moved (hlive : w.live number = true) :
    Stable w.objects (w.moved number).objects := by
  obtain ⟨token, hget, -⟩ := exists_of_liveIn hlive
  rw [objects_moved hget]
  intro k hlt token' hget'
  have hset : Stable w.objects (w.objects.set number none) := .set hget fun _ h => by cases h
  refine hset k hlt token' ?_
  rwa [List.getElem?_append_left (by simpa using hlt)] at hget'

/-! The tokens with a slot, counted by their numbers. -/

/-- The numbers of the tokens that are live. -/
def liveNumbers (w : Tokens) : List ℕ := (List.range w.objects.length).filter w.live

theorem count_liveNumbers (w : Tokens) (k : ℕ) : w.liveNumbers.count k = (w.live k).toNat := by
  unfold liveNumbers
  cases hlive : w.live k with
  | false => exact List.count_eq_zero.2 fun hmem => by simp [hlive] at hmem
  | true =>
    rw [List.count_filter hlive, List.nodup_range.count,
      if_pos (List.mem_range.2 (lt_of_liveIn hlive))]
    rfl

/-- The peer that the token of a number was made for. -/
def peerAt (w : Tokens) (k : ℕ) : PeerAddress :=
  match w.objects[k]? with
  | some (some token) => token.peer
  | _ => {}

theorem countP_liveNumbers (w : Tokens) (p : PeerAddress → Bool) :
    w.liveNumbers.countP (fun k => p (w.peerAt k)) = w.count fun token => p token.peer := by
  have hobjects : w.objects = (List.range w.objects.length).map fun k => w.objects[k]?.join := by
    refine List.ext_getElem (by simp) fun k hlt _ => ?_
    simp [hlt]
  unfold count liveNumbers
  conv_rhs => rw [hobjects]
  rw [List.countP_filter, List.countP_map]
  refine List.countP_congr fun k hk => ?_
  have hlt := List.mem_range.1 hk
  cases hobject : w.objects[k] <;>
    simp [live, liveIn, peerAt, hlt, hobject, Bool.and_comm]

end Tokens

/-! ### What a step does -/

namespace ReactorConnections

/-- The numbers of the tokens in the reactor's hands. -/
def keys (r : ReactorConnections) : List ℕ := r.held.map AdmittedPeer.admission

/-- What the metric counts as active of the reactor's connections. -/
def active (r : ReactorConnections) : ℤ :=
  match r.phase with
  | .stored => r.connections.length - 1
  | .erased => r.connections.length + 1
  | .destroyed => 0
  | _ => r.connections.length

end ReactorConnections

/-- One in `admit` that was accepted, and nothing else counted of it yet. -/
def AdmitPhase.pending : AdmitPhase → ℕ
  | .accepted _ _ | .allowed _ _ | .refused _ | .holding _ _ | .built _ _ => 1
  | _ => 0

namespace Reactors

variable {n : ℕ} {allowList : CidrAllowList} {s s' : Reactors n} {a : ReactorStep n}

/-- What a step can do, case by case. -/
inductive Stepped (allowList : CidrAllowList) (s : Reactors n) : Reactors n → Prop
  | accept (i : Fin n) (fd : Fd) (address : SockAddr) (hphase : (s.reactors i).phase = .idle)
      (hfree : (s.reactors i).isOpen fd = false) :
      Stepped allowList s
        { s.goTo i (.accepted fd address) with metrics := s.metrics.connectionAccepted }
  | bar (i : Fin n) (fd : Fd) (address : SockAddr)
      (hphase : (s.reactors i).phase = .accepted fd address) :
      Stepped allowList s (s.goTo i (.refused .cidr))
  | allow (i : Fin n) (fd : Fd) (address : SockAddr)
      (hphase : (s.reactors i).phase = .accepted fd address)
      (hallowed : isBarred allowList (peerAddressFrom address) = false) :
      Stepped allowList s (s.goTo i (.allowed fd address))
  | admitted (i : Fin n) (fd : Fd) (address : SockAddr) (token : ConnectionAdmission)
      (hphase : (s.reactors i).phase = .allowed fd address)
      (hok : (s.tokens.server.admitPeer (peerAddressFrom address)).1 = .ok token) :
      Stepped allowList s { s.goTo i (.holding fd ⟨address, s.tokens.objects.length⟩) with
        tokens := s.tokens.step (.admitPeer (peerAddressFrom address)) }
  | refuse (i : Fin n) (fd : Fd) (address : SockAddr) (reason : AdmissionRejection)
      (hphase : (s.reactors i).phase = .allowed fd address)
      (herror : (s.tokens.server.admitPeer (peerAddressFrom address)).1 = .error reason) :
      Stepped allowList s { s.goTo i (.refused reason.toMetric) with
        tokens := s.tokens.step (.admitPeer (peerAddressFrom address)) }
  | countRejection (i : Fin n) (reason : ConnectionRejection)
      (hphase : (s.reactors i).phase = .refused reason) :
      Stepped allowList s { s.goTo i .idle with metrics := s.metrics.connectionRejected reason }
  | refuseTls (i : Fin n) (fd : Fd) (entry : AdmittedPeer)
      (hphase : (s.reactors i).phase = .holding fd entry) :
      Stepped allowList s
        { s.goTo i (.dropping entry) with metrics := s.metrics.connectionRejected .tls }
  | build (i : Fin n) (fd : Fd) (entry : AdmittedPeer)
      (hphase : (s.reactors i).phase = .holding fd entry) :
      Stepped allowList s
        { s.goTo i (.built fd { entry with admission := s.tokens.objects.length }) with
          tokens := s.tokens.moved entry.admission }
  | abandon (i : Fin n) (fd : Fd) (address : SockAddr)
      (hphase : (s.reactors i).phase = .accepted fd address ∨
        (s.reactors i).phase = .allowed fd address) :
      Stepped allowList s { s.goTo i .idle with dropped := s.dropped + 1 }
  | abandonHeld (i : Fin n) (fd : Fd) (entry : AdmittedPeer)
      (hphase : (s.reactors i).phase = .holding fd entry ∨
        (s.reactors i).phase = .built fd entry) :
      Stepped allowList s { s.goTo i (.dropping entry) with dropped := s.dropped + 1 }
  | drop (i : Fin n) (entry : AdmittedPeer) (hphase : (s.reactors i).phase = .dropping entry) :
      Stepped allowList s
        { s.goTo i .idle with tokens := s.tokens.step (.destroy entry.admission) }
  | store (i : Fin n) (fd : Fd) (entry : AdmittedPeer)
      (hphase : (s.reactors i).phase = .built fd entry) :
      Stepped allowList s
        { s.put i { phase := .stored
                    connections :=
                      FlatMap.insertOrAssign fd entry (s.reactors i).connections } with
          stored := s.stored + 1 }
  | countStored (i : Fin n) (hphase : (s.reactors i).phase = .stored) :
      Stepped allowList s
        { s.goTo i .idle with metrics := s.metrics.connectionsActiveChanged 1 }
  | close (i : Fin n) (fd : Fd) (entry : AdmittedPeer) (hphase : (s.reactors i).phase = .idle)
      (hlookup : FlatMap.lookup fd (s.reactors i).connections = some entry) :
      Stepped allowList s
        { s.put i { phase := .erased
                    connections := (s.reactors i).connections.filter fun e => e.1 != fd } with
          tokens := s.tokens.step (.destroy entry.admission) }
  | countErased (i : Fin n) (hphase : (s.reactors i).phase = .erased) :
      Stepped allowList s
        { s.goTo i .idle with metrics := s.metrics.connectionsActiveChanged (-1) }
  | destroy (i : Fin n) (hphase : (s.reactors i).phase = .idle) :
      Stepped allowList s { s.goTo i .destroyed with
        metrics := s.metrics.connectionsActiveChanged (-(s.reactors i).connections.length) }
  | clear (i : Fin n) (fd : Fd) (entry : AdmittedPeer) (rest : List (Fd × AdmittedPeer))
      (hphase : (s.reactors i).phase = .destroyed)
      (hconnections : (s.reactors i).connections = (fd, entry) :: rest) :
      Stepped allowList s { s.put i { phase := .destroyed, connections := rest } with
        tokens := s.tokens.step (.destroy entry.admission) }

theorem stepped (h : step allowList s a = some s') : Stepped allowList s s' := by
  cases a with
  | accept i fd address =>
    simp only [step] at h
    split at h
    · next hphase =>
      split_ifs at h with hfree
      cases h
      exact .accept i fd address hphase (hfree i)
    · cases h
  | screen i =>
    simp only [step] at h
    split at h
    · next fd address hphase =>
      split_ifs at h with hbarred
      · cases h
        exact .bar i fd address hphase
      · cases h
        exact .allow i fd address hphase (Bool.eq_false_of_not_eq_true hbarred)
    · cases h
  | admitPeer i =>
    simp only [step] at h
    split at h
    · next fd address hphase =>
      split at h
      · next token hok =>
        cases h
        exact .admitted i fd address token hphase hok
      · next reason herror =>
        cases h
        exact .refuse i fd address reason hphase herror
    · cases h
  | countRejection i =>
    simp only [step] at h
    split at h
    · next reason hphase =>
      cases h
      exact .countRejection i reason hphase
    · cases h
  | refuseTls i =>
    simp only [step] at h
    split at h
    · next fd entry hphase =>
      cases h
      exact .refuseTls i fd entry hphase
    · cases h
  | build i =>
    simp only [step] at h
    split at h
    · next fd entry hphase =>
      cases h
      exact .build i fd entry hphase
    · cases h
  | abandon i =>
    simp only [step] at h
    split at h
    · next fd address hphase =>
      cases h
      exact .abandon i fd address (.inl hphase)
    · next fd address hphase =>
      cases h
      exact .abandon i fd address (.inr hphase)
    · next fd entry hphase =>
      cases h
      exact .abandonHeld i fd entry (.inl hphase)
    · next fd entry hphase =>
      cases h
      exact .abandonHeld i fd entry (.inr hphase)
    · cases h
  | drop i =>
    simp only [step] at h
    split at h
    · next entry hphase =>
      cases h
      exact .drop i entry hphase
    · cases h
  | store i =>
    simp only [step] at h
    split at h
    · next fd entry hphase =>
      cases h
      exact .store i fd entry hphase
    · cases h
  | countStored i =>
    simp only [step] at h
    split at h
    · next hphase =>
      cases h
      exact .countStored i hphase
    · cases h
  | close i fd =>
    simp only [step] at h
    split at h
    · next entry hphase hlookup =>
      cases h
      exact .close i fd entry hphase hlookup
    · cases h
  | countErased i =>
    simp only [step] at h
    split at h
    · next hphase =>
      cases h
      exact .countErased i hphase
    · cases h
  | destroy i =>
    simp only [step] at h
    split at h
    · next hphase =>
      cases h
      exact .destroy i hphase
    · cases h
  | clear i =>
    simp only [step] at h
    split at h
    · next fd entry rest hphase hconnections =>
      cases h
      exact .clear i fd entry rest hphase hconnections
    · cases h

/-! ### Who holds the tokens -/

/-- Each token with a slot is held by one reactor, once, and for the peer it was made for. -/
structure Held (s : Reactors n) : Prop where
  accounted : s.tokens.Accounted
  /-- No token is held twice, and those that are held are the live ones. -/
  owned : Ownership.Owned (fun i => (s.reactors i).keys) s.tokens.live
  peers : ∀ i, ∀ e ∈ (s.reactors i).held, ∀ token,
    s.tokens.objects[e.admission]? = some (some token) → token.peer = e.peer

/-- One reactor changes, and the tokens as its hands do. -/
theorem Held.put (h : Held s) {i : Fin n} {r : ReactorConnections} {w : Tokens}
    (haccounted : w.Accounted) (hstable : Tokens.Stable s.tokens.objects w.objects)
    (hkeys : ∀ key, r.keys.count key + (s.tokens.live key).toNat =
      (s.reactors i).keys.count key + (w.live key).toNat)
    (hpeers : ∀ e ∈ r.held, e ∈ (s.reactors i).held ∨
      ∀ token, w.objects[e.admission]? = some (some token) → token.peer = e.peer)
    (hreactors : s'.reactors = Function.update s.reactors i r) (htokens : s'.tokens = w) :
    Held s' := by
  have hold : ∀ j, ∀ e ∈ (s.reactors j).held, ∀ token,
      w.objects[e.admission]? = some (some token) → token.peer = e.peer := by
    intro j e he token hget
    have hlive := h.owned.live_of_mem (List.mem_map_of_mem he)
    obtain ⟨token', hget', hpeer⟩ := hstable _ (Tokens.lt_of_liveIn hlive) token hget
    rw [← hpeer]
    exact h.peers j e he token' hget'
  refine ⟨htokens ▸ haccounted, ?_, fun j e he => ?_⟩
  · have hkeep : (fun j => (Function.update s.reactors i r j).keys) =
        Function.update (fun j => (s.reactors j).keys) i r.keys := by
      funext j
      by_cases hj : j = i
      · subst hj
        rw [Function.update_self, Function.update_self]
      · rw [Function.update_of_ne hj, Function.update_of_ne hj]
    rw [htokens, hreactors, hkeep]
    exact h.owned.update i r.keys hkeys
  · rw [hreactors] at he
    rw [htokens]
    by_cases hj : j = i
    · subst hj
      rw [Function.update_self] at he
      exact (hpeers e he).elim (hold j e) id
    · rw [Function.update_of_ne hj] at he
      exact hold j e he

/-- One reactor changes, but not what it has in its hands. -/
theorem Held.goTo (h : Held s) {i : Fin n} {phase : AdmitPhase}
    (hheld : phase.held = (s.reactors i).phase.held)
    (hreactors : s'.reactors =
      Function.update s.reactors i { s.reactors i with phase := phase })
    (htokens : s'.tokens = s.tokens) : Held s' := by
  have hsame : ReactorConnections.held { s.reactors i with phase := phase } =
      (s.reactors i).held := by
    rw [ReactorConnections.held, ReactorConnections.held, hheld]
  refine h.put h.accounted (fun k _ token hget => ⟨token, hget, rfl⟩) (fun key => ?_)
    (fun e he => .inl (hsame ▸ he)) hreactors htokens
  rw [ReactorConnections.keys, ReactorConnections.keys, hsame]

/-! ### What each reactor keeps -/

/-- The descriptor in the thread's hands is not that of a connection, and whoever got past the allow
list is allowed. -/
structure Kept (allowList : CidrAllowList) (r : ReactorConnections) : Prop where
  sorted : FlatMap.Sorted r.connections
  /-- The kernel gives a new descriptor. -/
  fresh : ∀ fd, r.phase.fd? = some fd → FlatMap.lookup fd r.connections = none
  /-- Nobody is connected whom the allow list bars. -/
  screened : ∀ e ∈ r.held, isBarred allowList e.peer = false
  allowed : ∀ fd address, r.phase = .allowed fd address →
    isBarred allowList (peerAddressFrom address) = false

/-- The thread goes on, with the same things in its hands. -/
theorem Kept.goTo {r : ReactorConnections} (h : Kept allowList r) {phase : AdmitPhase}
    (hheld : phase.held = r.phase.held)
    (hfd : ∀ fd, phase.fd? = some fd → FlatMap.lookup fd r.connections = none)
    (hallowed : ∀ fd address, phase = .allowed fd address →
      isBarred allowList (peerAddressFrom address) = false) :
    Kept allowList { r with phase := phase } := by
  refine ⟨h.sorted, hfd, fun e he => h.screened e ?_, hallowed⟩
  rw [ReactorConnections.held, hheld] at he
  exact he

theorem kept_put (h : ∀ j, Kept allowList (s.reactors j)) {i : Fin n} {r : ReactorConnections}
    (hr : Kept allowList r) (hreactors : s'.reactors = Function.update s.reactors i r) (j : Fin n) :
    Kept allowList (s'.reactors j) := by
  rw [hreactors]
  by_cases hj : j = i
  · subst hj
    rwa [Function.update_self]
  · rw [Function.update_of_ne hj]
    exact h j

theorem kept_stepped (h : ∀ j, Kept allowList (s.reactors j)) (hstep : Stepped allowList s s')
    (j : Fin n) : Kept allowList (s'.reactors j) := by
  -- a phase that has neither a descriptor nor a peer in it
  have hplain {i : Fin n} {phase : AdmitPhase} (hheld : phase.held = (s.reactors i).phase.held)
      (hfd : phase.fd? = none) (hreactors : s'.reactors =
        Function.update s.reactors i { s.reactors i with phase := phase }) :
      Kept allowList (s'.reactors j) := by
    refine kept_put h ((h i).goTo hheld (fun fd hsome => ?_) fun fd address heq => ?_) hreactors j
    · rw [hfd] at hsome
      cases hsome
    · rw [heq] at hfd
      cases hfd
  cases hstep with
  | accept i fd address hphase hfree =>
    refine kept_put h ((h i).goTo (by rw [hphase]; rfl) (fun fd' hsome => ?_) fun _ _ heq => ?_)
      rfl j
    · cases hsome
      have hnone := (Bool.or_eq_false_iff.1 hfree).2
      exact Option.not_isSome_iff_eq_none.1 (by simp [hnone])
    · cases heq
  | bar i fd address hphase => exact hplain (by rw [hphase]; rfl) rfl rfl
  | allow i fd address hphase hallowed =>
    refine kept_put h ((h i).goTo (by rw [hphase]; rfl) (fun fd' hsome => ?_)
      fun fd' address' heq => ?_) rfl j
    · cases hsome
      exact (h i).fresh fd (by rw [hphase]; rfl)
    · cases heq
      exact hallowed
  | admitted i fd address token hphase hok =>
    refine kept_put h (r := { s.reactors i with
        phase := .holding fd ⟨address, s.tokens.objects.length⟩ })
      ⟨(h i).sorted, fun fd' hsome => ?_, fun e he => ?_, fun _ _ heq => ?_⟩ rfl j
    · cases hsome
      exact (h i).fresh fd (by rw [hphase]; rfl)
    · rcases List.mem_append.1 he with hmem | hmem
      · cases List.mem_singleton.1 hmem
        exact (h i).allowed fd address hphase
      · exact (h i).screened e (List.mem_append_right _ hmem)
    · cases heq
  | refuse i fd address reason hphase _ => exact hplain (by rw [hphase]; rfl) rfl rfl
  | countRejection i reason hphase => exact hplain (by rw [hphase]; rfl) rfl rfl
  | refuseTls i fd entry hphase => exact hplain (by rw [hphase]; rfl) rfl rfl
  | build i fd entry hphase =>
    refine kept_put h (r := { s.reactors i with
        phase := .built fd { entry with admission := s.tokens.objects.length } })
      ⟨(h i).sorted, fun fd' hsome => ?_, fun e he => ?_, fun _ _ heq => ?_⟩ rfl j
    · cases hsome
      exact (h i).fresh fd (by rw [hphase]; rfl)
    · rcases List.mem_append.1 he with hmem | hmem
      · cases List.mem_singleton.1 hmem
        refine (h i).screened entry (List.mem_append_left _ ?_)
        rw [hphase]
        exact List.mem_cons_self
      · exact (h i).screened e (List.mem_append_right _ hmem)
    · cases heq
  | abandon i fd address hphase =>
    refine hplain ?_ rfl rfl
    rcases hphase with hphase | hphase <;> rw [hphase] <;> rfl
  | abandonHeld i fd entry hphase =>
    refine hplain ?_ rfl rfl
    rcases hphase with hphase | hphase <;> rw [hphase] <;> rfl
  | drop i entry hphase =>
    refine kept_put h (r := { s.reactors i with phase := .idle })
      ⟨(h i).sorted, fun fd hsome => ?_, fun e he => ?_, fun _ _ heq => ?_⟩ rfl j
    · cases hsome
    · exact (h i).screened e (List.mem_append_right _ he)
    · cases heq
  | store i fd entry hphase =>
    have hperm := FlatMap.insertOrAssign_perm ((h i).fresh fd (by rw [hphase]; rfl)) entry
    refine kept_put h ⟨(h i).sorted.insertOrAssign _ _, fun fd' hsome => ?_, fun e he => ?_,
      fun _ _ heq => ?_⟩ rfl j
    · cases hsome
    · have hmem := (hperm.map Prod.snd).mem_iff.1 he
      refine (h i).screened e ?_
      rw [ReactorConnections.held, hphase]
      exact hmem
    · cases heq
  | countStored i hphase => exact hplain (by rw [hphase]; rfl) rfl rfl
  | close i fd entry hphase hlookup =>
    refine kept_put h ⟨(h i).sorted.filter _, fun fd' hsome => ?_, fun e he => ?_,
      fun _ _ heq => ?_⟩ rfl j
    · cases hsome
    · refine (h i).screened e (List.mem_append_right _ ?_)
      exact (List.filter_sublist.map Prod.snd).subset he
    · cases heq
  | countErased i hphase => exact hplain (by rw [hphase]; rfl) rfl rfl
  | destroy i hphase => exact hplain (by rw [hphase]; rfl) rfl rfl
  | clear i fd entry rest hphase hconnections =>
    have hsorted := (h i).sorted
    rw [hconnections] at hsorted
    refine kept_put h (r := { phase := .destroyed, connections := rest })
      ⟨(List.pairwise_cons.1 hsorted).2, fun fd' hsome => ?_, fun e he => ?_,
        fun _ _ heq => ?_⟩ rfl j
    · cases hsome
    · refine (h i).screened e (List.mem_append_right _ ?_)
      rw [hconnections]
      exact List.mem_cons_of_mem _ he
    · cases heq

/-! ### Every step keeps who holds the tokens -/

theorem keys_eq (r : ReactorConnections) : r.keys =
    r.phase.held.map AdmittedPeer.admission ++ r.connections.map fun e => e.2.admission := by
  rw [ReactorConnections.keys, ReactorConnections.held, List.map_append, List.map_map]
  rfl

theorem count_cons_number (number : ℕ) (numbers : List ℕ) (key : ℕ) :
    (number :: numbers).count key = numbers.count key + if key = number then 1 else 0 := by
  by_cases hkey : key = number
  · simp [hkey]
  · rw [List.count_cons_of_ne (Ne.symm hkey), if_neg hkey, Nat.add_zero]

/-- A reactor destroys a token that it has in its hands. -/
theorem Held.release (h : Held s) {i : Fin n} {r : ReactorConnections} {entry : AdmittedPeer}
    (hperm : (s.reactors i).held.Perm (entry :: r.held))
    (hreactors : s'.reactors = Function.update s.reactors i r)
    (htokens : s'.tokens = s.tokens.step (.destroy entry.admission)) : Held s' := by
  have hlive : s.tokens.live entry.admission = true :=
    h.owned.live_of_mem (List.mem_map_of_mem (hperm.mem_iff.2 List.mem_cons_self))
  refine h.put (h.accounted.destroy _) (Tokens.stable_destroy hlive) (fun key => ?_)
    (fun e he => .inl (hperm.mem_iff.2 (List.mem_cons_of_mem _ he))) hreactors htokens
  have hkeys : (s.reactors i).keys.count key = (entry.admission :: r.keys).count key :=
    (hperm.map AdmittedPeer.admission).count_eq key
  have hdestroy := Tokens.live_destroy hlive key
  rw [count_cons_number] at hkeys
  omega

theorem held_stepped (h : Held s) (hkept : ∀ j, Kept allowList (s.reactors j))
    (hstep : Stepped allowList s s') : Held s' := by
  cases hstep with
  | accept i fd address hphase _ => exact h.goTo (by rw [hphase]; rfl) rfl rfl
  | bar i fd address hphase => exact h.goTo (by rw [hphase]; rfl) rfl rfl
  | allow i fd address hphase _ => exact h.goTo (by rw [hphase]; rfl) rfl rfl
  | admitted i fd address token hphase hok =>
    obtain ⟨hobjects, hstate, hpeer⟩ := Tokens.step_admitPeer h.accounted hok
    refine h.put (r := { s.reactors i with
        phase := .holding fd ⟨address, s.tokens.objects.length⟩ })
      (h.accounted.admitPeer _) (hobjects ▸ Tokens.Stable.append _) (fun key => ?_)
      (fun e he => ?_) rfl rfl
    · have happend := Tokens.liveIn_append s.tokens.objects hstate key
      rw [keys_eq, keys_eq, hphase]
      simp only [AdmitPhase.held, List.map_cons, List.map_nil, List.cons_append, List.nil_append]
      rw [count_cons_number, Tokens.live, Tokens.live, hobjects, happend]
      omega
    · rcases List.mem_append.1 he with hmem | hmem
      · cases List.mem_singleton.1 hmem
        refine .inr fun token' hget => ?_
        rw [hobjects, List.getElem?_concat_length] at hget
        cases hget
        exact hpeer
      · exact .inl (List.mem_append_right _ hmem)
  | refuse i fd address reason hphase herror =>
    exact h.goTo (by rw [hphase]; rfl) rfl (Tokens.step_admitPeer_of_error h.accounted herror)
  | countRejection i reason hphase => exact h.goTo (by rw [hphase]; rfl) rfl rfl
  | refuseTls i fd entry hphase => exact h.goTo (by rw [hphase]; rfl) rfl rfl
  | build i fd entry hphase =>
    have hmem : entry ∈ (s.reactors i).held := by
      rw [ReactorConnections.held, hphase]
      exact List.mem_cons_self
    have hlive : s.tokens.live entry.admission = true :=
      h.owned.live_of_mem (List.mem_map_of_mem hmem)
    obtain ⟨token, hget, -⟩ := Tokens.exists_of_liveIn hlive
    refine h.put (r := { s.reactors i with
        phase := .built fd { entry with admission := s.tokens.objects.length } })
      (w := s.tokens.moved entry.admission)
      ((h.accounted.moveConstruct _).destroy _) (Tokens.stable_moved hlive)
      (fun key => ?_) (fun e he => ?_) rfl rfl
    · have hmoved := Tokens.live_moved hlive key
      rw [keys_eq, keys_eq, hphase]
      simp only [AdmitPhase.held, List.map_cons, List.map_nil, List.cons_append, List.nil_append]
      rw [count_cons_number, count_cons_number]
      omega
    · rcases List.mem_append.1 he with hmem' | hmem'
      · cases List.mem_singleton.1 hmem'
        refine .inr fun token' hget' => ?_
        have hlength : (s.tokens.objects.set entry.admission none).length =
            s.tokens.objects.length := List.length_set
        rw [Tokens.objects_moved hget, ← hlength, List.getElem?_concat_length] at hget'
        cases hget'
        exact h.peers i entry hmem token hget
      · exact .inl (List.mem_append_right _ hmem')
  | abandon i fd address hphase =>
    refine h.goTo ?_ rfl rfl
    rcases hphase with hphase | hphase <;> rw [hphase] <;> rfl
  | abandonHeld i fd entry hphase =>
    refine h.goTo ?_ rfl rfl
    rcases hphase with hphase | hphase <;> rw [hphase] <;> rfl
  | drop i entry hphase =>
    refine h.release (r := { s.reactors i with phase := .idle }) ?_ rfl rfl
    rw [ReactorConnections.held, hphase]
    exact List.Perm.refl _
  | store i fd entry hphase =>
    have hperm := FlatMap.insertOrAssign_perm ((hkept i).fresh fd (by rw [hphase]; rfl)) entry
    have hheld : (FlatMap.insertOrAssign fd entry (s.reactors i).connections |>.map Prod.snd).Perm
        (s.reactors i).held := by
      rw [ReactorConnections.held, hphase]
      exact hperm.map Prod.snd
    refine h.put (r := ⟨.stored, FlatMap.insertOrAssign fd entry (s.reactors i).connections⟩)
      h.accounted (fun k _ token hget => ⟨token, hget, rfl⟩) (fun key => ?_)
      (fun e he => .inl (hheld.mem_iff.1 he)) rfl rfl
    exact congrArg (· + _) ((hheld.map AdmittedPeer.admission).count_eq key)
  | countStored i hphase => exact h.goTo (by rw [hphase]; rfl) rfl rfl
  | close i fd entry hphase hlookup =>
    refine h.release ?_ rfl rfl
    rw [ReactorConnections.held, hphase]
    exact (FlatMap.perm_filter_ne (hkept i).sorted hlookup).map Prod.snd
  | countErased i hphase => exact h.goTo (by rw [hphase]; rfl) rfl rfl
  | destroy i hphase => exact h.goTo (by rw [hphase]; rfl) rfl rfl
  | clear i fd entry rest hphase hconnections =>
    refine h.release ?_ rfl rfl
    rw [ReactorConnections.held, hphase, hconnections]
    exact List.Perm.refl _

/-! ### What is counted -/

/-- The counters agree with what the reactors have in hand. -/
structure Counted (s : Reactors n) : Prop where
  /-- Every accepted peer was rejected, dropped or stored, or is in hand. -/
  accepted : s.metrics.accepted =
    s.metrics.rejected + s.dropped + s.stored + ∑ i, (s.reactors i).phase.pending
  /-- The gauge is the sum over the reactors. -/
  active : s.metrics.active = ∑ i, (s.reactors i).active

theorem Counted.put (h : Counted s) {i : Fin n} {r : ReactorConnections}
    (hreactors : s'.reactors = Function.update s.reactors i r)
    (haccepted : s'.metrics.accepted +
        (s.metrics.rejected + s.dropped + s.stored + (s.reactors i).phase.pending) =
      s.metrics.accepted + (s'.metrics.rejected + s'.dropped + s'.stored + r.phase.pending))
    (hactive : s'.metrics.active + (s.reactors i).active = s.metrics.active + r.active) :
    Counted s' := by
  have hpending := Ownership.sum_put (fun r => r.phase.pending) s.reactors i r
  have hsum := Ownership.sum_put ReactorConnections.active s.reactors i r
  have haccepted' := h.accepted
  have hactive' := h.active
  constructor
  · rw [hreactors]
    omega
  · rw [hreactors]
    omega

theorem counted_stepped (h : Counted s) (hkept : ∀ j, Kept allowList (s.reactors j))
    (hstep : Stepped allowList s s') : Counted s' := by
  -- no metric, and nothing that they count, changes
  have hsame {i : Fin n} {phase : AdmitPhase}
      (hpending : phase.pending = (s.reactors i).phase.pending)
      (hactive : ReactorConnections.active { s.reactors i with phase := phase } =
        (s.reactors i).active)
      (hreactors : s'.reactors =
        Function.update s.reactors i { s.reactors i with phase := phase })
      (hmetrics : s'.metrics = s.metrics) (hdropped : s'.dropped = s.dropped)
      (hstored : s'.stored = s.stored) : Counted s' := by
    refine h.put hreactors ?_ ?_
    · rw [hmetrics, hdropped, hstored, hpending]
    · rw [hmetrics, hactive]
  cases hstep with
  | accept i fd address hphase _ =>
    refine h.put rfl ?_ ?_
    · simp only [hphase, AdmitPhase.pending, ConnectionMetrics.connectionAccepted,
        ConnectionMetrics.rejected, goTo, put]
      omega
    · simp only [ReactorConnections.active, hphase, ConnectionMetrics.connectionAccepted]
  | bar i fd address hphase =>
    exact hsame (by rw [hphase]; rfl) (by simp [ReactorConnections.active, hphase]) rfl rfl rfl rfl
  | allow i fd address hphase _ =>
    exact hsame (by rw [hphase]; rfl) (by simp [ReactorConnections.active, hphase]) rfl rfl rfl rfl
  | admitted i fd address token hphase _ =>
    exact hsame (by rw [hphase]; rfl) (by simp [ReactorConnections.active, hphase]) rfl rfl rfl rfl
  | refuse i fd address reason hphase _ =>
    exact hsame (by rw [hphase]; rfl) (by simp [ReactorConnections.active, hphase]) rfl rfl rfl rfl
  | build i fd entry hphase =>
    exact hsame (by rw [hphase]; rfl) (by simp [ReactorConnections.active, hphase]) rfl rfl rfl rfl
  | drop i entry hphase =>
    exact hsame (by rw [hphase]; rfl) (by simp [ReactorConnections.active, hphase]) rfl rfl rfl rfl
  | countRejection i reason hphase =>
    refine h.put rfl ?_ ?_
    · cases reason <;> simp only [hphase, AdmitPhase.pending, ConnectionMetrics.connectionRejected,
        ConnectionMetrics.rejected, goTo, put] <;> omega
    · cases reason <;>
        simp only [ReactorConnections.active, hphase, ConnectionMetrics.connectionRejected]
  | refuseTls i fd entry hphase =>
    refine h.put rfl ?_ ?_
    · simp only [hphase, AdmitPhase.pending, ConnectionMetrics.connectionRejected,
        ConnectionMetrics.rejected, goTo, put]
      omega
    · simp only [ReactorConnections.active, hphase, ConnectionMetrics.connectionRejected]
  | abandon i fd address hphase | abandonHeld i fd address hphase =>
    have hpending : (s.reactors i).phase.pending = 1 := by
      rcases hphase with hphase | hphase <;> rw [hphase] <;> rfl
    have hactive : (s.reactors i).active = (s.reactors i).connections.length := by
      rcases hphase with hphase | hphase <;> simp only [ReactorConnections.active, hphase]
    refine h.put rfl ?_ ?_
    · rw [hpending]
      simp only [AdmitPhase.pending, goTo, put]
      omega
    · rw [hactive]
      rfl
  | store i fd entry hphase =>
    have hlength := (FlatMap.insertOrAssign_perm
      ((hkept i).fresh fd (by rw [hphase]; rfl)) entry).length_eq
    refine h.put rfl ?_ ?_
    · simp only [hphase, AdmitPhase.pending, put]
      omega
    · simp only [ReactorConnections.active, hphase, put, hlength, List.length_cons]
      omega
  | countStored i hphase =>
    refine h.put rfl ?_ ?_
    · simp only [hphase, AdmitPhase.pending, ConnectionMetrics.connectionsActiveChanged,
        ConnectionMetrics.rejected, goTo, put]
    · simp only [ReactorConnections.active, hphase, ConnectionMetrics.connectionsActiveChanged]
      omega
  | close i fd entry hphase hlookup =>
    have hlength := (FlatMap.perm_filter_ne (hkept i).sorted hlookup).length_eq
    refine h.put rfl ?_ ?_
    · simp only [hphase, AdmitPhase.pending, put]
    · simp only [ReactorConnections.active, hphase, put, hlength, List.length_cons]
      omega
  | countErased i hphase =>
    refine h.put rfl ?_ ?_
    · simp only [hphase, AdmitPhase.pending, ConnectionMetrics.connectionsActiveChanged,
        ConnectionMetrics.rejected, goTo, put]
    · simp only [ReactorConnections.active, hphase, ConnectionMetrics.connectionsActiveChanged]
      omega
  | destroy i hphase =>
    refine h.put rfl ?_ ?_
    · simp only [hphase, AdmitPhase.pending, ConnectionMetrics.connectionsActiveChanged,
        ConnectionMetrics.rejected, goTo, put]
    · simp only [ReactorConnections.active, hphase, ConnectionMetrics.connectionsActiveChanged]
      omega
  | clear i fd entry rest hphase _ =>
    refine h.put rfl ?_ ?_
    · simp only [hphase, AdmitPhase.pending, put]
    · simp only [ReactorConnections.active, hphase, put]

/-! ### Runs -/

/-- The invariant of the reactors. -/
structure Inv (allowList : CidrAllowList) (s : Reactors n) : Prop where
  held : Held s
  kept : ∀ i, Kept allowList (s.reactors i)
  counted : Counted s

theorem inv_step (h : Inv allowList s) (hstep : step allowList s a = some s') :
    Inv allowList s' :=
  have hstepped := stepped hstep
  ⟨held_stepped h.held h.kept hstepped, kept_stepped h.kept hstepped,
    counted_stepped h.counted h.kept hstepped⟩

theorem limits_stepped (hstep : Stepped allowList s s') : s'.tokens.limits = s.tokens.limits := by
  cases hstep with
  | admitted | refuse | drop | close | clear => exact Tokens.limits_step _ _
  | build => exact (Tokens.limits_step _ _).trans (Tokens.limits_step _ _)
  | _ => rfl

theorem init_inv (maxConnections maxConnectionsPerSource : UInt32) :
    Inv allowList (init maxConnections maxConnectionsPerSource : Reactors n) := by
  refine ⟨⟨Tokens.accounted_run _ _ _, fun key => ?_, fun i e he => ?_⟩,
    fun i => ⟨List.Pairwise.nil, fun fd h => ?_, fun e he => ?_, fun fd address h => ?_⟩, ⟨?_, ?_⟩⟩
  · have hlive : (init maxConnections maxConnectionsPerSource : Reactors n).tokens.live key =
        false := rfl
    rw [hlive, Bool.toNat_false]
    exact Finset.sum_eq_zero fun i _ => rfl
  · cases he
  · cases h
  · cases he
  · cases h
  · simp [init, ConnectionMetrics.rejected, AdmitPhase.pending]
  · simp [init, ReactorConnections.active]

/-- What the reactors hold together is what the tokens with a slot were made for. -/
theorem Held.sum_countP (h : Held s) (p : PeerAddress → Bool) :
    ∑ i, (s.reactors i).held.countP (fun e => p e.peer) =
      s.tokens.count fun token => p token.peer := by
  rw [← Tokens.countP_liveNumbers, ← h.owned.sum_countP s.tokens.count_liveNumbers]
  refine Finset.sum_congr rfl fun i _ => ?_
  rw [ReactorConnections.keys, List.countP_map]
  refine List.countP_congr fun e he => ?_
  obtain ⟨token, hget, -⟩ :=
    Tokens.exists_of_liveIn (h.owned.live_of_mem (List.mem_map_of_mem he))
  have hpeer : s.tokens.peerAt e.admission = e.peer := by
    unfold Tokens.peerAt
    rw [hget]
    exact h.peers i e he token hget
  rw [Function.comp_apply, hpeer]

/-- The peer is counted for the source. -/
def isFrom (source : Bytes) (peer : PeerAddress) : Bool :=
  !peer.isUnix && peer.bytes.toList == source

theorem Held.sum_length (h : Held s) :
    ∑ i, (s.reactors i).held.length = s.tokens.server.activeConnections.toNat := by
  have hsum := h.sum_countP fun _ => true
  rw [h.accounted.active, ← hsum]
  exact Finset.sum_congr rfl fun i _ => by rw [List.countP_true]

theorem Held.sum_source (h : Held s) (source : Bytes) :
    ∑ i, (s.reactors i).held.countP (fun e => isFrom source e.peer) =
      ((FlatMap.lookup source s.tokens.server.sourceConnections).getD 0).toNat := by
  rw [h.sum_countP (isFrom source), h.accounted.source, ← h.accounted.count_fromSource]
  rfl

/-- Who is not barred. -/
theorem isBarred_eq_false_iff (address : SockAddr) :
    isBarred allowList (peerAddressFrom address) = false ↔ address = .unix ∨
      allowList.rules = [] ∨
        ∃ rule ∈ allowList.rules, rule.matches (peerAddressFrom address).bytes = true := by
  have hunix : (peerAddressFrom address).isUnix = true ↔ address = .unix := by
    cases address <;> simp [peerAddressFrom]
  rw [← hunix]
  unfold isBarred CidrAllowList.allows
  cases (peerAddressFrom address).isUnix with
  | true => simp
  | false =>
    cases allowList.rules with
    | nil => simp
    | cons rule rules =>
      cases hmatches : rule.matches (peerAddressFrom address).bytes <;> simp [hmatches]

theorem admitPeer_eq_globalLimit_iff (server : ServerState) (peer : PeerAddress) :
    (server.admitPeer peer).1 = .error .globalLimit ↔
      server.maxConnections ≤ server.activeConnections := by
  unfold ServerState.admitPeer
  by_cases hfull : server.activeConnections ≥ server.maxConnections
  · rw [if_pos hfull]
    exact ⟨fun _ => hfull, fun _ => rfl⟩
  · rw [if_neg hfull]
    refine ⟨fun h => ?_, fun h => absurd h hfull⟩
    dsimp only at h
    split_ifs at h
    cases h

theorem admitPeer_eq_sourceLimit_iff (server : ServerState) (peer : PeerAddress) :
    (server.admitPeer peer).1 = .error .sourceLimit ↔
      ¬ server.maxConnections ≤ server.activeConnections ∧ peer.isUnix = false ∧
        server.maxConnectionsPerSource ≤
          (FlatMap.lookup peer.bytes.toList server.sourceConnections).getD 0 := by
  unfold ServerState.admitPeer
  by_cases hfull : server.activeConnections ≥ server.maxConnections
  · rw [if_pos hfull]
    exact ⟨fun h => (by cases h), fun h => absurd hfull h.1⟩
  · rw [if_neg hfull]
    dsimp only
    cases peer.isUnix with
    | true => simp
    | false =>
      by_cases hsource : (FlatMap.lookup peer.bytes.toList server.sourceConnections).getD 0 ≥
          server.maxConnectionsPerSource
      · simp [hsource, hfull]
      · simp [hsource]

/-- **Who is connected.**  In every state that any interleaving of the reactors leads to, from a
server with these limits:

* every token that holds a slot is in the hands of exactly one reactor, once, and no other token is;
* all together hold exactly as many connections as the server has counted, of all peers and of each
  source, so never more than the limits; the guards of its release are never taken;
* a peer is refused for a limit exactly when that many connections are held;
* whoever holds a token got past the allow list: by a Unix socket, or from an address that a rule
  matches, unless the list is empty;
* every accepted peer is counted as rejected for one reason, was dropped on an error, became a
  connection, or is still in `admit`; and the metric of active connections is their number, up to
  those that a reactor is about to count. -/
theorem connected_peers {maxConnections maxConnectionsPerSource : UInt32}
    {steps : List (ReactorStep n)}
    (h : Transitions.Run (step allowList) (init maxConnections maxConnectionsPerSource) steps s) :
    Ownership.Owned (fun i => (s.reactors i).keys) s.tokens.live ∧
    (∑ i, (s.reactors i).held.length = s.tokens.server.activeConnections.toNat ∧
      ∑ i, (s.reactors i).held.length ≤ maxConnections.toNat) ∧
    (∀ source, ∑ i, (s.reactors i).held.countP (fun e => isFrom source e.peer) =
        ((FlatMap.lookup source s.tokens.server.sourceConnections).getD 0).toNat ∧
      ∑ i, (s.reactors i).held.countP (fun e => isFrom source e.peer) ≤
        maxConnectionsPerSource.toNat) ∧
    s.tokens.server.guardsTaken = 0 ∧
    (∀ peer, (s.tokens.server.admitPeer peer).1 = .error .globalLimit ↔
      ∑ i, (s.reactors i).held.length = maxConnections.toNat) ∧
    (∀ peer, (s.tokens.server.admitPeer peer).1 = .error .sourceLimit ↔
      ∑ i, (s.reactors i).held.length < maxConnections.toNat ∧ peer.isUnix = false ∧
        ∑ i, (s.reactors i).held.countP (fun e => isFrom peer.bytes.toList e.peer) =
          maxConnectionsPerSource.toNat) ∧
    (∀ i, ∀ e ∈ (s.reactors i).held, e.address = .unix ∨ allowList.rules = [] ∨
      ∃ rule ∈ allowList.rules, rule.matches e.peer.bytes = true) ∧
    s.metrics.accepted =
      s.metrics.rejected + s.dropped + s.stored + ∑ i, (s.reactors i).phase.pending ∧
    s.metrics.active = ∑ i, (s.reactors i).active := by
  have hinv : Inv allowList s :=
    h.invariant (fun _ _ _ hs hstep => inv_step hs hstep) (init_inv _ _)
  have hlimits : s.tokens.limits = (maxConnections, maxConnectionsPerSource) :=
    h.invariant (I := fun s => s.tokens.limits = (maxConnections, maxConnectionsPerSource))
      (fun _ _ _ hs hstep => (limits_stepped (stepped hstep)).trans hs) (Tokens.limits_run _ _ _)
  obtain ⟨hmax, hmaxSource⟩ := Prod.mk.inj hlimits
  have hlength := hinv.held.sum_length
  have hle : s.tokens.server.activeConnections.toNat ≤ maxConnections.toNat := by
    rw [← hmax]
    exact UInt32.le_iff_toNat_le.1 hinv.held.accounted.active_le
  have hsource (source : Bytes) :
      ((FlatMap.lookup source s.tokens.server.sourceConnections).getD 0).toNat ≤
        maxConnectionsPerSource.toNat := by
    rw [← hmaxSource]
    cases hlookup : FlatMap.lookup source s.tokens.server.sourceConnections with
    | none => exact Nat.zero_le _
    | some count =>
      exact UInt32.le_iff_toNat_le.1 (hinv.held.accounted.entry source count hlookup).2
  refine ⟨hinv.held.owned, ⟨hlength, hlength ▸ hle⟩,
    fun source => ⟨hinv.held.sum_source source, ?_⟩, hinv.held.accounted.guards, fun peer => ?_,
    fun peer => ?_, fun i e he => ?_, hinv.counted.accepted, hinv.counted.active⟩
  · rw [hinv.held.sum_source]
    exact hsource source
  · rw [admitPeer_eq_globalLimit_iff, hmax, UInt32.le_iff_toNat_le, hlength]
    exact ⟨fun h => le_antisymm hle h, ge_of_eq⟩
  · have hle' := hsource peer.bytes.toList
    rw [admitPeer_eq_sourceLimit_iff, hmax, hmaxSource, UInt32.le_iff_toNat_le,
      UInt32.le_iff_toNat_le, hlength, hinv.held.sum_source, not_le]
    exact and_congr_right fun _ => and_congr_right fun _ =>
      ⟨fun h => le_antisymm hle' h, ge_of_eq⟩
  · exact (isBarred_eq_false_iff e.address).1 ((hinv.kept i).screened e he)

/-- One of two reactors. -/
def first : Fin 2 := ⟨0, Nat.zero_lt_two⟩

/-- The other one. -/
def second : Fin 2 := ⟨1, Nat.one_lt_two⟩

/-- The one host that is allowed. -/
def oneHost : CidrRule := ⟨mappedAddress (.replicate 4 10), 128, true⟩

/-- Two reactors of a server that takes one connection: two peers come at the same time from the
host, and then one from elsewhere. -/
def twoPeers : List (ReactorStep 2) :=
  [.accept first 7 (.inet (.replicate 4 10) 5000), .accept second 8 (.inet (.replicate 4 10) 5001),
    .screen second, .screen first, .admitPeer first, .admitPeer second, .build first,
    .countRejection second, .store first, .accept second 8 (.inet (.replicate 4 172) 5002),
    .countStored first, .screen second, .countRejection second]

theorem connected_peers_twoPeers :
    ∃ s, Transitions.Run (step ⟨[oneHost]⟩) (init 1 1) twoPeers s ∧
      (s.metrics.rejectedLimit, s.metrics.rejectedCidr, s.metrics.active) = (1, 1, 1) ∧
      ∑ i, (s.reactors i).held.length ≤ 1 ∧
      s.metrics.accepted =
        s.metrics.rejected + s.dropped + s.stored + ∑ i, (s.reactors i).phase.pending := by
  have hruns : (twoPeers.foldlM (step ⟨[oneHost]⟩) (init 1 1)).map (fun s =>
      (s.metrics.rejectedLimit, s.metrics.rejectedCidr, s.metrics.active)) = some (1, 1, 1) := by
    decide +kernel
  obtain ⟨s, hs, hmetrics⟩ := Option.map_eq_some_iff.1 hruns
  have hrun := Transitions.Run.of_foldlM hs
  obtain ⟨-, ⟨-, hlimit⟩, -, -, -, -, -, haccepted, -⟩ := connected_peers hrun
  exact ⟨s, hrun, hmetrics, hlimit, haccepted⟩

end Reactors

end ErikslundHttp
