import ErikslundHttp.Lib.Transitions
import ErikslundHttp.Server.UnixSocket

/-!
# Servers that share a pathname

Several servers are configured with the same Unix pathname.  Each of them starts, runs and stops, or
dies at any point, and the system calls of all of them interleave; any call may fail.  Files that
are not sockets come and go at the pathname as somebody else likes.

* `Starts` and `Ends` are what each server does to the pathname.  The servers are held to each other
  by that, and so every program is proved on its own.
* `unix_path`: if no two of them start at the same time, then a server that runs stays reachable until
  it stops, and what is not a socket is never touched.

Two that start at the same time can do harm: a socket that is bound and does not listen yet refuses
connections as one of a dead process does.
-/

namespace ErikslundHttp

/-- What is at the pathname. -/
structure PathNode where
  isSocket : Bool
  /-- The device and the inode. -/
  identity : UnixSocketIdentity
  /-- The permission bits. -/
  mode : ℕ
  deriving DecidableEq

/-- An open socket of a server. -/
structure UnixEndpoint (n : ℕ) where
  owner : Fin n
  fd : Fd
  /-- The node it was bound to. -/
  bound : Option UnixSocketIdentity := none
  listening : Bool := false
  deriving DecidableEq

/-- What is at the path, and the sockets that the servers have open. -/
structure PathWorld (n : ℕ) where
  /-- None, if nothing is there. -/
  node : Option PathNode := none
  sockets : List (UnixEndpoint n) := []
  deriving DecidableEq

/-- What the kernel is free to choose: the `errno` of a call that fails for a reason of its own, a
free descriptor, and the inode of a new socket with its mode. -/
structure KernelChoice where
  /-- The call fails with this `errno`. -/
  fault : Option ℕ := none
  fd : Fd := 0
  identity : UnixSocketIdentity := ⟨0, 0⟩
  mode : ℕ := 0

/-- What `lstat` says of it. -/
def PathNode.status (node : PathNode) : FileStatus :=
  ⟨node.isSocket, node.identity.device, node.identity.inode⟩

namespace PathWorld

variable {n : ℕ}

/-- Somebody listens at the inode. -/
def accepts (w : PathWorld n) (identity : UnixSocketIdentity) : Bool :=
  w.sockets.any fun s => s.listening && s.bound == some identity

/-- A call of a server, unless the kernel may not choose so. -/
def call (w : PathWorld n) (i : Fin n) (choice : KernelChoice) :
    (c : Syscall) → Option (c.Answer × PathWorld n)
  | .close fd =>
    some ((), { w with sockets := w.sockets.filter fun s => !(s.owner == i && s.fd == fd) })
  | .socket =>
    match choice.fault with
    | some number => some (.error (.other number), w)
    | none =>
      if w.sockets.any fun s => s.owner == i && s.fd == choice.fd then none
      else some (.ok choice.fd, { w with sockets := ⟨i, choice.fd, none, false⟩ :: w.sockets })
  | .bind fd =>
    match choice.fault, w.node with
    | some number, _ => some (.error (.other number), w)
    | none, some _ => some (.error .eaddrinuse, w)
    | none, none =>
      -- the inode of a bound socket is not used again while the socket is open
      if w.sockets.any fun s => s.bound == some choice.identity then none
      else
        some (.ok (), ⟨some ⟨true, choice.identity, choice.mode⟩, w.sockets.map fun s =>
          if s.owner = i ∧ s.fd = fd then { s with bound := some choice.identity } else s⟩)
  | .listen fd _ =>
    match choice.fault with
    | some number => some (.error (.other number), w)
    | none =>
      some (.ok (), { w with sockets := w.sockets.map fun s =>
        if s.owner = i ∧ s.fd = fd then { s with listening := true } else s })
  | .connect _ =>
    match choice.fault, w.node with
    | some number, _ => some (.error (.other number), w)
    | none, none => some (.error .enoent, w)
    | none, some node =>
      if node.isSocket && w.accepts node.identity then some (.ok (), w)
      else some (.error .econnrefused, w)
  | .lstat =>
    match choice.fault, w.node with
    | some number, _ => some (.error (.other number), w)
    | none, none => some (.error .enoent, w)
    | none, some node => some (.ok node.status, w)
  | .chmod mode =>
    match choice.fault, w.node with
    | some number, _ => some (.error (.other number), w)
    | none, none => some (.error .enoent, w)
    | none, some node => some (.ok (), { w with node := some { node with mode } })
  | .unlink =>
    match choice.fault, w.node with
    | some number, _ => some (.error (.other number), w)
    | none, none => some (.error .enoent, w)
    | none, some _ => some (.ok (), { w with node := none })

end PathWorld

/-- Where a server is with its listener. -/
inductive UnixPhase where
  | idle
  | starting (program : Sys (Except ServerError BoundUnixListener))
  | running (state : ListenerState)
  | releasing (program : Sys Unit)

/-- The server is in its `start`. -/
def UnixPhase.isStarting : UnixPhase → Bool
  | .starting _ => true
  | _ => false

/-- The path and what each server is about. -/
structure UnixServers (n : ℕ) where
  world : PathWorld n := {}
  /-- Where each server is in its program. -/
  phases : Fin n → UnixPhase := fun _ => .idle

/-- A step of one of the servers, or of another program at the path. -/
inductive UnixStep (n : ℕ) where
  | start (i : Fin n)
  | call (i : Fin n) (choice : KernelChoice)
  /-- By `Server::wait`, or because another listener of the server could not start. -/
  | stop (i : Fin n)
  | discard (i : Fin n)
  /-- The process dies, and the kernel closes its sockets. -/
  | crash (i : Fin n)
  /-- Somebody else puts a file at the pathname, or takes one away. -/
  | outside (node : Option PathNode)

namespace UnixServers

variable {n : ℕ} (errnoText : PathErrno → Bytes) (config : Listener) (backlog : Int32)

/-- A program that is through has a result. -/
def settle : UnixPhase → UnixPhase
  | .starting (.done (.ok bound)) =>
    .running { config, unixSocketIdentity := some bound.identity, sockets := [bound.fd] }
  | .starting (.done (.error _)) => .idle
  | .releasing (.done ()) => .idle
  | phase => phase

/-- The other servers are as before. -/
def put (s : UnixServers n) (i : Fin n) (phase : UnixPhase) : UnixServers n :=
  { s with phases := Function.update s.phases i (settle config phase) }

/-- A step: a server makes its next system call, or the path changes. -/
def step (s : UnixServers n) : UnixStep n → Option (UnixServers n)
  | .start i =>
    match s.phases i with
    | .idle =>
      some (s.put config i
        (.starting (bindUnixListener errnoText config.unixSocketPath backlog).run))
    | _ => none
  | .call i choice =>
    match s.phases i with
    | .starting (.call c next) =>
      (s.world.call i choice c).map fun (answer, world) =>
        { s with world }.put config i (.starting (next answer))
    | .releasing (.call c next) =>
      (s.world.call i choice c).map fun (answer, world) =>
        { s with world }.put config i (.releasing (next answer))
    | _ => none
  | .stop i =>
    match s.phases i with
    | .running state => some (s.put config i (.releasing state.retire))
    | _ => none
  | .discard i =>
    match s.phases i with
    | .running state => some (s.put config i (.releasing state.destroy))
    | _ => none
  | .crash i =>
    let world := { s.world with sockets := s.world.sockets.filter (·.owner != i) }
    some ({ s with world }.put config i .idle)
  | .outside node =>
    if s.world.node.any (·.isSocket) || node.any (·.isSocket) then none
    else some { s with world := { s.world with node } }

/-- No two of them start at the same time. -/
def stepInTurn (s : UnixServers n) (action : UnixStep n) : Option (UnixServers n) :=
  match action with
  | .start _ =>
    if ∃ j, (s.phases j).isStarting = true then none else s.step errnoText config backlog action
  | _ => s.step errnoText config backlog action

end UnixServers

/-! ### What a server does to the pathname -/

namespace PathWorld

variable {n : ℕ} {i j : Fin n} {w w' : PathWorld n} {L : List (UnixEndpoint n)}

/-- The sockets of the others are as they were. -/
def Spares (j : Fin n) (w w' : PathWorld n) : Prop :=
  ∀ s : UnixEndpoint n, s.owner ≠ j → (s ∈ w'.sockets ↔ s ∈ w.sockets)

/-- Nobody listens at the node, if it is a socket. -/
def Dead (w : PathWorld n) : Prop :=
  ∀ node, w.node = some node → node.isSocket = true → w.accepts node.identity = false

/-- A server that stops takes its own node away, and closes its sockets. -/
structure Ends (j : Fin n) (w w' : PathWorld n) : Prop where
  spares : Spares j w w'
  closes : ∀ s ∈ w'.sockets, s ∈ w.sockets
  /-- The node that goes is the one it listens at. -/
  node : w'.node = w.node ∨ w'.node = none ∧ ∃ node s, w.node = some node ∧
    node.isSocket = true ∧ s ∈ w.sockets ∧ s.owner = j ∧ s.listening = true ∧
      s.bound = some node.identity

/-- A server that starts changes only nodes at which nobody else listens. -/
structure Starts (j : Fin n) (w w' : PathWorld n) : Prop where
  spares : Spares j w w'
  binds : ∀ s' ∈ w'.sockets, ∀ identity, s'.bound = some identity →
    (∃ s ∈ w.sockets, s.bound = some identity ∧ s.owner = s'.owner) ∨
      ∀ s ∈ w.sockets, s.bound ≠ some identity
  /-- A node that changes is a socket at which nobody else listens. -/
  node : w'.node = w.node ∨ ∀ node, w.node = some node → node.isSocket = true ∧
    ∀ s ∈ w.sockets, s.owner ≠ j → s.listening = true → s.bound ≠ some node.identity

/-- Somebody else's files. -/
structure Outside (w w' : PathWorld n) : Prop where
  sockets : w'.sockets = w.sockets
  before : ∀ node, w.node = some node → node.isSocket = false
  after : ∀ node, w'.node = some node → node.isSocket = false

/-- What the others do while the server starts. -/
def WhileStarting (i : Fin n) (w w' : PathWorld n) : Prop :=
  (∃ j, j ≠ i ∧ Ends j w w') ∨ Outside w w'

/-- What they do at other times. -/
def Always (i : Fin n) (w w' : PathWorld n) : Prop :=
  WhileStarting i w w' ∨ ∃ j, j ≠ i ∧ Starts j w w'

/-! What a server knows. -/

/-- Its sockets. -/
def Mine (i : Fin n) (L : List (UnixEndpoint n)) (w : PathWorld n) : Prop :=
  ∀ s : UnixEndpoint n, s.owner = i → (s ∈ w.sockets ↔ s ∈ L)

/-- The node is its own, and its only socket is bound there. -/
structure Owns (i : Fin n) (fd : Fd) (identity : UnixSocketIdentity) (listening : Bool) (mode : ℕ)
    (w : PathWorld n) : Prop where
  node : w.node = some ⟨true, identity, mode⟩
  mine : Mine i [⟨i, fd, some identity, listening⟩] w
  /-- Nobody else is bound to the node. -/
  alone : ∀ s ∈ w.sockets, s.bound = some identity → s.owner = i

theorem accepts_eq_false {identity : UnixSocketIdentity} :
    w.accepts identity = false ↔
      ∀ s ∈ w.sockets, s.listening = true → s.bound ≠ some identity := by
  rw [accepts, List.any_eq_false]
  refine forall₂_congr fun s _ => ?_
  rw [Bool.and_eq_true, beq_iff_eq, not_and]

theorem accepts_eq_true {identity : UnixSocketIdentity} {s : UnixEndpoint n}
    (hs : s ∈ w.sockets) (hlistening : s.listening = true) (hbound : s.bound = some identity) :
    w.accepts identity = true := by
  rw [accepts, List.any_eq_true]
  exact ⟨s, hs, by rw [hlistening, hbound, beq_self_eq_true]; rfl⟩

theorem WhileStarting.spares (h : WhileStarting i w w') (s : UnixEndpoint n)
    (hs : s.owner = i) : s ∈ w'.sockets ↔ s ∈ w.sockets := by
  obtain ⟨j, hj, hends⟩ | houtside := h
  · exact hends.spares s (by rw [hs]; exact hj.symm)
  · rw [houtside.sockets]

theorem Always.spares (h : Always i w w') (s : UnixEndpoint n) (hs : s.owner = i) :
    s ∈ w'.sockets ↔ s ∈ w.sockets := by
  obtain h | ⟨j, hj, hstarts⟩ := h
  · exact h.spares s hs
  · exact hstarts.spares s (by rw [hs]; exact hj.symm)

theorem Mine.stable_always (i : Fin n) (L : List (UnixEndpoint n)) :
    Program.Stable (Always i) (Mine i L) :=
  fun _ _ hmine h s hs => (h.spares s hs).trans (hmine s hs)

theorem Mine.stable (i : Fin n) (L : List (UnixEndpoint n)) :
    Program.Stable (WhileStarting i) (Mine i L) :=
  fun _ _ hmine h => Mine.stable_always i L _ _ hmine (.inl h)

theorem Dead.stable (i : Fin n) : Program.Stable (WhileStarting i) (Dead (n := n)) := by
  rintro w w' hdead (⟨j, -, hends⟩ | houtside) node hnode hsocket
  · obtain hsame | ⟨hnone, -⟩ := hends.node
    · have hbefore := accepts_eq_false.1 (hdead node (hsame ▸ hnode) hsocket)
      exact accepts_eq_false.2 fun s hs => hbefore s (hends.closes s hs)
    · rw [hnone] at hnode
      cases hnode
  · rw [houtside.after node hnode] at hsocket
    cases hsocket

/-- A dead socket stays where it is. -/
theorem Dead.stable_socket (i : Fin n) :
    Program.Stable (WhileStarting i) fun w : PathWorld n =>
      Dead w ∧ ∃ node, w.node = some node ∧ node.isSocket = true := by
  rintro w w' ⟨hdead, node, hnode, hsocket⟩ h
  refine ⟨Dead.stable i _ _ hdead h, ?_⟩
  obtain ⟨j, -, hends⟩ | houtside := h
  · obtain hsame | ⟨-, node', s, hnode', -, hs, -, hlistening, hbound⟩ := hends.node
    · exact ⟨node, hsame.trans hnode, hsocket⟩
    · cases hnode.symm.trans hnode'
      exact absurd hbound (accepts_eq_false.1 (hdead node hnode hsocket) s hs hlistening)
  · rw [houtside.before node hnode] at hsocket
    cases hsocket

theorem Owns.stable (i : Fin n) (fd : Fd) (identity : UnixSocketIdentity) (listening : Bool)
    (mode : ℕ) : Program.Stable (WhileStarting i) (Owns i fd identity listening mode) := by
  rintro w w' howns h
  have hmine := Mine.stable i _ w w' howns.mine h
  obtain ⟨j, hj, hends⟩ | houtside := h
  · refine ⟨?_, hmine, fun s hs => howns.alone s (hends.closes s hs)⟩
    obtain hsame | ⟨-, node, s, hnode, -, hs, howner, -, hbound⟩ := hends.node
    · exact hsame.trans howns.node
    · cases howns.node.symm.trans hnode
      exact absurd (howner.symm.trans (howns.alone s hs hbound)) hj
  · cases houtside.before _ howns.node

/-- While it listens, not even those that start take its node away. -/
theorem Owns.stable_always (i : Fin n) (fd : Fd) (identity : UnixSocketIdentity) (mode : ℕ) :
    Program.Stable (Always i) (Owns i fd identity true mode) := by
  rintro w w' howns (h | ⟨j, hj, hstarts⟩)
  · exact Owns.stable i fd identity true mode w w' howns h
  · have hsocket : ⟨i, fd, some identity, true⟩ ∈ w.sockets :=
      (howns.mine _ rfl).2 (List.mem_singleton.2 rfl)
    refine ⟨?_, fun s hs => ?_, fun s hs hbound => ?_⟩
    · obtain hsame | hchanged := hstarts.node
      · exact hsame.trans howns.node
      · -- they leave alone what somebody listens at
        exact absurd rfl ((hchanged _ howns.node).2 _ hsocket hj.symm rfl)
    · exact (hstarts.spares s (by rw [hs]; exact hj.symm)).trans (howns.mine s hs)
    · obtain ⟨s₀, hs₀, hbound₀, howner⟩ | hfresh := hstarts.binds s hs identity hbound
      · exact howner ▸ howns.alone s₀ hs₀ hbound₀
      · exact absurd rfl (hfresh _ hsocket)

/-! ### What a call does -/

/-- A call of the server, whatever the kernel chooses. -/
def Calls (i : Fin n) (w : PathWorld n) (c : Syscall) (answer : c.Answer) (w' : PathWorld n) :
    Prop :=
  ∃ choice, w.call i choice c = some (answer, w')

theorem Starts.refl (j : Fin n) (w : PathWorld n) : Starts j w w :=
  ⟨fun _ _ => Iff.rfl, fun s hs _ hbound => .inl ⟨s, hs, hbound, rfl⟩, .inl rfl⟩

theorem Ends.refl (j : Fin n) (w : PathWorld n) : Ends j w w :=
  ⟨fun _ _ => Iff.rfl, fun _ hs => hs, .inl rfl⟩

theorem calls_lstat {answer : Except PathErrno FileStatus} (h : Calls i w .lstat answer w') :
    w' = w ∧ ∀ status, answer = .ok status → ∃ node, w.node = some node ∧ status = node.status := by
  obtain ⟨choice, h⟩ := h
  dsimp only [call] at h
  split at h
  · cases h
    exact ⟨rfl, fun _ hok => by cases hok⟩
  · cases h
    exact ⟨rfl, fun _ hok => by cases hok⟩
  · next node _ hnode =>
    cases h
    exact ⟨rfl, fun _ hok => ⟨node, hnode, (Except.ok.inj hok).symm⟩⟩

theorem calls_connect {fd : Fd} {answer : Except PathErrno Unit}
    (h : Calls i w (.connect fd) answer w') :
    w' = w ∧ (answer = .error .econnrefused → Dead w) := by
  obtain ⟨choice, h⟩ := h
  dsimp only [call] at h
  split at h
  · cases h
    exact ⟨rfl, fun hrefused => by cases hrefused⟩
  · cases h
    exact ⟨rfl, fun hrefused => by cases hrefused⟩
  · next node _ hnode =>
    split_ifs at h with haccepts
    · cases h
      exact ⟨rfl, fun hrefused => by cases hrefused⟩
    · cases h
      refine ⟨rfl, fun _ node' hnode' hsocket => ?_⟩
      cases hnode.symm.trans hnode'
      rw [hsocket, Bool.true_and, Bool.not_eq_true] at haccepts
      exact haccepts

theorem calls_unlink {answer : Except PathErrno Unit} (h : Calls i w .unlink answer w') :
    w' = w ∨ w' = { w with node := none } := by
  obtain ⟨choice, h⟩ := h
  dsimp only [call] at h
  split at h
  · cases h
    exact .inl rfl
  · cases h
    exact .inl rfl
  · cases h
    exact .inr rfl

theorem calls_chmod {mode : ℕ} {answer : Except PathErrno Unit}
    (h : Calls i w (.chmod mode) answer w') :
    (∃ errno, answer = .error errno ∧ w' = w) ∨
      ∃ node, answer = .ok () ∧ w.node = some node ∧
        w' = { w with node := some { node with mode } } := by
  obtain ⟨choice, h⟩ := h
  dsimp only [call] at h
  split at h
  · cases h
    exact .inl ⟨_, rfl, rfl⟩
  · cases h
    exact .inl ⟨_, rfl, rfl⟩
  · next node _ hnode =>
    cases h
    exact .inr ⟨node, rfl, hnode, rfl⟩

/-- The sockets of a descriptor, as `bind` and `listen` leave them. -/
def update (w : PathWorld n) (i : Fin n) (fd : Fd) (f : UnixEndpoint n → UnixEndpoint n) :
    List (UnixEndpoint n) :=
  w.sockets.map fun s => if s.owner = i ∧ s.fd = fd then f s else s

theorem calls_bind {fd : Fd} {answer : Except PathErrno Unit}
    (h : Calls i w (.bind fd) answer w') :
    (∃ errno, answer = .error errno ∧ w' = w) ∨
      ∃ identity mode, answer = .ok () ∧ w.node = none ∧
        (∀ s ∈ w.sockets, s.bound ≠ some identity) ∧
        w' = ⟨some ⟨true, identity, mode⟩,
          w.update i fd fun s => { s with bound := some identity }⟩ := by
  obtain ⟨choice, h⟩ := h
  dsimp only [call] at h
  split at h
  · cases h
    exact .inl ⟨_, rfl, rfl⟩
  · cases h
    exact .inl ⟨_, rfl, rfl⟩
  · next _ hnode =>
    split_ifs at h with hused
    cases h
    refine .inr ⟨choice.identity, choice.mode, rfl, hnode, fun s hs hbound => hused ?_, rfl⟩
    rw [List.any_eq_true]
    exact ⟨s, hs, beq_iff_eq.2 hbound⟩

theorem calls_listen {fd : Fd} {backlog : Int32} {answer : Except PathErrno Unit}
    (h : Calls i w (.listen fd backlog) answer w') :
    (∃ errno, answer = .error errno ∧ w' = w) ∨
      answer = .ok () ∧
        w' = { w with sockets := w.update i fd fun s => { s with listening := true } } := by
  obtain ⟨choice, h⟩ := h
  dsimp only [call] at h
  split at h
  · cases h
    exact .inl ⟨_, rfl, rfl⟩
  · cases h
    exact .inr ⟨rfl, rfl⟩

theorem calls_socket {answer : Except PathErrno Fd} (h : Calls i w .socket answer w') :
    (∃ errno, answer = .error errno ∧ w' = w) ∨
      ∃ fd, answer = .ok fd ∧ (∀ s ∈ w.sockets, s.owner = i → s.fd ≠ fd) ∧
        w' = { w with sockets := ⟨i, fd, none, false⟩ :: w.sockets } := by
  obtain ⟨choice, h⟩ := h
  dsimp only [call] at h
  split at h
  · cases h
    exact .inl ⟨_, rfl, rfl⟩
  · split_ifs at h with hused
    cases h
    refine .inr ⟨choice.fd, rfl, fun s hs howner hfd => hused ?_, rfl⟩
    rw [List.any_eq_true]
    exact ⟨s, hs, by rw [howner, hfd, beq_self_eq_true, beq_self_eq_true]; rfl⟩

theorem calls_close {fd : Fd} {answer : Unit} (h : Calls i w (.close fd) answer w') :
    w' = { w with sockets := w.sockets.filter fun s => !(s.owner == i && s.fd == fd) } := by
  obtain ⟨choice, h⟩ := h
  cases h
  rfl

/-! Its effect on the sockets. -/

theorem mem_update {fd : Fd} {f : UnixEndpoint n → UnixEndpoint n}
    (howner : ∀ s, (f s).owner = s.owner) {s : UnixEndpoint n} (hs : s.owner ≠ i) :
    s ∈ w.update i fd f ↔ s ∈ w.sockets := by
  rw [update, List.mem_map]
  constructor
  · rintro ⟨s₀, hs₀, rfl⟩
    split_ifs at hs ⊢ with hown
    · exact absurd ((howner s₀).trans hown.1) hs
    · exact hs₀
  · intro hmem
    exact ⟨s, hmem, if_neg fun hown => hs hown.1⟩

theorem Mine.update {fd : Fd} {f : UnixEndpoint n → UnixEndpoint n} (s : UnixEndpoint n)
    (hs : s.owner = i ∧ s.fd = fd) (hmine : Mine i [s] w) (node : Option PathNode) :
    Mine i [f s] ⟨node, w.update i fd f⟩ := by
  intro s' hs'
  rw [PathWorld.update, List.mem_map, List.mem_singleton]
  have hmem := (hmine s hs.1).2 (List.mem_singleton.2 rfl)
  constructor
  · rintro ⟨s₀, hs₀, rfl⟩
    have howner₀ : s₀.owner = i := by
      split_ifs at hs' with hown
      · exact hown.1
      · exact hs'
    cases List.mem_singleton.1 ((hmine s₀ howner₀).1 hs₀)
    rw [if_pos hs]
  · rintro rfl
    exact ⟨s, hmem, if_pos hs⟩

theorem mem_close {fd : Fd} {s : UnixEndpoint n} :
    s ∈ w.sockets.filter (fun s => !(s.owner == i && s.fd == fd)) ↔
      s ∈ w.sockets ∧ ¬ (s.owner = i ∧ s.fd = fd) := by
  rw [List.mem_filter, Bool.not_eq_true', Bool.and_eq_false_iff, beq_eq_false_iff_ne,
    beq_eq_false_iff_ne, not_and_or]

theorem Mine.close {fd : Fd} {s : UnixEndpoint n} (hmine : Mine i (s :: L) w) (hs : s.fd = fd)
    (hL : ∀ s ∈ L, s.fd ≠ fd) :
    Mine i L { w with sockets := w.sockets.filter fun s => !(s.owner == i && s.fd == fd) } := by
  intro s' hs'
  rw [mem_close, hmine s' hs', List.mem_cons]
  constructor
  · rintro ⟨rfl | hmem, hother⟩
    · exact absurd ⟨hs', hs⟩ hother
    · exact hmem
  · exact fun hmem => ⟨.inr hmem, fun hown => hL s' hmem hown.2⟩

theorem Mine.open {fd : Fd} (hmine : Mine i L w) :
    Mine i (⟨i, fd, none, false⟩ :: L)
      { w with sockets := ⟨i, fd, none, false⟩ :: w.sockets } := by
  intro s hs
  rw [List.mem_cons, List.mem_cons, hmine s hs]

theorem Starts.open {fd : Fd} :
    Starts i w { w with sockets := ⟨i, fd, none, false⟩ :: w.sockets } := by
  refine ⟨fun s hs => ?_, fun s hs identity hbound => ?_, .inl rfl⟩
  · rw [List.mem_cons]
    exact ⟨fun h => h.resolve_left fun heq => hs (by rw [heq]), .inr⟩
  · obtain rfl | hs := List.mem_cons.1 hs
    · cases hbound
    · exact .inl ⟨s, hs, hbound, rfl⟩

theorem Ends.close {fd : Fd} :
    Ends i w { w with sockets := w.sockets.filter fun s => !(s.owner == i && s.fd == fd) } := by
  refine ⟨fun s hs => ?_, fun s hs => (mem_close.1 hs).1, .inl rfl⟩
  rw [mem_close]
  exact ⟨And.left, fun h => ⟨h, fun hown => hs hown.1⟩⟩

theorem Starts.close {fd : Fd} :
    Starts i w { w with sockets := w.sockets.filter fun s => !(s.owner == i && s.fd == fd) } :=
  ⟨Ends.close.spares, fun s hs _ hbound => .inl ⟨s, (mem_close.1 hs).1, hbound, rfl⟩, .inl rfl⟩


/-! ### The programs -/

section

variable {β : Type} {errnoText : PathErrno → Bytes} {path : Bytes} {fd : Fd}
  {identity : UnixSocketIdentity} {listening : Bool} {mode : ℕ}

/-- A program of a server that starts. -/
abbrev StartMeets (i : Fin n) (post : β → PathWorld n → Prop) (program : Sys β)
    (w : PathWorld n) : Prop :=
  program.Meets (Calls i) (WhileStarting i) (Starts i) post w

theorem start_call {post : Except ServerError β → PathWorld n → Prop} {call : Syscall}
    {next : call.Answer → ExceptT ServerError Sys β} (P : PathWorld n → Prop)
    (hstable : Program.Stable (WhileStarting i) P) (hw : P w)
    (h : ∀ w₁, P w₁ → ∀ answer w₂, Calls i w₁ call answer w₂ →
      Starts i w₁ w₂ ∧ StartMeets i post (next answer).run w₂) :
    StartMeets i post (do next (← syscall call) : ExceptT ServerError Sys β).run w :=
  Program.meets_call P hstable hw h

/-- A server takes its own node away. -/
theorem meets_unlinkOwned {rely guar : PathWorld n → PathWorld n → Prop}
    (hstable : Program.Stable rely (Owns i fd identity listening mode))
    (hmine : Program.Stable rely (Mine i [⟨i, fd, some identity, listening⟩]))
    (hrefl : ∀ w, guar w w)
    (hunlink : ∀ w, Owns i fd identity listening mode w → guar w { w with node := none })
    (howns : Owns i fd identity listening mode w) :
    (unlinkOwnedUnixSocket identity).Meets (Calls i) rely guar
      (fun _ => Mine i [⟨i, fd, some identity, listening⟩]) w := by
  refine Program.meets_call _ hstable howns fun w₁ howns answer w₂ hcall => ?_
  obtain ⟨rfl, -⟩ := calls_lstat hcall
  refine ⟨hrefl _, ?_⟩
  cases answer with
  | error => exact Program.meets_done hmine howns.mine
  | ok current =>
    dsimp only [Program.bind]
    split_ifs
    · exact Program.meets_done hmine howns.mine
    · refine Program.meets_call _ hstable howns fun w₁ howns answer w₂ hcall => ?_
      obtain rfl | rfl := calls_unlink hcall
      · exact ⟨hrefl _, Program.meets_done hmine howns.mine⟩
      · exact ⟨hunlink w₁ howns, Program.meets_done hmine howns.mine⟩

theorem Starts.of_sockets (hsockets : w'.sockets = w.sockets)
    (hnode : w'.node = w.node ∨ ∀ node, w.node = some node → node.isSocket = true ∧
      ∀ s ∈ w.sockets, s.owner ≠ i → s.listening = true → s.bound ≠ some node.identity) :
    Starts i w w' := by
  refine ⟨fun s _ => by rw [hsockets], fun s hs _ hbound => ?_, hnode⟩
  exact .inl ⟨s, hsockets ▸ hs, hbound, rfl⟩

/-- What it may do to its own node. -/
theorem Owns.starts (howns : Owns i fd identity listening mode w) (node : Option PathNode) :
    Starts i w { w with node } := by
  refine .of_sockets rfl (.inr fun node' hnode' => ?_)
  cases howns.node.symm.trans hnode'
  exact ⟨rfl, fun s hs howner _ hbound => howner (howns.alone s hs hbound)⟩

theorem start_unlinkStale (expected : UnixSocketIdentity) (hmine : Mine i L w) (hdead : Dead w) :
    StartMeets i (fun _ => Mine i L) (unlinkStaleUnixSocket errnoText path expected).run w := by
  refine start_call (fun w => Mine i L w ∧ Dead w) ((Mine.stable i L).and (Dead.stable i))
    ⟨hmine, hdead⟩ ?_
  rintro w₁ ⟨hmine, hdead⟩ answer w₂ hcall
  obtain ⟨rfl, hshown⟩ := calls_lstat hcall
  refine ⟨.refl i _, ?_⟩
  cases answer with
  | error errno =>
    dsimp only
    split_ifs
    · exact Program.meets_done (Mine.stable i L) hmine
    · exact Program.meets_done (Mine.stable i L) hmine
  | ok after =>
    dsimp only
    split_ifs with hother
    · exact Program.meets_done (Mine.stable i L) hmine
    · obtain ⟨node, hnode, rfl⟩ := hshown after rfl
      have hsocket : node.isSocket = true := by
        rw [Bool.not_eq_true', Bool.not_eq_false, sameUnixSocket, Bool.and_eq_true,
          Bool.and_eq_true] at hother
        exact hother.1.1
      refine start_call
        (fun w => Mine i L w ∧ Dead w ∧ ∃ node, w.node = some node ∧ node.isSocket = true)
        ((Mine.stable i L).and (Dead.stable_socket i)) ⟨hmine, hdead, node, hnode, hsocket⟩ ?_
      rintro w₁ ⟨hmine, hdead, node, hnode, hsocket⟩ answer w₂ hcall
      have hunlinked : Starts i w₁ w₂ ∧ Mine i L w₂ := by
        obtain rfl | rfl := calls_unlink hcall
        · exact ⟨.refl i _, hmine⟩
        · refine ⟨.of_sockets rfl (.inr fun node' hnode' => ?_), hmine⟩
          cases hnode.symm.trans hnode'
          exact ⟨hsocket, fun s hs _ => accepts_eq_false.1 (hdead node hnode hsocket) s hs⟩
      refine ⟨hunlinked.1, ?_⟩
      cases answer with
      | error errno =>
        dsimp only
        split_ifs
        · exact Program.meets_done (Mine.stable i L) hunlinked.2
        · exact Program.meets_done (Mine.stable i L) hunlinked.2
      | ok => exact Program.meets_done (Mine.stable i L) hunlinked.2

theorem start_probe (before : FileStatus) (probe : Fd) (hmine : Mine i L w) :
    StartMeets i (fun _ => Mine i L) (probeUnixSocket errnoText path before probe).run w := by
  refine start_call _ (Mine.stable i L) hmine fun w₁ hmine answer w₂ hcall => ?_
  obtain ⟨rfl, hrefused⟩ := calls_connect hcall
  refine ⟨.refl i _, ?_⟩
  cases answer with
  | ok => exact Program.meets_done (Mine.stable i L) hmine
  | error connectError =>
    dsimp only
    split_ifs with hmissing hother
    · exact Program.meets_done (Mine.stable i L) hmine
    · exact Program.meets_done (Mine.stable i L) hmine
    · exact start_unlinkStale _ hmine (hrefused (congrArg _ (not_not.1 hother)))

theorem start_removeStale (hL : ∀ s ∈ L, s.owner = i) (hmine : Mine i L w) :
    StartMeets i (fun _ => Mine i L) (removeStaleUnixSocket errnoText path).run w := by
  refine start_call _ (Mine.stable i L) hmine fun w₁ hmine answer w₂ hcall => ?_
  obtain ⟨rfl, -⟩ := calls_lstat hcall
  refine ⟨.refl i _, ?_⟩
  cases answer with
  | error errno =>
    dsimp only
    split_ifs
    · exact Program.meets_done (Mine.stable i L) hmine
    · exact Program.meets_done (Mine.stable i L) hmine
  | ok before =>
    dsimp only
    split_ifs
    · exact Program.meets_done (Mine.stable i L) hmine
    · refine start_call _ (Mine.stable i L) hmine fun w₁ hmine answer w₂ hcall => ?_
      obtain ⟨errno, rfl, rfl⟩ | ⟨probe, rfl, hfree, rfl⟩ := calls_socket hcall
      · exact ⟨.refl i _, Program.meets_done (Mine.stable i L) hmine⟩
      · have hother : ∀ s ∈ L, s.fd ≠ probe := fun s hs =>
          hfree s ((hmine s (hL s hs)).2 hs) (hL s hs)
        refine ⟨.open, Program.Meets.bind ((start_probe before probe hmine.open).mono ?_)⟩
        -- the probe is closed, whatever came of it
        intro result w₁ hmine
        refine Program.meets_call _ (Mine.stable i _) hmine fun w₁ hmine answer w₂ hcall => ?_
        rw [calls_close hcall]
        exact ⟨.close, Program.meets_done (Mine.stable i L) (hmine.close rfl hother)⟩

/-- What `bindUnixPath` leaves behind. -/
def AfterBind (i : Fin n) (fd : Fd) : Except ServerError Unit → PathWorld n → Prop
  | .ok (), w => ∃ identity mode, Owns i fd identity false mode w
  | .error _, w => Mine i [⟨i, fd, none, false⟩] w

theorem AfterBind.stable (i : Fin n) (fd : Fd) (result : Except ServerError Unit) :
    Program.Stable (WhileStarting i) (AfterBind i fd result) := by
  cases result with
  | ok =>
    rintro w w' ⟨identity, mode, howns⟩ h
    exact ⟨identity, mode, Owns.stable i fd identity false mode w w' howns h⟩
  | error => exact Mine.stable i _

theorem start_bind (hmine : Mine i [⟨i, fd, none, false⟩] w) {answer : Except PathErrno Unit}
    (h : Calls i w (.bind fd) answer w') :
    Starts i w w' ∧
      match answer with
      | .ok () => ∃ identity mode, Owns i fd identity false mode w'
      | .error _ => Mine i [⟨i, fd, none, false⟩] w' := by
  obtain ⟨errno, rfl, rfl⟩ | ⟨identity, mode, rfl, hnode, hfresh, rfl⟩ := calls_bind h
  · exact ⟨.refl i _, hmine⟩
  · refine ⟨⟨fun s hs => ?_, fun s hs identity' hbound => ?_,
      .inr fun node hsome => ?_⟩, identity, mode, rfl, ?_, fun s hs hbound => ?_⟩
    · exact mem_update (f := fun s => { s with bound := some identity }) (fun _ => rfl) hs
    · obtain ⟨s₀, hs₀, rfl⟩ := List.mem_map.1 hs
      by_cases hown : s₀.owner = i ∧ s₀.fd = fd
      · rw [if_pos hown] at hbound
        cases hbound
        exact .inr hfresh
      · rw [if_neg hown] at hbound ⊢
        exact .inl ⟨s₀, hs₀, hbound, rfl⟩
    · cases hnode.symm.trans hsome
    · exact Mine.update (f := fun s => { s with bound := some identity }) ⟨i, fd, none, false⟩
        ⟨rfl, rfl⟩ hmine _
    · obtain ⟨s₀, hs₀, rfl⟩ := List.mem_map.1 hs
      by_cases hown : s₀.owner = i ∧ s₀.fd = fd
      · rw [if_pos hown]
        exact hown.1
      · rw [if_neg hown] at hbound
        exact absurd hbound (hfresh s₀ hs₀)

theorem start_bindPath (hmine : Mine i [⟨i, fd, none, false⟩] w) :
    StartMeets i (AfterBind i fd) (bindUnixPath errnoText path fd).run w := by
  refine start_call _ (Mine.stable i _) hmine fun w₁ hmine answer w₂ hcall => ?_
  obtain ⟨hstarts, hbound⟩ := start_bind hmine hcall
  refine ⟨hstarts, ?_⟩
  cases answer with
  | ok => exact Program.meets_done (AfterBind.stable i fd (.ok ())) hbound
  | error bindError =>
    dsimp only
    split_ifs
    · exact Program.meets_done (AfterBind.stable i fd (.error _)) hbound
    · rw [Program.run_bind]
      refine Program.Meets.bind ((start_removeStale ?_ hbound).mono fun result w₁ hmine => ?_)
      · exact fun s hs => by rw [List.mem_singleton.1 hs]
      · cases result with
        | error error => exact Program.meets_done (AfterBind.stable i fd (.error _)) hmine
        | ok =>
          refine start_call _ (Mine.stable i _) hmine fun w₁ hmine answer w₂ hcall => ?_
          obtain ⟨hstarts, hbound⟩ := start_bind hmine hcall
          refine ⟨hstarts, ?_⟩
          cases answer with
          | ok => exact Program.meets_done (AfterBind.stable i fd (.ok ())) hbound
          | error => exact Program.meets_done (AfterBind.stable i fd (.error _)) hbound

/-- What `publishUnixListener` leaves behind. -/
def AfterPublish (i : Fin n) (fd : Fd) : Except ServerError BoundUnixListener → PathWorld n → Prop
  | .ok bound, w => bound.fd = fd ∧ Owns i fd bound.identity true kUnixSocketMode w
  | .error _, w => ∃ s : UnixEndpoint n, s.fd = fd ∧ Mine i [s] w

theorem AfterPublish.stable (i : Fin n) (fd : Fd) (result : Except ServerError BoundUnixListener) :
    Program.Stable (WhileStarting i) (AfterPublish i fd result) := by
  cases result with
  | ok bound =>
    rintro w w' ⟨hfd, howns⟩ h
    exact ⟨hfd, Owns.stable i fd _ _ _ w w' howns h⟩
  | error =>
    rintro w w' ⟨s, hfd, hmine⟩ h
    exact ⟨s, hfd, Mine.stable i [s] w w' hmine h⟩

/-- The way out once the pathname is bound. -/
theorem start_unlinkOwned_throw (before after : Bytes)
    (howns : Owns i fd identity false mode w) :
    StartMeets i (AfterPublish i fd)
      (do unlinkOwnedUnixSocket identity; throwUnix path before after :
        ExceptT ServerError Sys BoundUnixListener).run w := by
  have hunlinks : StartMeets i (fun result w' => result = .ok () ∧
      Mine i [⟨i, fd, some identity, false⟩] w')
      (liftM (unlinkOwnedUnixSocket identity) : ExceptT ServerError Sys Unit).run w := by
    refine Program.Meets.bind ((meets_unlinkOwned (Owns.stable i fd identity false mode)
      (Mine.stable i _) (Starts.refl i) (fun _ howns => howns.starts none) howns).mono ?_)
    intro _ w' hmine
    exact Program.meets_done (fun w w' h hrely => ⟨rfl, Mine.stable i _ w w' h.2 hrely⟩)
      ⟨rfl, hmine⟩
  rw [Program.run_bind]
  refine Program.Meets.bind (hunlinks.mono ?_)
  rintro _ w' ⟨rfl, hmine⟩
  exact Program.meets_done (AfterPublish.stable i fd (.error _)) ⟨_, rfl, hmine⟩

theorem Owns.listen (howns : Owns i fd identity false mode w) :
    Starts i w { w with sockets := w.update i fd fun s => { s with listening := true } } ∧
      Owns i fd identity true mode
        { w with sockets := w.update i fd fun s => { s with listening := true } } := by
  have hbefore : ∀ s' ∈ w.update i fd (fun s => { s with listening := true }),
      ∃ s ∈ w.sockets, s.bound = s'.bound ∧ s.owner = s'.owner := by
    intro s' hs'
    obtain ⟨s, hs, rfl⟩ := List.mem_map.1 hs'
    refine ⟨s, hs, ?_⟩
    split_ifs
    · exact ⟨rfl, rfl⟩
    · exact ⟨rfl, rfl⟩
  refine ⟨⟨fun s hs => ?_, fun s' hs' identity' hbound => ?_, .inl rfl⟩, howns.node, ?_,
    fun s' hs' hbound => ?_⟩
  · exact mem_update (f := fun s => { s with listening := true }) (fun _ => rfl) hs
  · obtain ⟨s, hs, hsame, howner⟩ := hbefore s' hs'
    exact .inl ⟨s, hs, hsame.trans hbound, howner⟩
  · exact Mine.update (f := fun s => { s with listening := true }) ⟨i, fd, some identity, false⟩
      ⟨rfl, rfl⟩ howns.mine _
  · obtain ⟨s, hs, hsame, howner⟩ := hbefore s' hs'
    exact howner ▸ howns.alone s hs (hsame.trans hbound)

theorem start_publish (backlog : Int32) (howns : Owns i fd identity false mode w) :
    StartMeets i (AfterPublish i fd) (publishUnixListener errnoText path backlog fd).run w := by
  refine start_call _ (Owns.stable i fd identity false mode) howns
    fun w₁ howns answer w₂ hcall => ?_
  obtain ⟨rfl, hshown⟩ := calls_lstat hcall
  refine ⟨.refl i _, ?_⟩
  cases answer with
  | error => exact Program.meets_done (AfterPublish.stable i fd (.error _)) ⟨_, rfl, howns.mine⟩
  | ok boundStatus =>
    obtain ⟨node, hnode, rfl⟩ := hshown boundStatus rfl
    cases howns.node.symm.trans hnode
    dsimp only
    split_ifs
    · exact Program.meets_done (AfterPublish.stable i fd (.error _)) ⟨_, rfl, howns.mine⟩
    · refine start_call _ (Owns.stable i fd identity false mode) howns
        fun w₁ howns answer w₂ hcall => ?_
      obtain ⟨errno, rfl, rfl⟩ | ⟨node, rfl, hnode, rfl⟩ := calls_chmod hcall
      · exact ⟨.refl i _, start_unlinkOwned_throw _ _ howns⟩
      · cases howns.node.symm.trans hnode
        refine ⟨howns.starts _, ?_⟩
        have howns' : Owns i fd identity false kUnixSocketMode
            { w₁ with node := some ⟨true, identity, kUnixSocketMode⟩ } :=
          ⟨rfl, howns.mine, howns.alone⟩
        refine start_call _ (Owns.stable i fd identity false kUnixSocketMode) howns'
          fun w₁ howns answer w₂ hcall => ?_
        obtain ⟨errno, rfl, rfl⟩ | ⟨rfl, rfl⟩ := calls_listen hcall
        · exact ⟨.refl i _, start_unlinkOwned_throw _ _ howns⟩
        · obtain ⟨hlistens, howns⟩ := howns.listen
          exact ⟨hlistens, Program.meets_done (AfterPublish.stable i fd (.ok _)) ⟨rfl, howns⟩⟩

/-- What `bind_unix_listener` leaves behind. -/
def AfterStart (path : Bytes) (i : Fin n) :
    Except ServerError BoundUnixListener → PathWorld n → Prop
  | .ok bound, w => path.isEmpty = false ∧ Owns i bound.fd bound.identity true kUnixSocketMode w
  | .error _, w => Mine i [] w

theorem AfterStart.stable (path : Bytes) (i : Fin n)
    (result : Except ServerError BoundUnixListener) :
    Program.Stable (WhileStarting i) (AfterStart path i result) := by
  cases result with
  | ok bound =>
    rintro w w' ⟨hpath, howns⟩ h
    exact ⟨hpath, Owns.stable i _ _ _ _ w w' howns h⟩
  | error => exact Mine.stable i []

theorem start_bindUnixListener (backlog : Int32) (hmine : Mine i [] w) :
    StartMeets i (AfterStart path i) (bindUnixListener errnoText path backlog).run w := by
  unfold bindUnixListener
  split_ifs with hinvalid
  · exact Program.meets_done (AfterStart.stable path i (.error _)) hmine
  · rw [Bool.or_eq_true, Bool.or_eq_true, not_or, not_or] at hinvalid
    have hpath : path.isEmpty = false := Bool.eq_false_of_not_eq_true hinvalid.1.1
    refine start_call _ (Mine.stable i []) hmine fun w₁ hmine answer w₂ hcall => ?_
    obtain ⟨errno, rfl, rfl⟩ | ⟨listener, rfl, -, rfl⟩ := calls_socket hcall
    · exact ⟨.refl i _, Program.meets_done (AfterStart.stable path i (.error _)) hmine⟩
    · have hbody : StartMeets i (AfterPublish i listener)
          (do bindUnixPath errnoText path listener
              publishUnixListener errnoText path backlog listener :
            ExceptT ServerError Sys BoundUnixListener).run
          { w₁ with sockets := ⟨i, listener, none, false⟩ :: w₁.sockets } := by
        rw [Program.run_bind]
        refine Program.Meets.bind ((start_bindPath hmine.open).mono fun result w₂ hafter => ?_)
        cases result with
        | ok =>
          obtain ⟨identity, mode, howns⟩ := hafter
          exact start_publish backlog howns
        | error =>
          exact Program.meets_done (AfterPublish.stable i listener (.error _)) ⟨_, rfl, hafter⟩
      refine ⟨.open, Program.Meets.bind (hbody.mono fun result w₂ hafter => ?_)⟩
      cases result with
      | ok bound =>
        obtain ⟨rfl, howns⟩ := hafter
        exact Program.meets_done (AfterStart.stable path i (.ok bound)) ⟨hpath, howns⟩
      | error error =>
        obtain ⟨s, hfd, hmine⟩ := hafter
        refine Program.meets_call _ (Mine.stable i [s]) hmine fun w₁ hmine answer w₂ hcall => ?_
        rw [calls_close hcall]
        exact ⟨.close, Program.meets_done (AfterStart.stable path i (.error _))
          (hmine.close hfd fun _ h => by cases h)⟩

/-! The end of a listener. -/

/-- A program of a server that stops. -/
abbrev EndMeets (i : Fin n) (program : Sys β) (post : β → PathWorld n → Prop)
    (w : PathWorld n) : Prop :=
  program.Meets (Calls i) (Always i) (Ends i) post w

theorem Owns.ends (howns : Owns i fd identity true mode w) :
    Ends i w { w with node := none } :=
  ⟨fun _ _ => Iff.rfl, fun _ hs => hs, .inr ⟨rfl, _, _, howns.node, rfl,
    (howns.mine _ rfl).2 (List.mem_singleton.2 rfl), rfl, rfl, rfl⟩⟩

theorem end_close {s : UnixEndpoint n} (hmine : Mine i [s] w) :
    EndMeets i (ListenerState.closeAll [s.fd]) (fun _ => Mine i []) w := by
  refine Program.meets_call _ (Mine.stable_always i [s]) hmine fun w₁ hmine answer w₂ hcall => ?_
  rw [calls_close hcall]
  exact ⟨.close, Program.meets_done (Mine.stable_always i [])
    (hmine.close rfl fun _ h => by cases h)⟩

variable {config : Listener}

/-- The pathname is released. -/
theorem end_release (hpath : config.unixSocketPath.isEmpty = false)
    (howns : Owns i fd identity true kUnixSocketMode w) :
    EndMeets i (ListenerState.releaseUnixPath
        { config, unixSocketIdentity := some identity, sockets := [fd] })
      (fun state w' => state = { config, unixSocketIdentity := none, sockets := [fd] } ∧
        Mine i [⟨i, fd, some identity, true⟩] w') w := by
  unfold ListenerState.releaseUnixPath
  dsimp only
  rw [hpath]
  refine Program.Meets.bind ((meets_unlinkOwned
    (Owns.stable_always i fd identity kUnixSocketMode) (Mine.stable_always i _) (Ends.refl i)
    (fun _ howns => howns.ends) howns).mono fun _ w' hmine => ?_)
  exact Program.meets_done (fun w w' h hrely => ⟨rfl, Mine.stable_always i _ w w' h.2 hrely⟩)
    ⟨rfl, hmine⟩

theorem end_destroy (hpath : config.unixSocketPath.isEmpty = false)
    (howns : Owns i fd identity true kUnixSocketMode w) :
    EndMeets i (ListenerState.destroy
        { config, unixSocketIdentity := some identity, sockets := [fd] })
      (fun _ => Mine i []) w := by
  refine Program.Meets.bind ((end_release hpath howns).mono ?_)
  rintro _ w' ⟨rfl, hmine⟩
  exact end_close hmine

theorem end_retire (hpath : config.unixSocketPath.isEmpty = false)
    (howns : Owns i fd identity true kUnixSocketMode w) :
    EndMeets i (ListenerState.retire
        { config, unixSocketIdentity := some identity, sockets := [fd] })
      (fun _ => Mine i []) w := by
  refine Program.Meets.bind ((end_release hpath howns).mono ?_)
  rintro _ w' ⟨rfl, hmine⟩
  exact end_close hmine

end

end PathWorld

/-! ### All servers -/

namespace UnixServers

open PathWorld Transitions

variable {n : ℕ} {errnoText : PathErrno → Bytes} {config : Listener} {backlog : Int32}
  {s s' : UnixServers n} {i j : Fin n} {w w' : PathWorld n}

/-- What a server keeps to, by its phase. -/
def Holds (config : Listener) (i : Fin n) (w : PathWorld n) : UnixPhase → Prop
  | .idle => Mine i [] w
  | .starting program => StartMeets i (AfterStart config.unixSocketPath i) program w
  | .running state => ∃ fd identity, config.unixSocketPath.isEmpty = false ∧
      state = { config, unixSocketIdentity := some identity, sockets := [fd] } ∧
        Owns i fd identity true kUnixSocketMode w
  | .releasing program => EndMeets i program (fun _ => Mine i []) w

/-- What each server may assume, and that no two of them are in `start` at once. -/
structure Inv (config : Listener) (s : UnixServers n) : Prop where
  holds : ∀ i, Holds config i s.world (s.phases i)
  /-- One server starts at a time. -/
  inTurn : ∀ i j, (s.phases i).isStarting = true → (s.phases j).isStarting = true → i = j

theorem Holds.whileStarting {phase : UnixPhase} (h : Holds config i w phase)
    (hothers : WhileStarting i w w') : Holds config i w' phase := by
  cases phase with
  | idle => exact Mine.stable i [] w w' h hothers
  | starting program => exact h.of_rely hothers
  | running state =>
    obtain ⟨fd, identity, hpath, hstate, howns⟩ := h
    exact ⟨fd, identity, hpath, hstate, Owns.stable i _ _ _ _ w w' howns hothers⟩
  | releasing program => exact h.of_rely (.inl hothers)

theorem Holds.always {phase : UnixPhase} (h : Holds config i w phase)
    (hphase : phase.isStarting = false) (hothers : Always i w w') : Holds config i w' phase := by
  cases phase with
  | idle => exact Mine.stable_always i [] w w' h hothers
  | starting program => cases hphase
  | running state =>
    obtain ⟨fd, identity, hpath, hstate, howns⟩ := h
    exact ⟨fd, identity, hpath, hstate, Owns.stable_always i _ _ _ w w' howns hothers⟩
  | releasing program => exact h.of_rely hothers

/-- A program that is through has left what it should. -/
theorem Holds.settle {phase : UnixPhase} (h : Holds config i w phase) :
    Holds config i w (settle config phase) := by
  cases phase with
  | idle => exact h
  | running state => exact h
  | starting program =>
    cases program with
    | call c next => exact h
    | done result =>
      have hafter : StartMeets i (AfterStart config.unixSocketPath i) (.done result) w := h
      have hresult := hafter.of_done
      cases result with
      | ok bound =>
        obtain ⟨hpath, howns⟩ := hresult
        exact ⟨bound.fd, bound.identity, hpath, rfl, howns⟩
      | error error => exact hresult
  | releasing program =>
    cases program with
    | call c next => exact h
    | done result =>
      have hafter : EndMeets i (.done result) (fun _ => Mine i []) w := h
      exact hafter.of_done

theorem isStarting_settle {phase : UnixPhase} (h : (settle config phase).isStarting = true) :
    phase.isStarting = true := by
  cases phase with
  | idle => exact h
  | running state => exact h
  | starting program => rfl
  | releasing program =>
    cases program with
    | call c next => exact h
    | done result => cases h

/-- A server that runs. -/
theorem Inv.running {state : ListenerState} (hinv : Inv config s)
    (hphase : s.phases i = .running state) : ∃ fd identity,
      config.unixSocketPath.isEmpty = false ∧
        state = { config, unixSocketIdentity := some identity, sockets := [fd] } ∧
          Owns i fd identity true kUnixSocketMode s.world := by
  have hholds := hinv.holds i
  rw [hphase] at hholds
  exact hholds

/-- A step of one server, as the others see it. -/
theorem Inv.put {phase : UnixPhase} (hinv : Inv config s) (hown : Holds config i w phase)
    (hothers : ∀ j, j ≠ i → Holds config j w (s.phases j))
    (hturn : phase.isStarting = true → ∀ j, j ≠ i → (s.phases j).isStarting = false) :
    Inv config (UnixServers.put config { s with world := w } i phase) := by
  have hsame : ∀ j, j ≠ i →
      Function.update s.phases i (UnixServers.settle config phase) j = s.phases j :=
    fun j hj => Function.update_of_ne hj _ _
  have hself : Function.update s.phases i (UnixServers.settle config phase) i =
      UnixServers.settle config phase := Function.update_self ..
  have hstarting : ∀ j, j ≠ i →
      (UnixServers.settle config phase).isStarting = true → (s.phases j).isStarting = false :=
    fun j hj h => hturn (isStarting_settle h) j hj
  refine ⟨fun j => ?_, fun j k hj hk => ?_⟩
  · -- the others hold what they did; the server itself may be through
    show Holds config j w (Function.update s.phases i _ j)
    by_cases hij : j = i
    · rw [hij, hself]
      exact hown.settle
    · rw [hsame j hij]
      exact hothers j hij
  · change (Function.update s.phases i _ j).isStarting = true at hj
    change (Function.update s.phases i _ k).isStarting = true at hk
    by_cases hji : j = i
    · by_cases hki : k = i
      · rw [hji, hki]
      · rw [hji, hself] at hj
        rw [hsame k hki, hstarting k hki hj] at hk
        cases hk
    · rw [hsame j hji] at hj
      by_cases hki : k = i
      · rw [hki, hself] at hk
        rw [hstarting j hji hk] at hj
        cases hj
      · rw [hsame k hki] at hk
        exact hinv.inTurn j k hj hk

/-- A call of a server that starts. -/
theorem Inv.call_starting {choice : KernelChoice} {c : Syscall}
    {next : c.Answer → Sys (Except ServerError BoundUnixListener)} {answer : c.Answer}
    (hinv : Inv config s) (hphase : s.phases i = .starting (.call c next))
    (hcall : s.world.call i choice c = some (answer, w)) :
    Starts i s.world w ∧
      Inv config (UnixServers.put config { s with world := w } i (.starting (next answer))) := by
  have hown := hinv.holds i
  rw [hphase] at hown
  obtain ⟨hstarts, hnext⟩ := hown.of_exec ⟨choice, hcall⟩
  have hothers : ∀ j, j ≠ i → (s.phases j).isStarting = false := by
    intro j hj
    refine Bool.eq_false_of_not_eq_true fun hstarting => hj (hinv.inTurn j i hstarting ?_)
    rw [hphase]
    rfl
  exact ⟨hstarts, hinv.put hnext
    (fun j hj => (hinv.holds j).always (hothers j hj) (.inr ⟨i, hj.symm, hstarts⟩))
    fun _ => hothers⟩

/-- A call of a server that stops. -/
theorem Inv.call_releasing {choice : KernelChoice} {c : Syscall} {next : c.Answer → Sys Unit}
    {answer : c.Answer} (hinv : Inv config s) (hphase : s.phases i = .releasing (.call c next))
    (hcall : s.world.call i choice c = some (answer, w)) :
    Ends i s.world w ∧
      Inv config (UnixServers.put config { s with world := w } i (.releasing (next answer))) := by
  have hown := hinv.holds i
  rw [hphase] at hown
  obtain ⟨hends, hnext⟩ := hown.of_exec ⟨choice, hcall⟩
  exact ⟨hends, hinv.put hnext
    (fun j hj => (hinv.holds j).whileStarting (.inl ⟨i, hj.symm, hends⟩)) fun h => by cases h⟩

/-- A server dies. -/
theorem Ends.crash (w : PathWorld n) (i : Fin n) :
    Ends i w { w with sockets := w.sockets.filter (·.owner != i) } ∧
      Mine i [] { w with sockets := w.sockets.filter (·.owner != i) } := by
  have hmem : ∀ s : UnixEndpoint n, s ∈ w.sockets.filter (·.owner != i) ↔
      s ∈ w.sockets ∧ s.owner ≠ i := fun s => by rw [List.mem_filter, bne_iff_ne]
  refine ⟨⟨fun s hs => ?_, fun s hs => ((hmem s).1 hs).1, .inl rfl⟩, fun s hs => ?_⟩
  · exact (hmem s).trans (and_iff_left hs)
  · exact iff_of_false (fun h => ((hmem s).1 h).2 hs) List.not_mem_nil

/-- What a step does to the pathname, and to the invariant. -/
theorem Inv.step (hinv : Inv config s) {action : UnixStep n}
    (hstep : s.stepInTurn errnoText config backlog action = some s') :
    Inv config s' ∧ ((∃ i, Starts i s.world s'.world ∨ Ends i s.world s'.world) ∨
      Outside s.world s'.world ∧ ∃ node, action = .outside node) := by
  have hsame : ∀ i, Ends i s.world s.world := fun i => .refl i _
  cases action with
  | start i =>
    dsimp only [stepInTurn] at hstep
    split_ifs at hstep with hturn
    dsimp only [UnixServers.step] at hstep
    cases hphase : s.phases i with
    | idle =>
      rw [hphase] at hstep
      cases hstep
      have hidle := hinv.holds i
      rw [hphase] at hidle
      refine ⟨hinv.put (start_bindUnixListener backlog hidle) (fun j _ => hinv.holds j)
        fun _ j _ => ?_, .inl ⟨i, .inr (hsame i)⟩⟩
      exact Bool.eq_false_of_not_eq_true fun hstarting => hturn ⟨j, hstarting⟩
    | _ =>
      rw [hphase] at hstep
      cases hstep
  | call i choice =>
    dsimp only [stepInTurn, UnixServers.step] at hstep
    cases hphase : s.phases i with
    | idle =>
      rw [hphase] at hstep
      cases hstep
    | running =>
      rw [hphase] at hstep
      cases hstep
    | starting program =>
      rw [hphase] at hstep
      cases program with
      | done result => cases hstep
      | call c next =>
        obtain ⟨⟨answer, w⟩, hcall, rfl⟩ := Option.map_eq_some_iff.1 hstep
        obtain ⟨hstarts, hnext⟩ := hinv.call_starting hphase hcall
        exact ⟨hnext, .inl ⟨i, .inl hstarts⟩⟩
    | releasing program =>
      rw [hphase] at hstep
      cases program with
      | done result => cases hstep
      | call c next =>
        obtain ⟨⟨answer, w⟩, hcall, rfl⟩ := Option.map_eq_some_iff.1 hstep
        obtain ⟨hends, hnext⟩ := hinv.call_releasing hphase hcall
        exact ⟨hnext, .inl ⟨i, .inr hends⟩⟩
  | stop i =>
    dsimp only [stepInTurn, UnixServers.step] at hstep
    cases hphase : s.phases i with
    | running state =>
      rw [hphase] at hstep
      cases hstep
      obtain ⟨fd, identity, hpath, rfl, howns⟩ := hinv.running hphase
      exact ⟨hinv.put (end_retire hpath howns) (fun j _ => hinv.holds j) (fun h => by cases h),
        .inl ⟨i, .inr (hsame i)⟩⟩
    | _ =>
      rw [hphase] at hstep
      cases hstep
  | discard i =>
    dsimp only [stepInTurn, UnixServers.step] at hstep
    cases hphase : s.phases i with
    | running state =>
      rw [hphase] at hstep
      cases hstep
      obtain ⟨fd, identity, hpath, rfl, howns⟩ := hinv.running hphase
      exact ⟨hinv.put (end_destroy hpath howns) (fun j _ => hinv.holds j) (fun h => by cases h),
        .inl ⟨i, .inr (hsame i)⟩⟩
    | _ =>
      rw [hphase] at hstep
      cases hstep
  | crash i =>
    cases hstep
    obtain ⟨hends, hmine⟩ := Ends.crash s.world i
    refine ⟨hinv.put hmine (fun j hj => ?_) (fun h => by cases h), .inl ⟨i, .inr hends⟩⟩
    exact (hinv.holds j).whileStarting (.inl ⟨i, hj.symm, hends⟩)
  | outside node =>
    dsimp only [stepInTurn, UnixServers.step] at hstep
    split_ifs at hstep with hsocket
    cases hstep
    rw [Bool.or_eq_true, not_or, Bool.not_eq_true, Bool.not_eq_true] at hsocket
    have hfile : ∀ found : Option PathNode, found.any (·.isSocket) = false →
        ∀ node, found = some node → node.isSocket = false := by
      rintro _ hany node rfl
      exact hany
    have houtside : Outside s.world { s.world with node } :=
      ⟨rfl, hfile _ hsocket.1, hfile _ hsocket.2⟩
    exact ⟨⟨fun i => (hinv.holds i).whileStarting (.inr houtside), hinv.inTurn⟩,
      .inr ⟨houtside, node, rfl⟩⟩

/-- Nothing was ever done at the pathname. -/
def init (node : Option PathNode) : UnixServers n := { world := { node } }

theorem init_inv (node : Option PathNode) : Inv config (init (n := n) node) := by
  refine ⟨fun i s _ => Iff.rfl, fun i j h => ?_⟩
  cases h

/-- If they start one at a time, a server that runs is the only one, and it is reachable.  No server
touches a file that is not a socket. -/
theorem unix_path {node : Option PathNode} {actions : List (UnixStep n)}
    (h : Run (stepInTurn errnoText config backlog) (init node) actions s) :
    (∀ i state, s.phases i = .running state → ∃ identity,
      state.unixSocketIdentity = some identity ∧
        s.world.node = some ⟨true, identity, kUnixSocketMode⟩ ∧
          s.world.accepts identity = true) ∧
    (∀ i j state state', s.phases i = .running state → s.phases j = .running state' → i = j) ∧
    ∀ action s', s.stepInTurn errnoText config backlog action = some s' →
      ∀ file, s.world.node = some file → file.isSocket = false →
        s'.world.node = some file ∨ ∃ node, action = .outside node := by
  have hinv : Inv config s :=
    h.invariant (fun _ _ _ hinv hstep => (Inv.step hinv hstep).1) (init_inv node)
  refine ⟨fun i state hphase => ?_, fun i j state state' hi hj => ?_, ?_⟩
  · obtain ⟨fd, identity, -, rfl, howns⟩ := hinv.running hphase
    have hsocket := (howns.mine ⟨i, fd, some identity, true⟩ rfl).2 (List.mem_singleton.2 rfl)
    exact ⟨identity, rfl, howns.node, accepts_eq_true hsocket rfl rfl⟩
  · -- both own what is at the pathname
    obtain ⟨fd, identity, -, -, howns⟩ := hinv.running hi
    obtain ⟨fd', identity', -, -, howns'⟩ := hinv.running hj
    cases howns.node.symm.trans howns'.node
    exact (howns'.alone ⟨i, fd, some identity, true⟩
      ((howns.mine _ rfl).2 (List.mem_singleton.2 rfl)) rfl)
  · intro action s' hstep file hfile hother
    obtain ⟨i, hstarts | hends⟩ | ⟨-, houtside⟩ := (Inv.step hinv hstep).2
    · left
      obtain hsame | hchanged := hstarts.node
      · exact hsame.trans hfile
      · rw [(hchanged file hfile).1] at hother
        cases hother
    · left
      obtain hsame | ⟨-, node', -, hnode', hsocket, -⟩ := hends.node
      · exact hsame.trans hfile
      · cases hfile.symm.trans hnode'
        rw [hsocket] at hother
        cases hother
    · exact .inr houtside

/-! Two servers. -/

/-- One of two servers. -/
def first : Fin 2 := ⟨0, Nat.zero_lt_two⟩

/-- The other one. -/
def second : Fin 2 := ⟨1, Nat.one_lt_two⟩

/-- The configuration that the two have in common. -/
def sharedPath : Listener := { unixSocketPath := ascii "/run/http.sock" }

/-- The first takes the place of a dead process, and the second finds it alive. -/
def takeover : List (UnixStep 2) :=
  [.start first, .call first { fd := 3 }, .call first {}, .call first {}, .call first { fd := 4 },
    .call first {}, .call first {}, .call first {}, .call first {},
    .call first { identity := ⟨1, 8⟩ }, .call first {}, .call first {}, .call first {},
    .start second, .call second { fd := 3 }, .call second {}, .call second {},
    .call second { fd := 4 }, .call second {}, .call second {}, .call second {}]

theorem unix_path_takeover :
    ∃ s state identity,
      Run (stepInTurn (fun _ => []) sharedPath 128) (init (some ⟨true, ⟨1, 7⟩, 493⟩)) takeover s ∧
        s.phases first = .running state ∧ s.phases second = .idle ∧
        state.unixSocketIdentity = some identity ∧
          s.world.node = some ⟨true, identity, kUnixSocketMode⟩ ∧
            s.world.accepts identity = true := by
  obtain ⟨s, state, hrun, hfirst, hsecond⟩ : ∃ s state,
      Run (stepInTurn (fun _ => []) sharedPath 128) (init (some ⟨true, ⟨1, 7⟩, 493⟩)) takeover s ∧
        s.phases first = .running state ∧ s.phases second = .idle :=
    ⟨_, _, .of_foldlM rfl, rfl, rfl⟩
  obtain ⟨identity, hreachable⟩ := (unix_path hrun).1 first state hfirst
  exact ⟨s, state, identity, hrun, hfirst, hsecond, hreachable⟩

/-- Two that start at the same time: the second probes the socket of the first before it listens,
and unlinks it afterwards. -/
def race : List (UnixStep 2) :=
  [.start first, .call first { fd := 3 }, .call first { identity := ⟨1, 8⟩ },
    .start second, .call second { fd := 3 }, .call second {}, .call second {},
    .call second { fd := 4 }, .call second {},
    .call first {}, .call first {}, .call first {},
    .call second {}, .call second {}]

example : ∃ s state, Run (step (fun _ => []) sharedPath 128) (init none) race s ∧
    s.phases first = .running state ∧ s.world.node = none :=
  ⟨_, _, .of_foldlM rfl, rfl, rfl⟩

end UnixServers

end ErikslundHttp
