import ErikslundHttp.Lib.Programs
import ErikslundHttp.Reactor.Basic
import ErikslundHttp.Server.Options

/-!
# Unix sockets and their pathnames

`bind_unix_listener` puts a socket at a pathname, and takes the place of one that a dead process
left there; `release_unix_path` takes it away again (`socket.cpp`).  Both are programs of system
calls, and anybody may change what is at the pathname between two of them.

In this module the kernel answers as it likes.

* `Guarded`: even so the programs unlink only what an `lstat` just showed to be a socket of an
  identity that they know, from the probe that found it dead, or from the `lstat` after their own
  `bind`.
* `unix_listener_calls`: so it is of every run, and no descriptor is left open.
-/

namespace ErikslundHttp

/-- The values of `errno` that the source tells apart. -/
inductive PathErrno where
  | eaddrinuse
  | econnrefused
  | enoent
  | other (number : ℕ)
  deriving DecidableEq, Repr

/-- The members of `UnixSocketIdentity`. -/
structure UnixSocketIdentity where
  device : UInt64
  inode : UInt64
  deriving DecidableEq, Repr

/-- The members of `struct stat` that the source reads. -/
structure FileStatus where
  isSocket : Bool
  device : UInt64
  inode : UInt64
  deriving DecidableEq, Repr

/-- The calls are about one pathname. -/
inductive Syscall where
  | socket
  | bind (fd : Fd)
  | listen (fd : Fd) (backlog : Int32)
  | connect (fd : Fd)
  | lstat
  | chmod (mode : ℕ)
  | unlink
  | close (fd : Fd)
  deriving DecidableEq

/-- What the kernel may answer to a call. -/
@[reducible] def Syscall.Answer : Syscall → Type
  | .socket => Except PathErrno Fd
  | .lstat => Except PathErrno FileStatus
  | .close _ => Unit
  | .bind _ | .listen _ _ | .connect _ | .chmod _ | .unlink => Except PathErrno Unit

/-- Code that makes system calls. -/
abbrev Sys := Program Syscall.Answer

/-- One call. -/
def syscall (call : Syscall) : Sys call.Answer := Program.request call

/-- `0660` -/
def kUnixSocketMode : ℕ := 432

/-- The bytes of `sockaddr_un::sun_path`. -/
def kSunPathBytes : ℕ := 108

/-- The members of `BoundUnixListener`. -/
structure BoundUnixListener where
  fd : Fd
  identity : UnixSocketIdentity
  deriving DecidableEq

/-- `unix_socket_identity`. -/
def unixSocketIdentity (status : FileStatus) : UnixSocketIdentity :=
  ⟨status.device, status.inode⟩

/-- `same_unix_socket`. -/
def sameUnixSocket (status : FileStatus) (identity : UnixSocketIdentity) : Bool :=
  status.isSocket && status.device == identity.device && status.inode == identity.inode

theorem sameUnixSocket_self {status : FileStatus} (h : status.isSocket = true) :
    sameUnixSocket status (unixSocketIdentity status) = true := by
  rw [sameUnixSocket, h]
  simp only [unixSocketIdentity, beq_self_eq_true, Bool.and_self]

/-- A `UniqueFd` of a block, closed at its end. -/
def closing {α : Type} (fd : Fd) (body : ExceptT ServerError Sys α) : ExceptT ServerError Sys α :=
  ExceptT.mk do
    let result ← body.run
    syscall (.close fd)
    return result

/-- A `UniqueFd` that the block returns, closed if it throws. -/
def closingOnThrow {α : Type} (fd : Fd) (body : ExceptT ServerError Sys α) :
    ExceptT ServerError Sys α :=
  ExceptT.mk do
    match ← body.run with
    | .ok result => return .ok result
    | .error error =>
      syscall (.close fd)
      return .error error

/-- `unlink_owned_unix_socket` -/
def unlinkOwnedUnixSocket (identity : UnixSocketIdentity) : Sys Unit := do
  match ← syscall .lstat with
  | .error _ => return ()
  | .ok current =>
    if !sameUnixSocket current identity then return ()
    else
      let _ ← syscall .unlink
      return ()

section

variable (errnoText : PathErrno → Bytes) (path : Bytes)

/-- `ServerError(std::format("… '{}' …", path, …))` -/
def throwUnix {α : Type} (before after : Bytes) : ExceptT ServerError Sys α :=
  throw ⟨before ++ ascii " '" ++ path ++ ascii "'" ++ after⟩

/-- The rest of `remove_stale_unix_socket`, once nobody answered the probe. -/
def unlinkStaleUnixSocket (expected : UnixSocketIdentity) : ExceptT ServerError Sys Unit := do
  match ← syscall .lstat with
  | .error errno =>
    if errno = .enoent then return ()
    else throwUnix path (ascii "rechecking unix socket") (ascii " failed: " ++ errnoText errno)
  | .ok after =>
    if !sameUnixSocket after expected then
      throwUnix path (ascii "unix socket") (ascii " changed while it was being probed")
    else
      match ← syscall .unlink with
      | .error errno =>
        if errno = .enoent then return ()
        else throwUnix path (ascii "removing stale socket") (ascii " failed: " ++ errnoText errno)
      | .ok () => return ()

/-- The probe of `remove_stale_unix_socket`. -/
def probeUnixSocket (before : FileStatus) (probe : Fd) : ExceptT ServerError Sys Unit := do
  match ← syscall (.connect probe) with
  | .ok () => throwUnix path (ascii "unix socket") (ascii " already has a live listener")
  | .error connectError =>
    if connectError = .enoent then return ()
    else if connectError ≠ .econnrefused then
      throwUnix path (ascii "unix socket")
        (ascii " may still be active: " ++ errnoText connectError)
    else unlinkStaleUnixSocket errnoText path (unixSocketIdentity before)

/-- `remove_stale_unix_socket` -/
def removeStaleUnixSocket : ExceptT ServerError Sys Unit := do
  match ← syscall .lstat with
  | .error errno =>
    if errno = .enoent then return ()
    else throwUnix path (ascii "inspecting unix socket") (ascii " failed: " ++ errnoText errno)
  | .ok before =>
    if !before.isSocket then
      throwUnix path (ascii "unix socket path") (ascii " already exists and is not a socket")
    else
      match ← syscall .socket with
      | .error errno =>
        throwUnix path (ascii "probing unix socket") (ascii " failed: " ++ errnoText errno)
      | .ok probe => closing probe (probeUnixSocket errnoText path before probe)

/-- `bind_unix_listener`, up to the `bind` that succeeds. -/
def bindUnixPath (listener : Fd) : ExceptT ServerError Sys Unit := do
  match ← syscall (.bind listener) with
  | .ok () => return ()
  | .error bindError =>
    if bindError ≠ .eaddrinuse then
      throwUnix path (ascii "bind") (ascii " failed: " ++ errnoText bindError)
    else
      removeStaleUnixSocket errnoText path
      match ← syscall (.bind listener) with
      | .ok () => return ()
      | .error errno =>
        throwUnix path (ascii "bind")
          (ascii " after stale cleanup failed: " ++ errnoText errno)

/-- `bind_unix_listener`, once the socket is bound. -/
def publishUnixListener (backlog : Int32) (listener : Fd) :
    ExceptT ServerError Sys BoundUnixListener := do
  match ← syscall .lstat with
  | .error inspectError =>
    throwUnix path (ascii "inspecting bound unix socket")
      (ascii " failed: " ++ errnoText inspectError)
  | .ok boundStatus =>
    if !boundStatus.isSocket then
      throwUnix path (ascii "bound unix socket") (ascii " was replaced before it could listen")
    else
      let identity := unixSocketIdentity boundStatus
      match ← syscall (.chmod kUnixSocketMode) with
      | .error chmodError =>
        unlinkOwnedUnixSocket identity
        throwUnix path (ascii "chmod") (ascii " failed: " ++ errnoText chmodError)
      | .ok () =>
        match ← syscall (.listen listener backlog) with
        | .error listenError =>
          unlinkOwnedUnixSocket identity
          throwUnix path (ascii "listen on") (ascii " failed: " ++ errnoText listenError)
        | .ok () => return ⟨listener, identity⟩

/-- `bind_unix_listener` -/
def bindUnixListener (backlog : Int32) : ExceptT ServerError Sys BoundUnixListener := do
  if path.isEmpty || kSunPathBytes ≤ path.length || path.contains 0 then
    throwUnix path (ascii "unix socket path")
      (ascii " must be 1.." ++ toChars (kSunPathBytes - 1) ++ ascii " characters")
  else
    match ← syscall .socket with
    | .error errno =>
      throwUnix path (ascii "socket(AF_UNIX) for") (ascii " failed: " ++ errnoText errno)
    | .ok listener =>
      closingOnThrow listener do
        bindUnixPath errnoText path listener
        publishUnixListener errnoText path backlog listener

end

/-- The members of `ListenerState` that a Unix listener uses. -/
structure ListenerState where
  config : Listener
  /-- The node that was made for the listener. -/
  unixSocketIdentity : Option UnixSocketIdentity := none
  sockets : List Fd := []

namespace ListenerState

/-- `release_unix_path` -/
def releaseUnixPath (state : ListenerState) : Sys ListenerState := do
  match state.unixSocketIdentity with
  | none => return state
  | some identity =>
    if state.config.unixSocketPath.isEmpty then return state
    else
      unlinkOwnedUnixSocket identity
      return { state with unixSocketIdentity := none }

/-- The sockets go with their vector. -/
def closeAll : List Fd → Sys Unit
  | [] => return ()
  | fd :: fds => do
    syscall (.close fd)
    closeAll fds

/-- `~ListenerState` -/
def destroy (state : ListenerState) : Sys Unit := do
  let state ← state.releaseUnixPath
  closeAll state.sockets

/-- What `Server::wait` does with a listener: the pathname is released, then the list cleared. -/
def retire (state : ListenerState) : Sys Unit := do
  let state ← state.releaseUnixPath
  state.destroy

end ListenerState

/-! ### Any answers of the kernel -/

namespace UnixTrace

/-- The calls made so far, with what they answered. -/
abbrev Trace := List (Sigma Syscall.Answer)

/-- The call was made, and was answered so. -/
def Answered (trace : Trace) (call : Syscall) (answer : call.Answer) (trace' : Trace) : Prop :=
  trace' = trace ++ [⟨call, answer⟩]

/-- A connection to the pathname was just refused, after it had shown this socket. -/
def Probed (identity : UnixSocketIdentity) (trace : Trace) : Prop :=
  ∃ before status between fd, sameUnixSocket status identity = true ∧
    trace = before ++ [⟨.lstat, .ok status⟩] ++ between ++ [⟨.connect fd, .error .econnrefused⟩]

/-- The pathname showed this socket right after a successful `bind`. -/
def Bound (identity : UnixSocketIdentity) (trace : Trace) : Prop :=
  ∃ before fd status, sameUnixSocket status identity = true ∧
    trace = before ++ [⟨.bind fd, .ok ()⟩] ++ [⟨.lstat, .ok status⟩]

/-- The identity comes from a probe of a stale socket, or from the own `bind`. -/
def Known (identity : UnixSocketIdentity) (trace : Trace) : Prop :=
  ∃ earlier later, trace = earlier ++ later ∧ (Probed identity earlier ∨ Bound identity earlier)

/-- Before every `unlink`, an `lstat` showed a socket that is known. -/
def Guarded (trace : Trace) : Prop :=
  ∀ before answer after, trace = before ++ ⟨.unlink, answer⟩ :: after →
    ∃ identity earlier status, before = earlier ++ [⟨.lstat, .ok status⟩] ∧
      sameUnixSocket status identity = true ∧ Known identity earlier

/-- The descriptors that are open. -/
def openFds (trace : Trace) : List Fd :=
  trace.foldl (fun fds event =>
    match event with
    | ⟨.socket, .ok fd⟩ => fd :: fds
    | ⟨.close fd, _⟩ => fds.erase fd
    | _ => fds) []

/-- A program alone with its trace. -/
abbrev Keeps {α : Type} (post : α → Trace → Prop) (program : Sys α) (trace : Trace) : Prop :=
  program.Meets Answered (fun _ _ => False) (fun _ trace => Guarded trace) post trace

variable {α : Type} {post : α → Trace → Prop} {trace : Trace} {identity : UnixSocketIdentity}

theorem keeps_done {result : α} (h : post result trace) : Keeps post (.done result) trace :=
  Program.meets_done (fun _ _ _ hrely => hrely.elim) h

theorem keeps_call {call : Syscall} {next : call.Answer → Sys α}
    (h : ∀ answer, Guarded (trace ++ [⟨call, answer⟩]) ∧
      Keeps post (next answer) (trace ++ [⟨call, answer⟩])) :
    Keeps post (.call call next) trace := by
  refine Program.meets_call (· = trace) (fun _ _ _ hrely => hrely.elim) rfl ?_
  rintro _ rfl answer _ rfl
  exact h answer

/-- The one call that removes something. -/
def isUnlink : Syscall → Bool
  | .unlink => true
  | _ => false

/-- Whether a descriptor was opened or closed. -/
def changesFds : Sigma Syscall.Answer → Bool
  | ⟨.socket, .ok _⟩ | ⟨.close _, _⟩ => true
  | _ => false

/-- The last call is the guarded one. -/
theorem guarded_concat {event : Sigma Syscall.Answer} (h : Guarded trace)
    (hlast : ∀ answer, event = ⟨.unlink, answer⟩ → ∃ identity earlier status,
      trace = earlier ++ [⟨.lstat, .ok status⟩] ∧ sameUnixSocket status identity = true ∧
        Known identity earlier) :
    Guarded (trace ++ [event]) := by
  intro before answer after heq
  obtain rfl | ⟨after, last, rfl⟩ := List.eq_nil_or_concat after
  · obtain ⟨rfl, hevent⟩ := List.append_inj' heq rfl
    exact hlast answer (List.singleton_inj.1 hevent)
  · rw [List.concat_eq_append, ← List.cons_append, ← List.append_assoc] at heq
    exact h before answer after (List.append_inj' heq rfl).1

theorem Guarded.append {call : Syscall} {answer : call.Answer} (h : Guarded trace)
    (hcall : isUnlink call = false) : Guarded (trace ++ [⟨call, answer⟩]) := by
  refine guarded_concat h fun unlinked hevent => ?_
  cases hevent
  cases hcall

theorem Guarded.unlink {status : FileStatus} {answer : Syscall.Answer .unlink}
    (h : Guarded trace) (hknown : Known identity trace)
    (hsame : sameUnixSocket status identity = true) :
    Guarded (trace ++ [⟨.lstat, .ok status⟩] ++ [⟨.unlink, answer⟩]) :=
  guarded_concat (h.append rfl) fun _ _ => ⟨identity, trace, status, rfl, hsame, hknown⟩

theorem Known.append (h : Known identity trace) (events : Trace) :
    Known identity (trace ++ events) := by
  obtain ⟨earlier, later, rfl, hknown⟩ := h
  exact ⟨earlier, later ++ events, List.append_assoc _ _ _, hknown⟩

theorem Probed.known (h : Probed identity trace) : Known identity trace :=
  ⟨trace, [], (List.append_nil _).symm, .inl h⟩

theorem Bound.known (h : Bound identity trace) : Known identity trace :=
  ⟨trace, [], (List.append_nil _).symm, .inr h⟩

theorem openFds_concat (event : Sigma Syscall.Answer) :
    openFds (trace ++ [event]) =
      match event with
      | ⟨.socket, .ok fd⟩ => fd :: openFds trace
      | ⟨.close fd, _⟩ => (openFds trace).erase fd
      | _ => openFds trace := by
  rw [openFds, List.foldl_append]
  rfl

theorem openFds_close {fd : Fd} {fds : List Fd} {answer : Syscall.Answer (.close fd)}
    (h : openFds trace = fd :: fds) : openFds (trace ++ [⟨.close fd, answer⟩]) = fds := by
  rw [openFds_concat, h]
  exact List.erase_cons_head ..

theorem openFds_same {event : Sigma Syscall.Answer} (hevent : changesFds event = false) :
    openFds (trace ++ [event]) = openFds trace := by
  obtain ⟨call, answer⟩ := event
  rw [openFds_concat]
  cases call with
  | socket =>
    cases answer with
    | ok => cases hevent
    | error => rfl
  | close => cases hevent
  | _ => rfl

/-- What a part of a program leaves behind; `yields` is about its result. -/
structure Settled {β : Type} (path : Bytes) (fds : List Fd) (yields : β → Trace → Prop)
    (result : Except ServerError β) (trace : Trace) : Prop where
  /-- No node is unlinked that is not known to be its own. -/
  guarded : Guarded trace
  /-- The descriptors that are left open. -/
  fds : openFds trace = fds
  yields : ∀ value, result = .ok value → yields value trace
  /-- Every error names the path. -/
  named : ∀ error, result = .error error → path <:+: error.message

variable {β γ : Type} {errnoText : PathErrno → Bytes} {path : Bytes} {fds : List Fd}
  {yields : β → Trace → Prop}

theorem settled_ok {value : β} (hguarded : Guarded trace) (hfds : openFds trace = fds)
    (hyields : yields value trace) : Settled path fds yields (.ok value) trace :=
  ⟨hguarded, hfds, fun _ hok => (by cases hok; exact hyields), fun _ herror => by cases herror⟩

theorem settled_error {error : ServerError} (hguarded : Guarded trace)
    (hfds : openFds trace = fds) (hnamed : path <:+: error.message) :
    Settled path fds yields (.error error) trace :=
  ⟨hguarded, hfds, fun _ hok => (by cases hok), fun _ herror => by cases herror; exact hnamed⟩

theorem settled_throwUnix (before after : Bytes) (hguarded : Guarded trace)
    (hfds : openFds trace = fds) :
    Keeps (Settled path fds yields) (throwUnix path before after).run trace :=
  keeps_done (settled_error hguarded hfds
    ⟨before ++ ascii " '", ascii "'" ++ after, by simp only [List.append_assoc]⟩)

/-- Nothing is said of the result. -/
abbrev Anything : β → Trace → Prop := fun _ _ => True

/-! The programs. -/

theorem keeps_unlinkOwned (hguarded : Guarded trace) (hknown : Known identity trace) :
    Keeps (fun _ trace' => Guarded trace' ∧ openFds trace' = openFds trace)
      (unlinkOwnedUnixSocket identity) trace := by
  refine keeps_call fun answer => ⟨hguarded.append rfl, ?_⟩
  cases answer with
  | error => exact keeps_done ⟨hguarded.append rfl, openFds_same rfl⟩
  | ok current =>
    dsimp only [Program.bind]
    by_cases hsame : sameUnixSocket current identity = true
    · rw [if_neg (by rw [hsame]; decide)]
      refine keeps_call fun answer => ?_
      have hunlinked : Guarded (trace ++ [⟨.lstat, .ok current⟩] ++ [⟨.unlink, answer⟩]) :=
        hguarded.unlink hknown hsame
      refine ⟨hunlinked, keeps_done ⟨hunlinked, ?_⟩⟩
      rw [openFds_same rfl, openFds_same rfl]
    · rw [if_pos (by rw [Bool.eq_false_of_not_eq_true hsame]; rfl)]
      exact keeps_done ⟨hguarded.append rfl, openFds_same rfl⟩

theorem keeps_request {post : Except ServerError β → Trace → Prop} {call : Syscall}
    {next : call.Answer → ExceptT ServerError Sys β}
    (h : ∀ answer, Guarded (trace ++ [⟨call, answer⟩]) ∧
      Keeps post (next answer).run (trace ++ [⟨call, answer⟩])) :
    Keeps post (do next (← syscall call) : ExceptT ServerError Sys β).run trace :=
  keeps_call h

theorem keeps_unlinkStale (hguarded : Guarded trace) (hknown : Known identity trace) :
    Keeps (Settled path (openFds trace) Anything) (unlinkStaleUnixSocket errnoText path identity).run
      trace := by
  refine keeps_request fun answer => ⟨hguarded.append rfl, ?_⟩
  have hlooked : openFds (trace ++ [⟨.lstat, answer⟩]) = openFds trace := openFds_same rfl
  cases answer with
  | error errno =>
    dsimp only
    split_ifs
    · exact keeps_done (settled_ok (hguarded.append rfl) hlooked trivial)
    · exact settled_throwUnix _ _ (hguarded.append rfl) hlooked
  | ok after =>
    dsimp only
    split_ifs with hother
    · exact settled_throwUnix _ _ (hguarded.append rfl) hlooked
    · have hsame : sameUnixSocket after identity = true := by
        rwa [Bool.not_eq_true', Bool.not_eq_false] at hother
      refine keeps_request fun answer => ?_
      have hunlinked : Guarded (trace ++ [⟨.lstat, .ok after⟩] ++ [⟨.unlink, answer⟩]) :=
        hguarded.unlink hknown hsame
      have hfds : openFds (trace ++ [⟨.lstat, .ok after⟩] ++ [⟨.unlink, answer⟩]) =
          openFds trace := (openFds_same rfl).trans hlooked
      refine ⟨hunlinked, ?_⟩
      cases answer with
      | error errno =>
        dsimp only
        split_ifs
        · exact keeps_done (settled_ok hunlinked hfds trivial)
        · exact settled_throwUnix _ _ hunlinked hfds
      | ok => exact keeps_done (settled_ok hunlinked hfds trivial)

/-- The probe, after an `lstat` that showed a socket. -/
theorem keeps_probe {before : FileStatus} {earlier between : Trace} (probe : Fd)
    (hsocket : before.isSocket = true)
    (htrace : trace = earlier ++ [⟨.lstat, .ok before⟩] ++ between) (hguarded : Guarded trace) :
    Keeps (Settled path (openFds trace) Anything) (probeUnixSocket errnoText path before probe).run
      trace := by
  refine keeps_request fun answer => ⟨hguarded.append rfl, ?_⟩
  have hfds : openFds (trace ++ [⟨.connect probe, answer⟩]) = openFds trace := openFds_same rfl
  cases answer with
  | ok => exact settled_throwUnix _ _ (hguarded.append rfl) hfds
  | error errno =>
    dsimp only
    split_ifs with hmissing hrefused
    · exact keeps_done (settled_ok (hguarded.append rfl) hfds trivial)
    · exact settled_throwUnix _ _ (hguarded.append rfl) hfds
    · have hprobed : Probed (unixSocketIdentity before)
          (trace ++ [⟨.connect probe, .error errno⟩]) := by
        refine ⟨earlier, before, between, probe, sameUnixSocket_self hsocket, ?_⟩
        rw [htrace, not_not.1 hrefused]
      rw [← hfds]
      exact keeps_unlinkStale (hguarded.append rfl) hprobed.known

theorem keeps_closing {fd : Fd} {body : ExceptT ServerError Sys β}
    (h : Keeps (Settled path (fd :: fds) Anything) body.run trace) :
    Keeps (Settled path fds Anything) (closing fd body).run trace := by
  refine Program.Meets.bind (h.mono fun result trace' hsettled => ?_)
  refine keeps_call fun answer => ⟨hsettled.guarded.append rfl, keeps_done ?_⟩
  exact ⟨hsettled.guarded.append rfl, openFds_close hsettled.fds, fun _ _ => trivial,
    hsettled.named⟩

theorem keeps_removeStale (hguarded : Guarded trace) :
    Keeps (Settled path (openFds trace) Anything) (removeStaleUnixSocket errnoText path).run trace := by
  refine keeps_request fun answer => ⟨hguarded.append rfl, ?_⟩
  have hlooked : openFds (trace ++ [⟨.lstat, answer⟩]) = openFds trace := openFds_same rfl
  cases answer with
  | error errno =>
    dsimp only
    split_ifs
    · exact keeps_done (settled_ok (hguarded.append rfl) hlooked trivial)
    · exact settled_throwUnix _ _ (hguarded.append rfl) hlooked
  | ok before =>
    dsimp only
    split_ifs with hother
    · exact settled_throwUnix _ _ (hguarded.append rfl) hlooked
    · have hsocket : before.isSocket = true := by
        rwa [Bool.not_eq_true', Bool.not_eq_false] at hother
      have hnext : Guarded (trace ++ [⟨.lstat, .ok before⟩]) := hguarded.append rfl
      refine keeps_request fun answer => ⟨hnext.append rfl, ?_⟩
      cases answer with
      | error => exact settled_throwUnix _ _ (hnext.append rfl) ((openFds_same rfl).trans hlooked)
      | ok probe =>
        have hfds : openFds (trace ++ [⟨.lstat, .ok before⟩] ++ [⟨.socket, .ok probe⟩]) =
            probe :: openFds trace := by
          rw [openFds_concat, hlooked]
        refine keeps_closing ?_
        rw [← hfds]
        exact keeps_probe probe hsocket rfl (hnext.append rfl)

theorem keeps_bind {yields' : γ → Trace → Prop} {first : ExceptT ServerError Sys γ}
    {next : γ → ExceptT ServerError Sys β} (h : Keeps (Settled path fds yields') first.run trace)
    (hok : ∀ value trace', Guarded trace' → openFds trace' = fds → yields' value trace' →
      Keeps (Settled path fds yields) (next value).run trace') :
    Keeps (Settled path fds yields) (first >>= next).run trace := by
  rw [Program.run_bind]
  refine Program.Meets.bind (h.mono fun result trace' hfirst => ?_)
  cases result with
  | ok value => exact hok value trace' hfirst.guarded hfirst.fds (hfirst.yields value rfl)
  | error error =>
    exact keeps_done (settled_error hfirst.guarded hfirst.fds (hfirst.named error rfl))

/-- It ends with the `bind` that succeeds. -/
theorem keeps_bindPath (listener : Fd) (hguarded : Guarded trace) :
    Keeps (Settled path (openFds trace) fun _ trace' =>
        ∃ before, trace' = before ++ [⟨.bind listener, .ok ()⟩])
      (bindUnixPath errnoText path listener).run trace := by
  refine keeps_request fun answer => ⟨hguarded.append rfl, ?_⟩
  have hfds : openFds (trace ++ [⟨.bind listener, answer⟩]) = openFds trace := openFds_same rfl
  cases answer with
  | ok => exact keeps_done (settled_ok (hguarded.append rfl) hfds ⟨trace, rfl⟩)
  | error bindError =>
    dsimp only
    split_ifs
    · exact settled_throwUnix _ _ (hguarded.append rfl) hfds
    · -- something is at the pathname
      rw [← hfds]
      refine keeps_bind (keeps_removeStale (hguarded.append rfl))
        (fun _ trace' hguarded' hfds' _ => ?_)
      refine keeps_request fun answer => ⟨hguarded'.append rfl, ?_⟩
      have hsame : openFds (trace' ++ [⟨.bind listener, answer⟩]) = openFds trace' :=
        openFds_same rfl
      cases answer with
      | ok =>
        exact keeps_done (settled_ok (hguarded'.append rfl) (hsame.trans hfds') ⟨trace', rfl⟩)
      | error errno => exact settled_throwUnix _ _ (hguarded'.append rfl) (hsame.trans hfds')

/-- The way out once the pathname is bound. -/
theorem keeps_unlinkOwned_throw (before after : Bytes) (hguarded : Guarded trace)
    (hknown : Known identity trace) (hfds : openFds trace = fds) :
    Keeps (Settled path fds yields)
      (do unlinkOwnedUnixSocket identity; throwUnix path before after :
        ExceptT ServerError Sys β).run trace := by
  have hunlinks : Keeps (Settled path fds Anything)
      (liftM (unlinkOwnedUnixSocket identity) : ExceptT ServerError Sys Unit).run trace :=
    Program.Meets.bind ((keeps_unlinkOwned hguarded hknown).mono fun _ trace' hafter =>
      keeps_done (settled_ok hafter.1 (hafter.2.trans hfds) trivial))
  exact keeps_bind hunlinks fun _ trace' hguarded' hfds' _ =>
    settled_throwUnix _ _ hguarded' hfds'

theorem keeps_publish (backlog : Int32) (listener : Fd) {before : Trace}
    (htrace : trace = before ++ [⟨.bind listener, .ok ()⟩]) (hguarded : Guarded trace) :
    Keeps (Settled path (openFds trace) fun bound trace' =>
        bound.fd = listener ∧ Known bound.identity trace')
      (publishUnixListener errnoText path backlog listener).run trace := by
  refine keeps_request fun answer => ⟨hguarded.append rfl, ?_⟩
  have hlooked : openFds (trace ++ [⟨.lstat, answer⟩]) = openFds trace := openFds_same rfl
  cases answer with
  | error => exact settled_throwUnix _ _ (hguarded.append rfl) hlooked
  | ok boundStatus =>
    dsimp only
    split_ifs with hother
    · exact settled_throwUnix _ _ (hguarded.append rfl) hlooked
    · have hknown : Known (unixSocketIdentity boundStatus)
          (trace ++ [⟨.lstat, .ok boundStatus⟩]) := by
        rw [Bool.not_eq_true', Bool.not_eq_false] at hother
        exact Bound.known
          ⟨before, listener, boundStatus, sameUnixSocket_self hother, by rw [htrace]⟩
      have hnext : Guarded (trace ++ [⟨.lstat, .ok boundStatus⟩]) := hguarded.append rfl
      refine keeps_request fun answer => ⟨hnext.append rfl, ?_⟩
      have hmode : openFds (trace ++ [⟨.lstat, .ok boundStatus⟩] ++
          [⟨.chmod kUnixSocketMode, answer⟩]) = openFds trace := (openFds_same rfl).trans hlooked
      cases answer with
      | error =>
        exact keeps_unlinkOwned_throw _ _ (hnext.append rfl) (hknown.append _) hmode
      | ok =>
        have hlisten : Guarded (trace ++ [⟨.lstat, .ok boundStatus⟩] ++
            [⟨.chmod kUnixSocketMode, .ok ()⟩]) := hnext.append rfl
        refine keeps_request fun answer => ⟨hlisten.append rfl, ?_⟩
        have hfds : openFds (trace ++ [⟨.lstat, .ok boundStatus⟩] ++
            [⟨.chmod kUnixSocketMode, .ok ()⟩] ++ [⟨.listen listener backlog, answer⟩]) =
              openFds trace := (openFds_same rfl).trans hmode
        cases answer with
        | error =>
          exact keeps_unlinkOwned_throw _ _ (hlisten.append rfl)
            ((hknown.append _).append _) hfds
        | ok =>
          exact keeps_done
            (settled_ok (hlisten.append rfl) hfds ⟨rfl, (hknown.append _).append _⟩)

/-- What `bind_unix_listener` leaves behind. -/
def Started (path : Bytes) (fds : List Fd) (result : Except ServerError BoundUnixListener)
    (trace : Trace) : Prop :=
  Guarded trace ∧
    match result with
    | .ok bound => openFds trace = bound.fd :: fds ∧ Known bound.identity trace
    | .error error => openFds trace = fds ∧ path <:+: error.message

theorem keeps_bindUnixListener (backlog : Int32) (hguarded : Guarded trace) :
    Keeps (Started path (openFds trace)) (bindUnixListener errnoText path backlog).run trace := by
  have hthrow : ∀ before after trace', Guarded trace' → openFds trace' = openFds trace →
      Keeps (Started path (openFds trace)) (throwUnix path before after).run trace' := by
    intro before after trace' hguarded' hfds
    exact keeps_done ⟨hguarded', hfds, before ++ ascii " '", ascii "'" ++ after,
      by simp only [List.append_assoc]⟩
  unfold bindUnixListener
  split_ifs
  · exact hthrow _ _ trace hguarded rfl
  · refine keeps_request fun answer => ⟨hguarded.append rfl, ?_⟩
    cases answer with
    | error => exact hthrow _ _ _ (hguarded.append rfl) (openFds_same rfl)
    | ok listener =>
      have hopen : openFds (trace ++ [⟨.socket, .ok listener⟩]) = listener :: openFds trace :=
        openFds_concat _
      have hbody : Keeps (Settled path (openFds (trace ++ [⟨.socket, .ok listener⟩]))
          fun bound trace' => bound.fd = listener ∧ Known bound.identity trace')
          (do bindUnixPath errnoText path listener
              publishUnixListener errnoText path backlog listener :
            ExceptT ServerError Sys BoundUnixListener).run
          (trace ++ [⟨.socket, .ok listener⟩]) := by
        refine keeps_bind (keeps_bindPath listener (hguarded.append rfl)) ?_
        rintro _ trace' hguarded' hfds' ⟨before, hbound⟩
        rw [← hfds']
        exact keeps_publish backlog listener hbound hguarded'
      refine Program.Meets.bind (hbody.mono fun result trace' hsettled => ?_)
      obtain ⟨hguarded', hfds', hyields, hnamed⟩ := hsettled
      rw [hopen] at hfds'
      cases result with
      | ok bound =>
        obtain ⟨rfl, hknown⟩ := hyields bound rfl
        exact keeps_done ⟨hguarded', hfds', hknown⟩
      | error error =>
        refine keeps_call fun answer => ⟨hguarded'.append rfl, keeps_done ?_⟩
        exact ⟨hguarded'.append rfl, openFds_close hfds', hnamed error rfl⟩

/-! The state of the listener. -/

theorem keeps_releaseUnixPath (state : ListenerState) (hguarded : Guarded trace)
    (hknown : ∀ identity, state.unixSocketIdentity = some identity → Known identity trace) :
    Keeps (fun state' trace' => Guarded trace' ∧ openFds trace' = openFds trace ∧
        state'.sockets = state.sockets ∧
        ∀ identity, state'.unixSocketIdentity = some identity → Known identity trace')
      state.releaseUnixPath trace := by
  unfold ListenerState.releaseUnixPath
  cases hidentity : state.unixSocketIdentity with
  | none => exact keeps_done ⟨hguarded, rfl, rfl, hknown⟩
  | some identity =>
    dsimp only
    split_ifs
    · exact keeps_done ⟨hguarded, rfl, rfl, hknown⟩
    · refine Program.Meets.bind ((keeps_unlinkOwned hguarded (hknown identity hidentity)).mono
        fun _ trace' hafter => keeps_done ?_)
      exact ⟨hafter.1, hafter.2, rfl, fun _ hsome => by cases hsome⟩

theorem keeps_closeAll (hguarded : Guarded trace) (hfds : openFds trace = fds) :
    Keeps (fun _ trace' => Guarded trace' ∧ openFds trace' = []) (ListenerState.closeAll fds)
      trace := by
  induction fds generalizing trace with
  | nil => exact keeps_done ⟨hguarded, hfds⟩
  | cons fd fds ih =>
    exact keeps_call fun answer =>
      ⟨hguarded.append rfl, ih (hguarded.append rfl) (openFds_close hfds)⟩

theorem keeps_destroy (state : ListenerState) (hguarded : Guarded trace)
    (hknown : ∀ identity, state.unixSocketIdentity = some identity → Known identity trace)
    (hfds : openFds trace = state.sockets) :
    Keeps (fun _ trace' => Guarded trace' ∧ openFds trace' = []) state.destroy trace := by
  refine Program.Meets.bind ((keeps_releaseUnixPath state hguarded hknown).mono ?_)
  rintro state' trace' ⟨hguarded', hfds', hsockets, -⟩
  exact keeps_closeAll hguarded' (by rw [hfds', hfds, hsockets])

theorem keeps_retire (state : ListenerState) (hguarded : Guarded trace)
    (hknown : ∀ identity, state.unixSocketIdentity = some identity → Known identity trace)
    (hfds : openFds trace = state.sockets) :
    Keeps (fun _ trace' => Guarded trace' ∧ openFds trace' = []) state.retire trace := by
  refine Program.Meets.bind ((keeps_releaseUnixPath state hguarded hknown).mono ?_)
  rintro state' trace' ⟨hguarded', hfds', hsockets, hknown'⟩
  exact keeps_destroy state' hguarded' hknown' (by rw [hfds', hfds, hsockets])

end UnixTrace

/-- A Unix listener from `Server::start` to its end: by `Server::wait`, or because another listener
could not start. -/
def unixListenerLife (errnoText : PathErrno → Bytes) (config : Listener) (backlog : Int32)
    (stopped : Bool) : Sys (Except ServerError Unit) := do
  match ← (bindUnixListener errnoText config.unixSocketPath backlog).run with
  | .error error => return .error error
  | .ok bound =>
    let state : ListenerState :=
      { config, unixSocketIdentity := some bound.identity, sockets := [bound.fd] }
    if stopped then state.retire else state.destroy
    return .ok ()

open UnixTrace in
/-- Whatever the kernel answers, and wherever the process dies: what is unlinked has just been seen
to be a socket that is known.  In the end everything is closed, and an error names the path. -/
theorem unix_listener_calls {errnoText : PathErrno → Bytes} {config : Listener} {backlog : Int32}
    {stopped : Bool} {program : Sys (Except ServerError Unit)} {trace : Trace}
    (h : Program.Run Answered (unixListenerLife errnoText config backlog stopped) [] program
      trace) :
    Guarded trace ∧ ∀ result, program = .done result → openFds trace = [] ∧
      ∀ error, result = .error error → config.unixSocketPath <:+: error.message := by
  have hnothing : Guarded [] := by
    intro before answer after heq
    cases List.append_eq_nil_iff.1 heq.symm |>.2
  have hlife : Keeps (fun result trace => openFds trace = [] ∧
      ∀ error, result = .error error → config.unixSocketPath <:+: error.message)
      (unixListenerLife errnoText config backlog stopped) [] := by
    refine Program.Meets.bind ((keeps_bindUnixListener backlog hnothing).mono ?_)
    rintro result trace ⟨hguarded, hstarted⟩
    cases result with
    | error error => exact keeps_done ⟨hstarted.1, fun _ herror => by cases herror; exact hstarted.2⟩
    | ok bound =>
      have hknown : ∀ identity, some bound.identity = some identity → Known identity trace :=
        fun _ hsome => Option.some.inj hsome ▸ hstarted.2
      cases stopped with
      | true =>
        refine Program.Meets.bind ((keeps_retire _ hguarded hknown hstarted.1).mono ?_)
        exact fun _ _ hafter => keeps_done ⟨hafter.2, fun _ herror => by cases herror⟩
      | false =>
        refine Program.Meets.bind ((keeps_destroy _ hguarded hknown hstarted.1).mono ?_)
        exact fun _ _ hafter => keeps_done ⟨hafter.2, fun _ herror => by cases herror⟩
  refine ⟨hlife.invariant h hnothing fun _ _ _ hguarded => hguarded, ?_⟩
  rintro result rfl
  exact (hlife.of_run h).of_done

open UnixTrace in
/-- The socket of a dead process is at the path. -/
theorem unix_listener_calls_stale :
    ∃ trace, Program.Run Answered
        (unixListenerLife (fun _ => []) { unixSocketPath := ascii "/run/http.sock" } 128 true) []
        (.done (.ok ())) trace ∧
      (trace.map Sigma.fst).count .unlink = 2 ∧ Guarded trace ∧ openFds trace = [] := by
  have hrun : Program.Run Answered
      (unixListenerLife (fun _ => []) { unixSocketPath := ascii "/run/http.sock" } 128 true) []
      (.done (.ok ())) _ :=
    .call (show Answered _ .socket (.ok 3) _ from rfl) <|
    .call (show Answered _ (.bind 3) (.error .eaddrinuse) _ from rfl) <|
    .call (show Answered _ .lstat (.ok ⟨true, 1, 7⟩) _ from rfl) <|
    .call (show Answered _ .socket (.ok 4) _ from rfl) <|
    .call (show Answered _ (.connect 4) (.error .econnrefused) _ from rfl) <|
    .call (show Answered _ .lstat (.ok ⟨true, 1, 7⟩) _ from rfl) <|
    .call (show Answered _ .unlink (.ok ()) _ from rfl) <|
    .call (show Answered _ (.close 4) () _ from rfl) <|
    .call (show Answered _ (.bind 3) (.ok ()) _ from rfl) <|
    .call (show Answered _ .lstat (.ok ⟨true, 1, 8⟩) _ from rfl) <|
    .call (show Answered _ (.chmod kUnixSocketMode) (.ok ()) _ from rfl) <|
    .call (show Answered _ (.listen 3 128) (.ok ()) _ from rfl) <|
    .call (show Answered _ .lstat (.ok ⟨true, 1, 8⟩) _ from rfl) <|
    .call (show Answered _ .unlink (.ok ()) _ from rfl) <|
    .call (show Answered _ (.close 3) () _ from rfl) <|
    .nil _ _
  obtain ⟨hguarded, hdone⟩ := unix_listener_calls hrun
  exact ⟨_, hrun, by decide, hguarded, (hdone _ rfl).1⟩

end ErikslundHttp
