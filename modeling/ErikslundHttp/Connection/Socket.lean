import ErikslundHttp.Connection.Output

/-!
# Plain sockets

`write_vectors` (`socket.cpp`) and `PlainTransport` (`plain_transport.cpp`) over a kernel that
answers each call of `recv` and `writev` as it likes.  A socket holds the answers to come, so a
result for every socket is a result for every sequence of answers; when none are left, a call would
block.

The socket also keeps the bytes that the kernel has accepted.

* `writeVectors_sends`: `write_vectors` resumes over batches of eight vectors.
* `exactly_once_output`: the connection resumes over calls of `write_vectors`, and together they send
  every byte once and in order.
-/

namespace ErikslundHttp

/-- The errors of a socket that the code tells apart. -/
inductive Errno where
  | eintr
  | eagain
  | enotconn
  | other
  deriving DecidableEq, Repr

/-- `errno_means_would_block`. -/
def errnoMeansWouldBlock (errno : Errno) : Bool := errno == .eagain

/-- The answers of the kernel to come, and the bytes it has accepted.  A call of `recv` answers
bytes, none at the end of the stream; a call of `writev` takes at most so many bytes. -/
structure Socket where
  /-- The answers to the calls of `recv`, in order. -/
  recvs : List (Except Errno Bytes)
  /-- The answers to the calls of `writev`, in order. -/
  writes : List (Except Errno ℕ)
  shutdown : Option Errno := none
  /-- What the kernel took so far. -/
  accepted : Bytes := []
  deriving DecidableEq

/-- So many vectors go to the kernel at once. -/
def kWriteBatchCapacity : ℕ := 8

/-- The batch of `write_vectors`: `room` pieces of the vectors, without the bytes written. -/
def writeBatch : ℕ → ℕ → List Bytes → List Bytes
  | _, _, [] => []
  | room, skipped, entry :: entries =>
    if entry.length ≤ skipped then writeBatch room (skipped - entry.length) entries
    else
      match room with
      | 0 => []
      | room + 1 => entry.drop skipped :: writeBatch room 0 entries

/-- The loop of `write_vectors`, which has written `total` bytes; every round takes an answer of the
kernel.  A failure after some progress is reported as progress. -/
def Socket.writeVectors (vectors : List Bytes) (total : ℕ) (accepted : Bytes)
    (writes : List (Except Errno ℕ)) : Except Errno ℕ × List (Except Errno ℕ) × Bytes :=
  let batch := writeBatch kWriteBatchCapacity total vectors
  if batch.isEmpty then (.ok total, writes, accepted)
  else
    match writes with
    | [] => (if 0 < total then .ok total else .error .eagain, [], accepted)
    | .error errno :: writes =>
      if errno = .eintr then Socket.writeVectors vectors total accepted writes
      else (if 0 < total then .ok total else .error errno, writes, accepted)
    | .ok count :: writes =>
      let written := batch.flatten.take count
      if written.length < batch.flatten.length then
        (.ok (total + written.length), writes, accepted ++ written)
      else Socket.writeVectors vectors (total + written.length) (accepted ++ written) writes

/-! ### The transport -/

namespace PlainTransport

/-- The loop of `PlainTransport::read`. -/
def recv (capacity : ℕ) : List (Except Errno Bytes) →
    TransportStatus × Bytes × List (Except Errno Bytes)
  | [] => (.wantRead, [], [])
  | .error errno :: recvs =>
    if errno = .eintr then recv capacity recvs
    else (if errnoMeansWouldBlock errno then .wantRead else .error, [], recvs)
  | .ok bytes :: recvs =>
    if bytes.isEmpty then (.closed, [], recvs)
    else (.ok, bytes.take capacity,
      if bytes.length ≤ capacity then recvs else .ok (bytes.drop capacity) :: recvs)

/-- `PlainTransport::read`. -/
def read (socket : Socket) (capacity : ℕ) : TransportStatus × Bytes × Socket :=
  if capacity = 0 then (.ok, [], socket)
  else
    match recv capacity socket.recvs with
    | (status, bytes, recvs) => (status, bytes, { socket with recvs := recvs })

/-- `PlainTransport::writev`. -/
def writev (socket : Socket) (vectors : List Bytes) : TransportStatus × ℕ × Socket :=
  if vectors.isEmpty then (.ok, 0, socket)
  else
    match Socket.writeVectors vectors 0 socket.accepted socket.writes with
    | (.ok sent, writes, accepted) =>
      (.ok, sent, { socket with writes := writes, accepted := accepted })
    | (.error errno, writes, accepted) =>
      (if errnoMeansWouldBlock errno then .wantWrite else .error, 0,
        { socket with writes := writes, accepted := accepted })

/-- `PlainTransport::shutdown`. -/
def shutdown (socket : Socket) : TransportStatus × Socket :=
  match socket.shutdown with
  | none => (.ok, socket)
  | some errno =>
    (if errno = .enotconn then .ok
      else if errnoMeansWouldBlock errno then .wantWrite else .error, socket)

end PlainTransport

/-! ### What `write_vectors` sends -/

theorem writeBatch_eq (room skipped : ℕ) (vectors : List Bytes) :
    writeBatch room skipped vectors = (Connection.batchFrom skipped vectors).take room := by
  induction vectors generalizing room skipped with
  | nil => simp [writeBatch, Connection.batchFrom]
  | cons entry entries ih =>
    rw [writeBatch.eq_def, Connection.batchFrom]
    dsimp only
    split_ifs with h
    · exact ih room (skipped - entry.length)
    · cases room with
      | zero => rfl
      | succ room =>
        rw [List.take_succ_cons]
        exact congrArg _ (ih room 0)

/-- A batch starts where the last one ended. -/
theorem flatten_writeBatch (room skipped : ℕ) (vectors : List Bytes) :
    (writeBatch room skipped vectors).flatten <+: vectors.flatten.drop skipped := by
  rw [writeBatch_eq, ← Connection.flatten_batchFrom]
  exact (List.take_prefix _ _).flatten

/-- `write_vectors` sends the vectors from byte `total` on, and says how many bytes were sent; it
fails only if there were none. -/
structure WritesFrom (vectors : List Bytes) (total : ℕ) (accepted : Bytes)
    (outcome : Except Errno ℕ × List (Except Errno ℕ) × Bytes) (more : Bytes) : Prop where
  /-- The kernel took `more`. -/
  accepted : outcome.2.2 = accepted ++ more
  /-- They are the bytes that come next. -/
  next : more <+: vectors.flatten.drop total
  /-- The count is exact, or the call failed with nothing sent. -/
  answer : outcome.1 = .ok (total + more.length) ∨
    total + more.length = 0 ∧ ∃ errno, outcome.1 = .error errno

theorem writeVectors_spec (vectors : List Bytes) (total : ℕ) (accepted : Bytes)
    (writes : List (Except Errno ℕ)) :
    ∃ more, WritesFrom vectors total accepted
      (Socket.writeVectors vectors total accepted writes) more := by
  -- a call that gives up after `total` bytes
  have hgiveUp : ∀ (total : ℕ) (accepted : Bytes) (errno : Errno) (rest : List (Except Errno ℕ)),
      WritesFrom vectors total accepted
        (if 0 < total then .ok total else .error errno, rest, accepted) [] := by
    intro total accepted errno rest
    refine ⟨(List.append_nil _).symm, List.nil_prefix, ?_⟩
    split_ifs with h
    · exact .inl rfl
    · exact .inr ⟨Nat.eq_zero_of_not_pos h, errno, rfl⟩
  induction writes generalizing total accepted with
  | nil =>
    rw [Socket.writeVectors.eq_def]
    dsimp only
    by_cases hbatch : (writeBatch kWriteBatchCapacity total vectors).isEmpty = true
    · rw [if_pos hbatch]
      exact ⟨[], (List.append_nil _).symm, List.nil_prefix, .inl rfl⟩
    · rw [if_neg hbatch]
      exact ⟨[], hgiveUp total accepted .eagain []⟩
  | cons answer writes ih =>
    rw [Socket.writeVectors.eq_def]
    dsimp only
    by_cases hbatch : (writeBatch kWriteBatchCapacity total vectors).isEmpty = true
    · rw [if_pos hbatch]
      exact ⟨[], (List.append_nil _).symm, List.nil_prefix, .inl rfl⟩
    rw [if_neg hbatch]
    cases answer with
    | error errno =>
      by_cases hintr : errno = .eintr
      · dsimp only
        rw [if_pos hintr]
        exact ih total accepted
      · dsimp only
        rw [if_neg hintr]
        exact ⟨[], hgiveUp total accepted errno writes⟩
    | ok count =>
      dsimp only
      have hnext := (List.take_prefix count _).trans
        (flatten_writeBatch kWriteBatchCapacity total vectors)
      generalize (writeBatch kWriteBatchCapacity total vectors).flatten.take count = written
        at hnext ⊢
      split_ifs
      · exact ⟨written, rfl, hnext, .inl rfl⟩
      · -- the whole batch was written, and the next one follows it
        obtain ⟨more, hmore⟩ := ih (total + written.length) (accepted ++ written)
        obtain ⟨rest, hrest⟩ := hnext
        have hdrop : vectors.flatten.drop (total + written.length) = rest := by
          rw [← List.drop_drop, ← hrest, List.drop_left]
        refine ⟨written ++ more, ?_, ?_, ?_⟩
        · rw [hmore.accepted, List.append_assoc]
        · rw [← hrest, List.prefix_append_right_inj, ← hdrop]
          exact hmore.next
        · rw [List.length_append, ← Nat.add_assoc]
          exact hmore.answer

/-- All of `write_vectors`. -/
theorem writeVectors_sends (vectors : List Bytes) (accepted : Bytes)
    (writes : List (Except Errno ℕ)) : ∃ more, more <+: vectors.flatten ∧
      (Socket.writeVectors vectors 0 accepted writes).2.2 = accepted ++ more ∧
      ((Socket.writeVectors vectors 0 accepted writes).1 = .ok more.length ∨
        more = [] ∧ ∃ errno, (Socket.writeVectors vectors 0 accepted writes).1 = .error errno) := by
  obtain ⟨more, haccepted, hnext, hanswer⟩ := writeVectors_spec vectors 0 accepted writes
  rw [List.drop_zero] at hnext
  simp only [Nat.zero_add, List.length_eq_zero_iff] at hanswer
  exact ⟨more, hnext, haccepted, hanswer⟩

/-! ### The transport of a plain socket -/

namespace PlainTransport

theorem recv_le (capacity : ℕ) (recvs : List (Except Errno Bytes)) :
    (recv capacity recvs).2.1.length ≤ capacity := by
  induction recvs with
  | nil => exact Nat.zero_le _
  | cons answer recvs ih =>
    cases answer with
    | error errno =>
      rw [recv]
      split_ifs
      · exact ih
      · exact Nat.zero_le _
      · exact Nat.zero_le _
    | ok bytes =>
      rw [recv]
      split_ifs
      · exact Nat.zero_le _
      · exact List.length_take_le _ _
      · exact List.length_take_le _ _

theorem read_le (socket : Socket) (capacity : ℕ) :
    (read socket capacity).2.1.length ≤ capacity := by
  rw [read]
  split_ifs
  · exact Nat.zero_le _
  · exact recv_le capacity socket.recvs

/-- A write sends the bytes it counts. -/
theorem writev_sends (socket : Socket) (vectors : List Bytes) : ∃ more, more <+: vectors.flatten ∧
    (writev socket vectors).2.2.accepted = socket.accepted ++ more ∧
    (writev socket vectors).2.1 = more.length ∧ ((writev socket vectors).1 ≠ .ok → more = []) := by
  rw [writev]
  split_ifs
  · exact ⟨[], List.nil_prefix, (List.append_nil _).symm, rfl, fun _ => rfl⟩
  obtain ⟨more, hnext, haccepted, hanswer⟩ :=
    writeVectors_sends vectors socket.accepted socket.writes
  rcases hwrite : Socket.writeVectors vectors 0 socket.accepted socket.writes with
    ⟨answer, writes, accepted⟩
  rw [hwrite] at haccepted hanswer
  rcases hanswer with hok | ⟨rfl, errno, herror⟩
  · cases hok
    exact ⟨more, hnext, haccepted, rfl, fun hne => absurd rfl hne⟩
  · cases herror
    exact ⟨[], hnext, haccepted, rfl, fun _ => rfl⟩

/-- `PlainTransport`, on the state of its socket. -/
def transport : Transport Socket where
  handshake socket := (.ok, socket)
  read := read
  read_le := read_le
  writev := writev
  writev_le := by
    intro socket vectors
    obtain ⟨more, hnext, -, hcount, -⟩ := writev_sends socket vectors
    rw [hcount]
    exact hnext.length_le
  shutdown := shutdown
  isSecure := false
  peerCertificateSubject := none

end PlainTransport

/-- The kernel accepts bytes in `writev` only. -/
def Socket.Keeps (socket socket' : Socket) : Prop := socket'.accepted = socket.accepted

namespace Connection

theorem accepted_shutdown (socket : Socket) :
    (PlainTransport.shutdown socket).2.accepted = socket.accepted := by
  rw [PlainTransport.shutdown]
  split <;> rfl

theorem metered_plain {env : Environment Socket}
    (hplain : env.transport = PlainTransport.transport) :
    Metered env Socket.Keeps Socket.accepted := by
  constructor
  · intro socket socket' hmoves
    cases hmoves with
    | same => rfl
    | handshake => rw [hplain]; rfl
    | read capacity =>
      rw [hplain]
      show (PlainTransport.read socket capacity).2.2.accepted = socket.accepted
      rw [PlainTransport.read]
      split_ifs <;> rfl
    | shutdown =>
      rw [hplain]
      exact accepted_shutdown socket
    | elsewhere hworld => exact hworld
  · intro socket vectors
    rw [hplain]
    obtain ⟨more, hnext, haccepted, hcount, hblocked⟩ := PlainTransport.writev_sends socket vectors
    refine haccepted.trans (congrArg _ ?_)
    split_ifs with hok
    · show more = vectors.flatten.take (PlainTransport.writev socket vectors).2.1
      rw [hcount]
      exact List.prefix_iff_eq_take.1 hnext
    · exact hblocked hok

/-- **Exactly-once output on a plain socket.**  `write_vectors` sends a part of its vectors from the
start on, whatever the kernel answers, and says how long it was.

From a connection that writes or streams any vectors, over any calls: the bytes the kernel accepts
are the ones of the trace; up to the moment the vectors count as sent they are a part of them from
the start on, then all of them; and until then `write_offset_` is their number, unless a stream has
sent everything and has dropped its vectors. -/
theorem exactly_once_output (env : Environment Socket)
    (hplain : env.transport = PlainTransport.transport) (c₀ : Connection Socket)
    (hstate : c₀.state = .writing ∨ c₀.state = .streaming) (hoffset : c₀.writeOffset = 0)
    (calls : List (Call Socket)) (hkernel : ∀ x ∈ calls, x.Within Socket.Keeps) :
    (∀ (vectors : List Bytes) accepted writes, ∃ more, more <+: vectors.flatten ∧
      (Socket.writeVectors vectors 0 accepted writes).2.2 = accepted ++ more ∧
      ((Socket.writeVectors vectors 0 accepted writes).1 = .ok more.length ∨
        more = [] ∧ ∃ errno, (Socket.writeVectors vectors 0 accepted writes).1 = .error errno)) ∧
    let c := runCalls env c₀ calls
    let output := c₀.writeVectors.flatten
    ∃ events, c.trace = c₀.trace ++ events ∧
      c.transport.accepted = c₀.transport.accepted ++ sentIn events ∧
      (∀ before later, events = before ++ later → (∀ entry ∈ before, entry.2.turns = false) →
        sentIn before <+: output ∧
          ∀ entry ∈ later.head?, entry.2.turns = true → sentIn before = output) ∧
      ((∀ entry ∈ events, entry.2.turns = false) → c.state ≠ .closing → c.state = c₀.state ∧
        (c.writeVectors = c₀.writeVectors ∧ c.writeOffset = (sentIn events).length ∨
          c.state = .streaming ∧ c.writeVectors = [] ∧ c.writeOffset = 0 ∧
            sentIn events = output)) := by
  refine ⟨writeVectors_sends, ?_⟩
  intro c output
  obtain ⟨events, htrace, hmeter, horder, hposition⟩ :=
    (runCalls_steps env c₀ hkernel).outputs (metered_plain hplain) hstate hoffset
  refine ⟨events, htrace, hmeter, horder, fun hnone hopen => ?_⟩
  cases hposition with
  | turned h =>
    obtain ⟨entry, hentry, hturns⟩ := h
    rw [hnone entry hentry] at hturns
    cases hturns
  | closed h => exact absurd h hopen
  | within _ hstate hvectors hcount _ => exact ⟨hstate, .inl ⟨hvectors, hcount⟩⟩
  | settled _ hstate hstate₀ hvectors hzero hsent =>
    exact ⟨hstate.trans hstate₀.symm, .inr ⟨hstate, hvectors, hzero, hsent⟩⟩

/-- An interrupted call, a short one, one that takes nothing and one that would block: three of five
bytes are sent. -/
theorem exactly_once_output_short :
    let env : Environment Socket :=
      { transport := PlainTransport.transport
        dispatch := fun _ => .threw
        pton := .rejecting
        deflate := fun _ => none
        steadyClock := fun tick => tick + 1
        systemClock := fun _ => 0
        allocate := fun count => count * 1048576 }
    let socket : Socket := ⟨[], [.error .eintr, .ok 1, .ok 0, .ok 2, .error .eagain], none, []⟩
    let c₀ : Connection Socket := { init env socket with
      state := .writing, writeVectors := [[1, 2], [], [3, 4, 5]] }
    let c := runCalls env c₀ [.drive 9, .other (.step 9 4)]
    c.state = .writing ∧ c.transport.accepted = [1, 2, 3] ∧ c.writeOffset = 3 ∧
      ∃ events, c.trace = c₀.trace ++ events ∧
        c.transport.accepted = c₀.transport.accepted ++ sentIn events := by
  intro env socket c₀ c
  obtain ⟨-, events, htrace, hmeter, -⟩ :=
    exactly_once_output env rfl c₀ (.inl rfl) rfl [.drive 9, .other (.step 9 4)] (by
      intro x hx
      simp only [List.mem_cons, List.not_mem_nil, or_false] at hx
      rcases hx with rfl | rfl <;> exact trivial)
  have hstate : c.state = .writing := by decide +kernel
  have haccepted : c.transport.accepted = [1, 2, 3] := by decide +kernel
  have hoffset : c.writeOffset = 3 := by decide +kernel
  refine ⟨hstate, haccepted, hoffset, events, htrace, ?_⟩
  subst c
  exact hmeter

end Connection

end ErikslundHttp
