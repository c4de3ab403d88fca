import ErikslundHttp.Connection.Queue
import ErikslundHttp.Connection.Refinement
import ErikslundHttp.Request.Short

/-!
# The read buffer of a connection

A connection reads more bytes only if the buffer is empty or the parser asked for more; a parser
that asks for more has seen less than the limits allow (`length_le_of_needsMoreData`).

* `read_buffer_bounded`: so the bytes held at a read are bounded, and with them the block that a
  read may grow, whatever the peer sends.
* `buffer_refines_byte_queue`: a buffer is a byte queue, and a connection consumes no more than its
  buffer holds.
* `short_tail_of_wrapped_sum`: what becomes of a tail whose size does not fit behind the cursor.
-/

namespace ErikslundHttp

namespace Connection

variable {σ : Type} {env : Environment σ} {world : σ → σ → Prop} {c c' : Connection σ}

/-- The largest block of a read buffer. -/
def maxReadCapacity (limits : RequestLimits) : ℕ := 2 * (maxRequestBytes limits + kReadChunkBytes)

/-! ### The bytes held at a read -/

/-- A parser that asked for more data asks for it again. -/
theorem ParsedShort.parse (h : ParsedShort env c) :
    ∃ c', Connection.parse env c = (.error .needsMoreData, c') := by
  obtain ⟨c₀, hparse⟩ := h
  simp only [Connection.parse, Prod.mk.injEq] at hparse
  obtain ⟨hresult, hc⟩ := hparse
  subst hc
  obtain ⟨p, hagain⟩ := RequestParser.parse_short_again (Prod.ext hresult rfl)
    (env.steadyClock (c₀.ticks + 1))
  refine ⟨_, Prod.ext ?_ rfl⟩
  show (RequestParser.parse env.pton (env.steadyClock (c₀.ticks + 1)) _ c₀.readBuffer.view
    env.options.limits).1 = .error .needsMoreData
  rw [hagain]

theorem Idle.size_le_of_short (h : Idle env c) (hshort : ParsedShort env c) :
    c.readBuffer.size ≤ maxRequestBytes env.options.limits := by
  obtain ⟨c', hparse⟩ := hshort.parse
  obtain ⟨-, -, hsame, -⟩ := parse_idle h hparse
  obtain ⟨_, rfl⟩ := parse_frame hparse
  rw [← Buffer.length_readable]
  exact length_le_of_needsMoreData (map_eq_error.1 hsame)

/-- What a connection does to its read buffer is sound: it reads at the front of a buffer that holds
a part of a request, and consumes what the buffer holds. -/
def Event.Sound (limits : RequestLimits) : Event → Prop
  | .read buffer _ _ => buffer.readCursor = 0 ∧ buffer.size ≤ maxRequestBytes limits ∧
      buffer.capacity ≤ maxReadCapacity limits
  | .consumed size bytes => bytes ≤ size
  | _ => True

/-- The read buffer is within its bounds, and was at each event. -/
structure ReadBounds (env : Environment σ) (c : Connection σ) : Prop where
  /-- The requests before have been moved away. -/
  cursor : c.state.isReading = true → c.readBuffer.readCursor = 0
  /-- The storage does not grow beyond what the limits of a request ask for. -/
  capacity : c.readBuffer.capacity ≤ maxReadCapacity env.options.limits
  /-- Every read asked for no more than the limits allow. -/
  trace : ∀ entry ∈ c.trace, Event.Sound env.options.limits entry.2

theorem sound_concat {limits : RequestLimits} {trace : List (ℕ × Event)} {entry : ℕ × Event}
    (h : ∀ e ∈ trace, Event.Sound limits e.2) (hentry : Event.Sound limits entry.2) :
    ∀ e ∈ trace ++ [entry], Event.Sound limits e.2 := by
  intro e he
  rcases List.mem_append.1 he with he | he
  · exact h e he
  · rw [List.mem_singleton.1 he]
    exact hentry

/-! ### Every action keeps the bounds -/

/-- An action that leaves the buffer alone. -/
theorem ReadBounds.same (h : ReadBounds env c) (hbuffer : c'.readBuffer = c.readBuffer)
    (hstate : c'.state.isReading = true → c.state.isReading = true)
    (htrace : ∀ entry ∈ c'.trace, Event.Sound env.options.limits entry.2) : ReadBounds env c' :=
  ⟨fun hreading => hbuffer ▸ h.cursor (hstate hreading), hbuffer ▸ h.capacity, htrace⟩

theorem ReadBounds.record (h : ReadBounds env c) {event : Event}
    (hevent : Event.Sound env.options.limits event) : ReadBounds env (c.record event) :=
  ⟨h.cursor, h.capacity, sound_concat h.trace hevent⟩

theorem ReadBounds.releaseStreamSource (h : ReadBounds env c) :
    ReadBounds env c.releaseStreamSource := by
  rw [Connection.releaseStreamSource]
  dsimp only
  split
  · exact h.same rfl id (sound_concat h.trace trivial)
  · exact h.same rfl id h.trace

theorem ReadBounds.beginClose (h : ReadBounds env c) : ReadBounds env (beginClose env c) := by
  rw [Connection.beginClose]
  split_ifs
  · exact h
  · have hreleased := h.releaseStreamSource
    exact ⟨by rintro ⟨⟩, hreleased.capacity, hreleased.trace⟩

theorem ReadBounds.read (h : ReadBounds env c) (hidle : Idle env c)
    (hreading : c.state.isReading = true)
    (hmore : c.readBuffer.isEmpty = true ∧ c.state = .readingHeaders ∨ ParsedShort env c)
    {status : TransportStatus} {bytes : Bytes} (hread : read env c = (c', status, bytes)) :
    ReadBounds env c' ∧ ReadBounds env (c'.commit bytes) := by
  have hcursor := h.cursor hreading
  have hsize : c.readBuffer.size ≤ maxRequestBytes env.options.limits := by
    rcases hmore with ⟨hempty, -⟩ | hshort
    · rw [← Buffer.length_readable, c.readBuffer.isEmpty_iff.1 hempty]
      exact Nat.zero_le _
    · exact hidle.size_le_of_short hshort
  simp only [Connection.read, Prod.mk.injEq] at hread
  obtain ⟨rfl, hstatus, hbytes⟩ := hread
  have hfit := env.transport.read_le c.transport
    (c.readBuffer.writableTail kReadChunkBytes (env.allocate c.allocations)).writableCapacity
  rw [hbytes] at hfit
  have htail := Buffer.capacity_writableTail_le hcursor hsize (Nat.le_refl kReadChunkBytes)
    h.capacity (env.allocate c.allocations)
  have htail_cursor := (c.readBuffer.readCursor_writableTail kReadChunkBytes
    (env.allocate c.allocations)).trans hcursor
  have hsound : Event.Sound env.options.limits (.read c.readBuffer status bytes) :=
    ⟨hcursor, hsize, h.capacity⟩
  rw [hstatus, hbytes]
  refine ⟨⟨fun _ => htail_cursor, htail, sound_concat h.trace hsound⟩,
    ⟨fun _ => htail_cursor, ?_, sound_concat h.trace hsound⟩⟩
  exact (Buffer.capacity_commit hfit).trans_le htail

theorem ReadBounds.noteFirstBytes (h : ReadBounds env c) : ReadBounds env (noteFirstBytes env c) := by
  rw [Connection.noteFirstBytes]
  split_ifs
  · exact h
  · exact h.same rfl id h.trace

theorem ReadBounds.parse (h : ReadBounds env c) {result : Except ParseError (ParsedRequest View)}
    (hparse : parse env c = (result, c')) : ReadBounds env c' := by
  obtain ⟨_, rfl⟩ := parse_frame hparse
  exact h.same rfl id h.trace

theorem ReadBounds.writev (h : ReadBounds env c) {status : TransportStatus} {accepted : ℕ}
    (hwrite : writev env c = (c', status, accepted)) : ReadBounds env c' := by
  simp only [Connection.writev, Prod.mk.injEq] at hwrite
  obtain ⟨rfl, -, -⟩ := hwrite
  exact h.same rfl id (sound_concat h.trace trivial)

theorem ReadBounds.pull (h : ReadBounds env c) {source : StreamSource} {scratch : Bytes}
    {answer : Pull} (hpull : c.pull source = (c', scratch, answer)) : ReadBounds env c' := by
  simp only [Connection.pull, Prod.mk.injEq] at hpull
  obtain ⟨rfl, -, -⟩ := hpull
  exact h.same rfl id (sound_concat h.trace trivial)

/-- The bytes to send do not matter. -/
theorem ReadBounds.pushWriteBuffer (h : ReadBounds env c) (bytes : Bytes) :
    ReadBounds env (appendToWriteBuffer env bytes c).pushWriteBuffer := h.same rfl id h.trace

theorem ReadBounds.serve (h : ReadBounds env c) (hidle : Idle env c) {parsed : ParsedRequest View}
    (hparsed : parseBytes env.pton env.options.limits c.readBuffer.readable =
      .ok parsed.content) : ReadBounds env (serve env parsed c) := by
  have hle : parsed.consumedBytes ≤ c.readBuffer.size := by
    rw [← Buffer.length_readable]
    exact consumedBytes_le hparsed
  rw [serve_eq env hidle.pending]
  refine ⟨nofun, ?_, ?_⟩
  · exact (c.readBuffer.capacity_consume parsed.consumedBytes).trans_le h.capacity
  · exact sound_concat (sound_concat h.trace hle) trivial

theorem ReadBounds.reject (h : ReadBounds env c) (status : Status) :
    ReadBounds env (reject env status c) :=
  ⟨nofun, h.capacity, sound_concat h.trace trivial⟩

theorem ReadBounds.completeResponse (h : ReadBounds env c) :
    ReadBounds env c.completeResponse := by
  have hrecorded : ReadBounds env
      { c.record .completed with requestsServed := c.requestsServed + 1 } :=
    h.same rfl id (sound_concat h.trace trivial)
  exact hrecorded.releaseStreamSource.same rfl id hrecorded.releaseStreamSource.trace

theorem action_readBounds (h : Action env world c c') (hinv : Inv env c) (hc : ReadBounds env c) :
    ReadBounds env c' := by
  cases h with
  | handshake _ => exact hc.same rfl id hc.trace
  | handshaken hstate => exact hc.same rfl (fun _ => by rw [hstate]; rfl) hc.trace
  | readNothing hstate hmore hread _ =>
    have hreading := isReading_of_readsRequests hstate
    exact (hc.read (hinv.toIdle hreading) hreading hmore hread).1
  | readHead hstate hmore hread _ =>
    have hreading := isReading_of_readsRequests (.inl hstate)
    exact (hc.read (hinv.toIdle hreading) hreading hmore hread).2.noteFirstBytes
  | readBody hstate hmore hread _ =>
    have hreading := isReading_of_readsRequests (.inr hstate)
    exact (hc.read (hinv.toIdle hreading) hreading (.inr hmore) hread).2
  | parseShort _ hparse => exact hc.parse hparse
  | awaitBody hstate _ _ _ => exact hc.same rfl (fun _ => by rw [hstate]; rfl) hc.trace
  | serve hstate hparse =>
    obtain ⟨hidle, -, hsame, -⟩ :=
      parse_idle (hinv.toIdle (isReading_of_readsRequests hstate)) hparse
    exact (hc.parse hparse).serve hidle hsame
  | reject _ hparse _ => exact (hc.parse hparse).reject _
  | timeOut _ _ => exact hc.reject _
  | writeNothing _ _ hwrite _ => exact hc.writev hwrite
  | write _ _ hwrite _ =>
    have hwritten := hc.writev hwrite
    exact hwritten.same rfl id hwritten.trace
  | nextRequest _ _ _ =>
    have hcompleted := hc.completeResponse
    refine ⟨fun _ => Buffer.readCursor_compactAndReclaim _ _ _, ?_, hcompleted.trace⟩
    exact (Buffer.capacity_compactAndReclaim_le _ _ _).trans hcompleted.capacity
  | lastResponse _ _ _ _ => exact hc.completeResponse.beginClose
  | attach _ hstate _ _ _ _ _ => exact hc.same rfl nofun (sound_concat hc.trace trivial)
  | attachThrows _ _ _ _ _ _ _ =>
    have hattached : ReadBounds env c.attachStream :=
      hc.same rfl id (sound_concat hc.trace trivial)
    exact hattached.beginClose
  | streamNothing _ _ hwrite _ _ =>
    have hwritten := hc.writev hwrite
    rw [awaitWriteProgress]
    split_ifs
    · exact hwritten
    · exact hwritten.same rfl id hwritten.trace
  | streamWrite _ _ hwrite _ =>
    have hwritten := hc.writev hwrite
    exact hwritten.same rfl id hwritten.trace
  | streamFailed _ _ hwrite _ => exact (hc.writev hwrite).beginClose
  | settle _ _ =>
    rw [settleWrites]
    split_ifs
    · exact hc.same rfl id hc.trace
    · exact hc.same rfl id hc.trace
  | pullNothing _ _ _ _ hpull _ => exact hc.pull hpull
  | pullBytes _ _ _ _ hpull _ => exact (hc.pull hpull).pushWriteBuffer _
  | pullLast _ _ _ _ hpull _ => exact ((hc.pull hpull).pushWriteBuffer _).releaseStreamSource
  | pullEnd _ _ _ _ hpull => exact (hc.pull hpull).beginClose
  | close => exact hc.beginClose
  | discard _ hread =>
    simp only [discard, Prod.mk.injEq] at hread
    obtain ⟨rfl, -, -⟩ := hread
    exact hc.same rfl id (sound_concat hc.trace trivial)
  | elsewhere _ _ => exact hc.same rfl id hc.trace

variable (env) in
theorem run_readBounds (transport : σ) (occurrences : List (Occurrence σ)) :
    ReadBounds env (run env (init env transport) occurrences) := by
  refine (run_steps env _ occurrences).induct (fun _ _ => action_readBounds) ⟨fun _ => rfl, ?_, nofun⟩
  show (List.replicate kInitialBufferBytes 0).length ≤ _
  rw [List.length_replicate, maxReadCapacity, kReadChunkBytes, kInitialBufferBytes]
  omega

/-! ### The bound -/

/-- **The read buffer is bounded.**  Whenever a connection is about to read, the read cursor is at
the front of the buffer and the bytes held are less than a request can have; so the block stays
within its bound, before the read and after the tail was made, and no sum of `writable_tail` wraps
around. -/
theorem read_buffer_bounded (env : Environment σ) (transport : σ)
    (occurrences : List (Occurrence σ))
    (hfits : maxReadCapacity env.options.limits < 2 ^ 64) :
    let c := run env (init env transport) occurrences
    c.readBuffer.capacity ≤ maxReadCapacity env.options.limits ∧
      ∀ tick buffer status bytes, (tick, Event.read buffer status bytes) ∈ c.trace →
        buffer.readCursor = 0 ∧ buffer.size ≤ maxRequestBytes env.options.limits ∧
        (∀ address, (buffer.writableTail kReadChunkBytes address).capacity ≤
          maxReadCapacity env.options.limits) ∧
        buffer.writeCursor + kReadChunkBytes < 2 ^ 64 ∧
        (buffer.writableCapacity < kReadChunkBytes →
          buffer.capacity * kBufferGrowthFactor < 2 ^ 64) := by
  intro c
  have h := run_readBounds env transport occurrences
  refine ⟨h.capacity, fun tick buffer status bytes hread => ?_⟩
  obtain ⟨hcursor, hsize, hcapacity⟩ := h.trace _ hread
  refine ⟨hcursor, hsize, Buffer.capacity_writableTail_le hcursor hsize (Nat.le_refl _) hcapacity,
    ?_, ?_⟩
  · rw [Buffer.size, hcursor, Nat.sub_zero] at hsize
    rw [maxReadCapacity] at hfits
    omega
  · intro hfull
    rw [Buffer.size, hcursor, Nat.sub_zero] at hsize
    rw [Buffer.writableCapacity] at hfull
    rw [maxReadCapacity] at hfits
    rw [Buffer.capacity, kBufferGrowthFactor]
    omega

/-- The default limits, and a peer that sends two bytes. -/
theorem read_buffer_bounded_scripted :
    let env := Environment.scripted fun _ => .threw
    let c := run env (init env ⟨[ascii "GE"], true⟩) [.step 3 1]
    maxReadCapacity env.options.limits < 2 ^ 64 ∧ c.trace.length = 2 ∧
      c.readBuffer.capacity ≤ maxReadCapacity env.options.limits :=
  ⟨by decide, by decide +kernel,
    (read_buffer_bounded (Environment.scripted fun _ => .threw) ⟨[ascii "GE"], true⟩ [.step 3 1]
      (by decide)).1⟩

/-! ### The byte queue -/

/-- **A buffer refines a byte queue.**  After every sequence of calls that meet their preconditions,
the readable bytes are those committed since the last `clear` without the consumed ones; the cursors
are in order; a tail has the room asked for if that fits in a `size_t` behind the write cursor; and
making a tail, compacting and reclaiming change neither the readable bytes nor their number.  A
connection meets the precondition of `consume` whatever it is sent. -/
theorem buffer_refines_byte_queue (base initialCapacity : ℕ) (ops : List Buffer.Op)
    (hops : (Buffer.ofCapacity base initialCapacity).AllowsAll ops) :
    (let b := (Buffer.ofCapacity base initialCapacity).run ops
     b.readable = (Queue.run {} ops).content ∧ b.readCursor ≤ b.writeCursor ∧
     b.writeCursor ≤ b.capacity ∧
     (∀ minimum address, (b.writeCursor + minimum < 2 ^ 64 →
         minimum ≤ (b.writableTail minimum address).writableCapacity) ∧
       (b.writableTail minimum address).readable = b.readable) ∧
     b.compact.readable = b.readable ∧ b.compact.size = b.size ∧
     ∀ retainedCapacity address,
       (b.compactAndReclaim retainedCapacity address).readable = b.readable ∧
       (b.compactAndReclaim retainedCapacity address).size = b.size) ∧
    ∀ (σ : Type) (env : Environment σ) (transport : σ) (occurrences : List (Occurrence σ))
      (tick size bytes : ℕ),
      (tick, Event.consumed size bytes) ∈ (run env (init env transport) occurrences).trace →
        bytes ≤ size := by
  refine ⟨?_, fun σ env transport occurrences tick size bytes hconsumed =>
    (run_readBounds env transport occurrences).trace _ hconsumed⟩
  intro b
  refine ⟨((Buffer.refines_ofCapacity base initialCapacity).run hops).readable, b.read_le,
    b.write_le, fun minimum address => ⟨fun hfits => b.le_writableCapacity hfits address,
    b.readable_writableTail minimum address⟩, b.readable_compact,
    Buffer.size_eq_of_readable b.readable_compact, fun retainedCapacity address => ?_⟩
  have hreclaimed := b.readable_compactAndReclaim retainedCapacity address
  exact ⟨hreclaimed, Buffer.size_eq_of_readable hreclaimed⟩

/-- Behind two bytes, the largest `size_t` but one does not fit: the sum is zero, the block is
doubled, and the tail is short of what was asked for. -/
theorem short_tail_of_wrapped_sum :
    let ops : List Buffer.Op := [.append (ascii "ab") 9]
    let b := (Buffer.ofCapacity 0 0).run ops
    (Buffer.ofCapacity 0 0).AllowsAll ops ∧
      (b.writableTail (2 ^ 64 - 2) 9).writableCapacity = 8190 ∧
      ¬ 2 ^ 64 - 2 ≤ (b.writableTail (2 ^ 64 - 2) 9).writableCapacity := by
  intro ops b
  have hops : (Buffer.ofCapacity 0 0).AllowsAll ops := by decide +kernel
  have hcursor : b.writeCursor = 2 := rfl
  have hlength : b.storage.length = 4096 := by decide +kernel
  have htail : (b.writableTail (2 ^ 64 - 2) 9).writableCapacity = 8190 := by
    have hfull : b.writableCapacity < 2 ^ 64 - 2 := by
      rw [Buffer.writableCapacity, hcursor, hlength]
      decide
    rw [b.writableCapacity_writableTail hfull, Buffer.grownCapacity, hcursor, hlength]
    decide
  exact ⟨hops, htail, by rw [htail]; decide⟩

/-- Two requests in a row: the first is consumed, and the rest moves to the front. -/
theorem buffer_refines_byte_queue_pipelined :
    let ops : List Buffer.Op := [.writableTail 4 9, .commit (ascii "abcd"), .append (ascii "ef") 9,
      .consume 3, .compactAndReclaim 0 7]
    (Buffer.ofCapacity 0 0).AllowsAll ops ∧
      ((Buffer.ofCapacity 0 0).run ops).readable = ascii "def" := by
  intro ops
  have hops : (Buffer.ofCapacity 0 0).AllowsAll ops := by decide +kernel
  exact ⟨hops, (buffer_refines_byte_queue 0 0 ops hops).1.1⟩

end Connection

end ErikslundHttp
