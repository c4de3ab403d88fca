import ErikslundHttp.Request.Basic

/-!
# The connection's buffers

`Buffer` (`buffer.hpp`) is a byte queue in one growing block of storage: a read cursor follows a
write cursor, and consumed bytes are dropped when the cursors meet or the buffer is compacted.

The block has an address, since the request parser compares the addresses of the views it gets.
An operation that may allocate takes the address of the block after it.

* `Buffer` carries the order of its cursors, so that no operation can break it.
* `readable_writableTail`, `readable_commit`, `readable_consume`, `readable_compact`,
  `readable_compactAndReclaim`: what each operation does to the bytes that can be read.
* `le_writableCapacity`: a tail has the room that was asked for.  `size_t` is where this can fail:
  the sum of the write cursor and the room wraps around.  A vector has less than 2⁶³ bytes, so that
  no other number of the operations does.
-/

namespace ErikslundHttp

/-- The block of a buffer that has grown at all. -/
def kInitialBufferBytes : ℕ := 4096

/-- A block that is full is doubled. -/
def kBufferGrowthFactor : ℕ := 2

/-- `std::vector<char>::resize`. -/
def resize (bytes : Bytes) (size : ℕ) : Bytes :=
  bytes.take size ++ List.replicate (size - bytes.length) 0

theorem length_resize (bytes : Bytes) (size : ℕ) : (resize bytes size).length = size := by
  simp only [resize, List.length_append, List.length_take, List.length_replicate]
  omega

theorem take_resize {bytes : Bytes} {size count : ℕ} (hsize : count ≤ size)
    (hcount : count ≤ bytes.length) : (resize bytes size).take count = bytes.take count := by
  have hlen : count ≤ (bytes.take size).length := by
    rw [List.length_take]
    exact le_min hsize hcount
  rw [resize, List.take_append_of_le_length hlen, List.take_take, min_eq_left hsize]

/-- A block of storage with two cursors in it, in order. -/
structure Buffer where
  /-- The address of the block. -/
  base : ℕ
  /-- All bytes of the storage, the unused ones too. -/
  storage : Bytes
  /-- Where the bytes that can be read begin. -/
  readCursor : ℕ
  /-- Where they end. -/
  writeCursor : ℕ
  /-- What is consumed was written before. -/
  read_le : readCursor ≤ writeCursor
  /-- What is written fits into the storage. -/
  write_le : writeCursor ≤ storage.length

namespace Buffer

/-! ### Observers -/

/-- How many bytes can be read. -/
def size (b : Buffer) : ℕ := b.writeCursor - b.readCursor

/-- Whether none can. -/
def isEmpty (b : Buffer) : Bool := b.writeCursor == b.readCursor

/-- The size of the block. -/
def capacity (b : Buffer) : ℕ := b.storage.length

/-- The room behind the write cursor. -/
def writableCapacity (b : Buffer) : ℕ := b.storage.length - b.writeCursor

/-- The bytes between the cursors. -/
def readable (b : Buffer) : Bytes := (b.storage.take b.writeCursor).drop b.readCursor

/-- The readable bytes, with their address. -/
def view (b : Buffer) : View := ⟨.buffer (b.base + b.readCursor), b.readable⟩

/-! ### Operations -/

/-- A buffer with a block of this size. -/
def ofCapacity (base initialCapacity : ℕ) : Buffer :=
  ⟨base, List.replicate initialCapacity 0, 0, 0, Nat.le_refl 0, Nat.zero_le _⟩

/-- Both cursors go to the front. -/
def clear (b : Buffer) : Buffer :=
  { b with readCursor := 0, writeCursor := 0, read_le := Nat.le_refl 0, write_le := Nat.zero_le _ }

/-- The size of the block when `minimum` bytes do not fit behind the write cursor.  Their sum is a
`size_t`. -/
def grownCapacity (b : Buffer) (minimum : ℕ) : ℕ :=
  max (max ((b.writeCursor + minimum) % 2 ^ 64) (b.storage.length * kBufferGrowthFactor))
    kInitialBufferBytes

theorem two_mul_le_grownCapacity (b : Buffer) (minimum : ℕ) :
    b.storage.length * 2 ≤ b.grownCapacity minimum :=
  (le_max_right _ _).trans (le_max_left _ _)

theorem writeCursor_le_grownCapacity (b : Buffer) (minimum : ℕ) :
    b.writeCursor ≤ b.grownCapacity minimum := by
  have hdouble := b.two_mul_le_grownCapacity minimum
  have hcursor := b.write_le
  omega

/-- The buffer whose tail `writable_tail` returns. -/
def writableTail (b : Buffer) (minimum address : ℕ) : Buffer :=
  if b.writableCapacity < minimum then
    { b with
      base := address
      storage := resize b.storage (b.grownCapacity minimum)
      write_le := by
        rw [length_resize]
        exact b.writeCursor_le_grownCapacity minimum }
  else b

/-- `commit` of as many bytes as were written at the front of the tail; they fit in it. -/
def commit (b : Buffer) (bytes : Bytes) : Buffer :=
  { b with
    storage := b.storage.take b.writeCursor ++ bytes ++
      b.storage.drop (b.writeCursor + bytes.length)
    writeCursor := b.writeCursor + bytes.length
    read_le := Nat.le_add_right_of_le b.read_le
    write_le := by
      have := b.write_le
      simp only [List.length_append, List.length_take, List.length_drop]
      omega }

/-- Callers consume at most `size` bytes. -/
def consume (b : Buffer) (bytes : ℕ) : Buffer :=
  let consumed : Buffer := { b with
    readCursor := min (b.readCursor + bytes) b.writeCursor
    read_le := min_le_right _ _ }
  if consumed.readCursor = consumed.writeCursor then consumed.clear else consumed

theorem length_readable (b : Buffer) : b.readable.length = b.size := by
  rw [readable, List.length_drop, List.length_take_of_le b.write_le, size]

/-- The bytes that can be read move to the front. -/
def compact (b : Buffer) : Buffer :=
  if b.readCursor = 0 then b
  else
    { b with
      storage := b.readable ++ b.storage.drop b.size
      readCursor := 0
      writeCursor := b.size
      read_le := Nat.zero_le _
      write_le := by
        rw [List.length_append, length_readable]
        exact Nat.le_add_right _ _ }

theorem readCursor_compact (b : Buffer) : b.compact.readCursor = 0 := by
  rw [compact]
  split_ifs with h
  · exact h
  · rfl

theorem size_compact (b : Buffer) : b.compact.size = b.compact.writeCursor := by
  rw [size, readCursor_compact, Nat.sub_zero]

/-- A block that is larger than it has to be is exchanged for a smaller one. -/
def compactAndReclaim (b : Buffer) (retainedCapacity address : ℕ) : Buffer :=
  let target := max (max b.compact.size retainedCapacity) kInitialBufferBytes
  if b.compact.storage.length ≤ target then b.compact
  else
    { b.compact with
      base := address
      storage := resize (b.compact.storage.take b.compact.size) target
      write_le := by
        rw [length_resize, ← size_compact]
        exact (le_max_left _ _).trans (le_max_left _ _) }

/-- A tail for the bytes, and the bytes in it. -/
def append (b : Buffer) (bytes : Bytes) (address : ℕ) : Buffer :=
  (b.writableTail bytes.length address).commit bytes

/-! ### The readable bytes -/

variable (b : Buffer)

theorem isEmpty_iff : b.isEmpty = true ↔ b.readable = [] := by
  have := b.read_le
  rw [isEmpty, beq_iff_eq, ← List.length_eq_zero_iff, length_readable, size]
  omega

@[simp] theorem readable_ofCapacity (base initialCapacity : ℕ) :
    (ofCapacity base initialCapacity).readable = [] := rfl

@[simp] theorem readable_clear : b.clear.readable = [] := rfl

@[simp] theorem readable_writableTail (minimum address : ℕ) :
    (b.writableTail minimum address).readable = b.readable := by
  rw [writableTail]
  split_ifs
  · simp only [readable, take_resize (b.writeCursor_le_grownCapacity minimum) b.write_le]
  · rfl

/-- The room behind the cursor of a block that grows. -/
theorem writableCapacity_writableTail {minimum : ℕ} (h : b.writableCapacity < minimum)
    (address : ℕ) : (b.writableTail minimum address).writableCapacity =
      b.grownCapacity minimum - b.writeCursor := by
  rw [writableTail, if_pos h]
  simp only [writableCapacity, length_resize]

/-- The tail has the room that was asked for, if the sum is a `size_t`. -/
theorem le_writableCapacity {minimum : ℕ} (hfits : b.writeCursor + minimum < 2 ^ 64)
    (address : ℕ) : minimum ≤ (b.writableTail minimum address).writableCapacity := by
  by_cases hgrow : b.writableCapacity < minimum
  · have hsum : b.writeCursor + minimum ≤ b.grownCapacity minimum := by
      rw [grownCapacity, Nat.mod_eq_of_lt hfits]
      exact (le_max_left _ _).trans (le_max_left _ _)
    rw [b.writableCapacity_writableTail hgrow]
    omega
  · rw [writableTail, if_neg hgrow]
    exact Nat.not_lt.1 hgrow

/-- A tail is never without room, also where the sum wraps around: the block is doubled. -/
theorem writableCapacity_pos {minimum : ℕ} (h : 0 < minimum) (address : ℕ) :
    0 < (b.writableTail minimum address).writableCapacity := by
  by_cases hgrow : b.writableCapacity < minimum
  · have hdouble := b.two_mul_le_grownCapacity minimum
    have hinitial : kInitialBufferBytes ≤ b.grownCapacity minimum := le_max_right _ _
    have hcursor := b.write_le
    rw [b.writableCapacity_writableTail hgrow]
    rw [kInitialBufferBytes] at hinitial
    omega
  · rw [writableTail, if_neg hgrow]
    exact lt_of_lt_of_le h (Nat.not_lt.1 hgrow)

@[simp] theorem readable_commit (bytes : Bytes) :
    (b.commit bytes).readable = b.readable ++ bytes := by
  have htaken : (b.storage.take b.writeCursor).length = b.writeCursor :=
    List.length_take_of_le b.write_le
  have hwritten : (b.storage.take b.writeCursor ++ bytes).length =
      b.writeCursor + bytes.length := by rw [List.length_append, htaken]
  simp only [readable, commit]
  rw [← hwritten, List.take_left, List.drop_append_of_le_length (htaken.symm ▸ b.read_le)]

theorem readable_consume {bytes : ℕ} (h : bytes ≤ b.size) :
    (b.consume bytes).readable = b.readable.drop bytes := by
  have hle : b.readCursor + bytes ≤ b.writeCursor := by
    have := b.read_le
    rw [size] at h
    omega
  simp only [consume, min_eq_left hle]
  split_ifs with hmeet
  · -- the cursors meet: the buffer starts over, and nothing is left to read
    refine (readable_clear _).trans (List.drop_eq_nil_of_le ?_).symm
    rw [length_readable, size]
    omega
  · simp only [readable, List.drop_drop]

@[simp] theorem readable_compact : b.compact.readable = b.readable := by
  rw [compact]
  split_ifs
  · rfl
  · simp only [readable, List.drop_zero]
    exact List.take_left' b.length_readable

@[simp] theorem readable_compactAndReclaim (retainedCapacity address : ℕ) :
    (b.compactAndReclaim retainedCapacity address).readable = b.readable := by
  simp only [compactAndReclaim]
  split_ifs
  · exact b.readable_compact
  · have hlive : b.compact.size ≤ (b.compact.storage.take b.compact.size).length := by
      rw [List.length_take, size_compact, min_eq_left b.compact.write_le]
    refine Eq.trans ?_ b.readable_compact
    simp only [readable]
    rw [← size_compact, take_resize ((le_max_left _ _).trans (le_max_left _ _)) hlive,
      List.take_take, min_self]

@[simp] theorem readable_append (bytes : Bytes) (address : ℕ) :
    (b.append bytes address).readable = b.readable ++ bytes := by
  rw [append, readable_commit, readable_writableTail]

/-! ### The capacity -/

variable {b}

/-- A tail of a buffer that was compacted: growth doubles a block that is nearly full, so a bound on
the bytes held bounds the block. -/
theorem capacity_writableTail_le {bytes minimum : ℕ} (hcursor : b.readCursor = 0)
    (hsize : b.size ≤ bytes) (hminimum : kInitialBufferBytes ≤ minimum)
    (hcapacity : b.capacity ≤ 2 * (bytes + minimum)) (address : ℕ) :
    (b.writableTail minimum address).capacity ≤ 2 * (bytes + minimum) := by
  rw [size, hcursor, Nat.sub_zero] at hsize
  rw [writableTail]
  split_ifs with hgrow
  · have hsum := Nat.mod_le (b.writeCursor + minimum) (2 ^ 64)
    rw [capacity, length_resize, grownCapacity]
    rw [writableCapacity] at hgrow
    simp only [kBufferGrowthFactor, kInitialBufferBytes] at hminimum ⊢
    omega
  · exact hcapacity

theorem capacity_commit {bytes : Bytes} (h : bytes.length ≤ b.writableCapacity) :
    (b.commit bytes).capacity = b.capacity := by
  have := b.write_le
  rw [writableCapacity] at h
  simp only [capacity, commit, List.length_append, List.length_take, List.length_drop]
  omega

variable (b)

theorem capacity_consume (bytes : ℕ) : (b.consume bytes).capacity = b.capacity := by
  simp only [consume]
  split_ifs <;> rfl

theorem capacity_compact : b.compact.capacity = b.capacity := by
  rw [compact]
  split_ifs
  · rfl
  · have := b.write_le
    simp only [capacity, List.length_append, length_readable, List.length_drop, size]
    omega

theorem capacity_compactAndReclaim_le (retainedCapacity address : ℕ) :
    (b.compactAndReclaim retainedCapacity address).capacity ≤ b.capacity := by
  rw [← b.capacity_compact]
  simp only [compactAndReclaim]
  split_ifs with h
  · exact Nat.le_refl _
  · rw [capacity, length_resize]
    exact (Nat.lt_of_not_le h).le

theorem readCursor_compactAndReclaim (retainedCapacity address : ℕ) :
    (b.compactAndReclaim retainedCapacity address).readCursor = 0 := by
  simp only [compactAndReclaim]
  split_ifs
  · exact b.readCursor_compact
  · exact b.readCursor_compact

theorem readCursor_writableTail (minimum address : ℕ) :
    (b.writableTail minimum address).readCursor = b.readCursor := by
  rw [writableTail]
  split_ifs <;> rfl

end Buffer

end ErikslundHttp
