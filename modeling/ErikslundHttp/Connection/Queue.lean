import ErikslundHttp.Connection.Buffer

/-!
# A buffer is a byte queue

What a buffer is for: the bytes committed to it come out in order.

* `Queue` keeps the bytes committed since the last `clear` and how many of them were consumed; its
  content is the rest.
* `Buffer.Op` is a call on a buffer, `Buffer.Allows` its precondition.
* `Buffer.Refines.run`: after every sequence of calls that meet their preconditions the readable
  bytes are the content of the queue, whatever the calls did to the cursors and the storage.
-/

namespace ErikslundHttp

/-! ### The queue -/

/-- The bytes since the last `clear`, and how many of them were consumed. -/
structure Queue where
  /-- The bytes since the last `clear`. -/
  committed : Bytes := []
  /-- How many of them have been consumed. -/
  consumed : ℕ := 0

namespace Queue

/-- What was committed and not consumed. -/
def content (q : Queue) : Bytes := q.committed.drop q.consumed

/-- Bytes are committed. -/
def push (q : Queue) (bytes : Bytes) : Queue := { q with committed := q.committed ++ bytes }

/-- Bytes are consumed. -/
def pop (q : Queue) (bytes : ℕ) : Queue := { q with consumed := q.consumed + bytes }

theorem content_push {q : Queue} (h : q.consumed ≤ q.committed.length) (bytes : Bytes) :
    (q.push bytes).content = q.content ++ bytes := List.drop_append_of_le_length h

theorem content_pop (q : Queue) (bytes : ℕ) : (q.pop bytes).content = q.content.drop bytes := by
  rw [content, content, List.drop_drop]
  rfl

end Queue

/-! ### Calls on a buffer -/

namespace Buffer

/-- A call that changes a buffer.  `commit` has the bytes that were written to the tail; a call that
may allocate has the address of the block after it. -/
inductive Op where
  | writableTail (minimum address : ℕ)
  | commit (bytes : Bytes)
  | append (bytes : Bytes) (address : ℕ)
  | consume (bytes : ℕ)
  | compact
  | compactAndReclaim (retainedCapacity address : ℕ)
  | clear

/-- What a call does to the buffer. -/
def call (b : Buffer) : Op → Buffer
  | .writableTail minimum address => b.writableTail minimum address
  | .commit bytes => b.commit bytes
  | .append bytes address => b.append bytes address
  | .consume bytes => b.consume bytes
  | .compact => b.compact
  | .compactAndReclaim retainedCapacity address => b.compactAndReclaim retainedCapacity address
  | .clear => b.clear

/-- The preconditions of the calls; `append` makes a tail and commits to it. -/
def Allows (b : Buffer) : Op → Prop
  | .commit bytes => bytes.length ≤ b.writableCapacity
  | .append bytes address => bytes.length ≤ (b.writableTail bytes.length address).writableCapacity
  | .consume bytes => bytes ≤ b.size
  | _ => True

/-- Bytes that fit in a `size_t` behind the write cursor can be appended. -/
theorem allows_append {b : Buffer} {bytes : Bytes} (h : b.writeCursor + bytes.length < 2 ^ 64)
    (address : ℕ) : b.Allows (.append bytes address) := b.le_writableCapacity h address

/-- The buffer after some calls. -/
def run (b : Buffer) (ops : List Op) : Buffer := ops.foldl call b

/-- Every call meets its precondition when it is made. -/
def AllowsAll (b : Buffer) : List Op → Prop
  | [] => True
  | op :: ops => b.Allows op ∧ (b.call op).AllowsAll ops

instance decidableAllows (b : Buffer) : (op : Op) → Decidable (b.Allows op)
  | .commit bytes => inferInstanceAs (Decidable (bytes.length ≤ b.writableCapacity))
  | .append bytes address => inferInstanceAs
      (Decidable (bytes.length ≤ (b.writableTail bytes.length address).writableCapacity))
  | .consume bytes => inferInstanceAs (Decidable (bytes ≤ b.size))
  | .writableTail _ _ | .compact | .compactAndReclaim _ _ | .clear => .isTrue trivial

instance decidableAllowsAll : (b : Buffer) → (ops : List Op) → Decidable (b.AllowsAll ops)
  | _, [] => .isTrue trivial
  | b, op :: ops =>
    have := decidableAllowsAll (b.call op) ops
    inferInstanceAs (Decidable (b.Allows op ∧ (b.call op).AllowsAll ops))

end Buffer

/-- What a call does to the queue. -/
def Queue.call (q : Queue) : Buffer.Op → Queue
  | .commit bytes => q.push bytes
  | .append bytes _ => q.push bytes
  | .consume bytes => q.pop bytes
  | .clear => {}
  | .writableTail _ _ | .compact | .compactAndReclaim _ _ => q

/-- The queue after some calls. -/
def Queue.run (q : Queue) (ops : List Buffer.Op) : Queue := ops.foldl Queue.call q

/-! ### The refinement -/

namespace Buffer

/-- The readable bytes are the content of the queue. -/
structure Refines (b : Buffer) (q : Queue) : Prop where
  /-- The view is the queue. -/
  readable : b.readable = q.content
  consumed_le : q.consumed ≤ q.committed.length

variable {b : Buffer} {q : Queue}

theorem refines_ofCapacity (base initialCapacity : ℕ) :
    Refines (ofCapacity base initialCapacity) {} := ⟨rfl, Nat.le_refl 0⟩

theorem Refines.push (h : Refines b q) {b' : Buffer} (bytes : Bytes)
    (hb : b'.readable = b.readable ++ bytes) : Refines b' (q.push bytes) := by
  refine ⟨?_, ?_⟩
  · rw [hb, Queue.content_push h.consumed_le, h.readable]
  · show q.consumed ≤ (q.committed ++ bytes).length
    rw [List.length_append]
    exact Nat.le_add_right_of_le h.consumed_le

theorem Refines.pop (h : Refines b q) {bytes : ℕ} (hle : bytes ≤ b.size) :
    Refines (b.consume bytes) (q.pop bytes) := by
  refine ⟨?_, ?_⟩
  · rw [b.readable_consume hle, Queue.content_pop, h.readable]
  · have hlen : b.size = q.committed.length - q.consumed := by
      rw [← length_readable, h.readable, Queue.content, List.length_drop]
    have hconsumed := h.consumed_le
    show q.consumed + bytes ≤ q.committed.length
    omega

theorem Refines.call (h : Refines b q) {op : Op} (hop : b.Allows op) :
    Refines (b.call op) (q.call op) := by
  cases op with
  | writableTail minimum address =>
    exact ⟨(b.readable_writableTail minimum address).trans h.readable, h.consumed_le⟩
  | commit bytes => exact h.push bytes (b.readable_commit bytes)
  | append bytes address => exact h.push bytes (b.readable_append bytes address)
  | consume bytes => exact h.pop hop
  | compact => exact ⟨b.readable_compact.trans h.readable, h.consumed_le⟩
  | compactAndReclaim retainedCapacity address =>
    exact ⟨(b.readable_compactAndReclaim retainedCapacity address).trans h.readable, h.consumed_le⟩
  | clear => exact ⟨rfl, Nat.le_refl 0⟩

theorem Refines.run (h : Refines b q) {ops : List Op} (hops : b.AllowsAll ops) :
    Refines (b.run ops) (q.run ops) := by
  induction ops generalizing b q with
  | nil => exact h
  | cons op ops ih => exact ih (h.call hops.1) hops.2

theorem size_eq_of_readable {b b' : Buffer} (h : b'.readable = b.readable) : b'.size = b.size := by
  rw [← length_readable, ← length_readable, h]

end Buffer

end ErikslundHttp
