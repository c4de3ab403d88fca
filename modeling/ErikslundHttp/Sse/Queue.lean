import ErikslundHttp.Sse.Basic

/-!
# The queue of a subscriber

A subscriber counts the bytes it has queued and never queues more than its limit.  The count is a
`size_t` that is subtracted from, so it must be right after every call.

* `Counted`: the count is the size of the queued frames, whatever calls have been made, and no
  subtraction goes below zero (`subtractions_le`).
* `makeRoom_spec`: so `enqueue` drops the fewest of the oldest frames that make room, and drops some
  only if the frame does not fit behind those that are queued (`Counted.drops_iff`).
* `Patient`: dropping four times without a pull in between closes the subscriber.
* `subscriber_queue` puts them together.
-/

namespace ErikslundHttp

namespace SseSubscriber

variable {ν : Type} {s : SseSubscriber ν}

/-- The size of some frames. -/
def bytes (frames : List SharedFrame) : ℕ := (frames.map fun frame => frame.text.length).sum

@[simp] theorem bytes_nil : bytes [] = 0 := rfl

@[simp] theorem bytes_cons (frame : SharedFrame) (frames : List SharedFrame) :
    bytes (frame :: frames) = frame.text.length + bytes frames := by
  simp [bytes]

@[simp] theorem bytes_append (frames frames' : List SharedFrame) :
    bytes (frames ++ frames') = bytes frames + bytes frames' := by
  simp [bytes]

/-- The count is the size of the queue, and within the limit. -/
structure Counted (s : SseSubscriber ν) : Prop where
  eq : s.queuedBytes = bytes s.queue
  le : s.queuedBytes ≤ s.maxQueuedBytes

/-! ### Making room -/

/-- The subtractions of the loop of `enqueue`, as pairs of what is subtracted from and what is
subtracted: the room in the condition of the loop, and the frame that is dropped. -/
def subtractions (size maxQueuedBytes : ℕ) : List SharedFrame → ℕ → List (ℕ × ℕ)
  | [], _ => []
  | front :: queue, queuedBytes =>
    (maxQueuedBytes, queuedBytes) ::
      if size > maxQueuedBytes - queuedBytes then
        (queuedBytes, front.text.length) ::
          subtractions size maxQueuedBytes queue (queuedBytes - front.text.length)
      else []

theorem subtractions_le {size maxQueuedBytes queuedBytes : ℕ} {queue : List SharedFrame}
    (heq : queuedBytes = bytes queue) (hle : queuedBytes ≤ maxQueuedBytes) :
    ∀ pair ∈ subtractions size maxQueuedBytes queue queuedBytes, pair.2 ≤ pair.1 := by
  induction queue generalizing queuedBytes with
  | nil => exact nofun
  | cons front queue ih =>
    rw [bytes_cons] at heq
    intro pair hpair
    rw [subtractions, List.mem_cons] at hpair
    rcases hpair with rfl | hpair
    · exact hle
    · split_ifs at hpair
      · rcases List.mem_cons.1 hpair with rfl | hpair
        · show front.text.length ≤ queuedBytes
          omega
        · exact ih (by omega) (by omega) pair hpair
      · cases hpair

/-- The loop leaves the longest end of the queue that has room for the frame. -/
theorem makeRoom_spec {size maxQueuedBytes queuedBytes : ℕ} {queue : List SharedFrame}
    (hsize : size ≤ maxQueuedBytes) (heq : queuedBytes = bytes queue)
    (hle : queuedBytes ≤ maxQueuedBytes) :
    ∃ removed, queue = removed ++ (makeRoom size maxQueuedBytes queue queuedBytes).1 ∧
      (makeRoom size maxQueuedBytes queue queuedBytes).2 =
        bytes (makeRoom size maxQueuedBytes queue queuedBytes).1 ∧
      (makeRoom size maxQueuedBytes queue queuedBytes).2 + size ≤ maxQueuedBytes ∧
      ∀ removed' kept', queue = removed' ++ kept' → bytes kept' + size ≤ maxQueuedBytes →
        removed.length ≤ removed'.length := by
  induction queue generalizing queuedBytes with
  | nil =>
    refine ⟨[], rfl, heq, ?_, fun _ _ _ _ => Nat.zero_le _⟩
    show queuedBytes + size ≤ maxQueuedBytes
    rw [heq]
    simpa using hsize
  | cons front queue ih =>
    have hfront : queuedBytes = front.text.length + bytes queue := by rw [heq, bytes_cons]
    rw [makeRoom]
    split_ifs with hroom
    · have hnext : queuedBytes - front.text.length = bytes queue := by omega
      obtain ⟨removed, hsplit, hcount, hfits, hleast⟩ := ih hnext (by omega)
      refine ⟨front :: removed, by rw [List.cons_append, ← hsplit], hcount, hfits, ?_⟩
      intro removed' kept' hsplit' hfits'
      cases removed' with
      | nil =>
        -- without dropping the front there is no room
        rw [List.nil_append] at hsplit'
        rw [← hsplit', bytes_cons] at hfits'
        omega
      | cons first rest =>
        obtain ⟨-, hrest⟩ := List.cons.inj hsplit'
        exact Nat.succ_le_succ (hleast rest kept' hrest hfits')
    · refine ⟨[], rfl, heq, ?_, fun _ _ _ _ => Nat.zero_le _⟩
      show queuedBytes + size ≤ maxQueuedBytes
      omega

/-! ### Calls -/

/-- A call of a subscriber. -/
inductive Call (ν : Type) where
  | enqueue (frame : SharedFrame)
  | pull (now : TimePoint)
  | maybeHeartbeat (now : TimePoint)
  | beginClose
  | onAttached (notifier : ν)
  | onDetached

/-- The subscriber after a call. -/
def apply (s : SseSubscriber ν) : Call ν → SseSubscriber ν
  | .enqueue frame => (s.enqueue frame).1
  | .pull now => (s.pull now).2.2
  | .maybeHeartbeat now => (s.maybeHeartbeat now).1
  | .beginClose => s.beginClose.1
  | .onAttached notifier => s.onAttached notifier
  | .onDetached => s.onDetached

/-- The subscriber after some calls. -/
def applyAll (s : SseSubscriber ν) (calls : List (Call ν)) : SseSubscriber ν := calls.foldl apply s

/-- An enqueue that drops frames for the one it takes. -/
def overflows (s : SseSubscriber ν) : Call ν → Bool
  | .enqueue frame => !s.closed && frame.text.length ≤ s.maxQueuedBytes && s.drops frame.text.length
  | _ => false

/-- A pull that takes frames. -/
def takes (s : SseSubscriber ν) : Call ν → Bool
  | .pull _ => !s.queue.isEmpty
  | _ => false

/-- How many of the calls have dropped frames since the last pull that took some; `count` had before
the calls. -/
def overflowsSince (s : SseSubscriber ν) (count : ℕ) : List (Call ν) → ℕ
  | [] => count
  | call :: rest =>
    overflowsSince (s.apply call)
      (if s.overflows call then count + 1 else if s.takes call then 0 else count) rest

/-! ### What a call does to the queue -/

theorem Counted.closeLocked (s : SseSubscriber ν) : s.closeLocked.Counted := ⟨rfl, Nat.zero_le _⟩

theorem init_counted (options : SseOptions) (now : TimePoint) :
    (init options now : SseSubscriber ν).Counted := by
  rw [init]
  dsimp only
  split_ifs with hretry
  · refine ⟨?_, ?_⟩
    · simp [pushBackLocked, bytes]
    · show 0 + _ ≤ _
      rw [Nat.zero_add]
      exact hretry.2
  · exact ⟨rfl, Nat.zero_le _⟩

/-- The subscriber with a frame after the ones it keeps. -/
def withFrame (frame : SharedFrame) (s : SseSubscriber ν) : SseSubscriber ν :=
  { s with
    queue := (s.kept frame.text.length).1 ++ [frame]
    queuedBytes := (s.kept frame.text.length).2 + frame.text.length
    consecutiveOverflows := if s.drops frame.text.length then s.consecutiveOverflows + 1
      else s.consecutiveOverflows }

/-- A closed subscriber ignores a frame, one that is too large closes the subscriber, and so does
the fourth that frames are dropped for. -/
theorem enqueue_cases (frame : SharedFrame) (s : SseSubscriber ν) :
    s.closed = true ∧ (s.enqueue frame).1 = s ∨
    s.closed = false ∧ s.maxQueuedBytes < frame.text.length ∧
      (s.enqueue frame).1 = s.closeLocked ∨
    s.closed = false ∧ frame.text.length ≤ s.maxQueuedBytes ∧
      (s.enqueue frame).1 = if s.drops frame.text.length = true ∧
        kOverflowsBeforeDisconnect ≤ s.consecutiveOverflows + 1 then (s.withFrame frame).closeLocked
        else s.withFrame frame := by
  by_cases hclosed : s.closed = true
  · exact .inl ⟨hclosed, by rw [enqueue_of_closed frame hclosed]⟩
  · by_cases hsize : frame.text.length > s.maxQueuedBytes
    · refine .inr (.inl ⟨Bool.eq_false_of_not_eq_true hclosed, hsize, ?_⟩)
      rw [enqueue, if_neg hclosed, if_pos hsize]
    · refine .inr (.inr ⟨Bool.eq_false_of_not_eq_true hclosed, not_lt.1 hsize, ?_⟩)
      rw [enqueue, if_neg hclosed, if_neg hsize, withFrame]
      dsimp only
      cases hdrops : s.drops frame.text.length with
      | true =>
        simp only [if_true, true_and]
        split_ifs <;> rfl
      | false => rfl

/-- Frames are dropped only for one that does not fit behind them. -/
theorem Counted.drops_iff (h : s.Counted) {size : ℕ} (hsize : size ≤ s.maxQueuedBytes) :
    s.drops size = true ↔ s.maxQueuedBytes < bytes s.queue + size := by
  obtain ⟨removed, hsplit, hcount, hfits, hleast⟩ := makeRoom_spec hsize h.eq h.le
  have hlength := congrArg List.length hsplit
  rw [List.length_append] at hlength
  rw [drops, kept, decide_eq_true_eq]
  constructor
  · intro hdrops
    by_contra hroom
    have hnone := hleast [] s.queue rfl (not_lt.1 hroom)
    rw [List.length_nil] at hnone
    omega
  · intro hfull
    by_contra hkept
    have hremoved : removed = [] := List.length_eq_zero_iff.1 (by omega)
    rw [hremoved, List.nil_append] at hsplit
    rw [hcount, ← hsplit] at hfits
    omega

theorem Counted.withFrame (h : s.Counted) {frame : SharedFrame}
    (hsize : frame.text.length ≤ s.maxQueuedBytes) : (s.withFrame frame).Counted := by
  obtain ⟨-, -, hcount, hfits, -⟩ := makeRoom_spec hsize h.eq h.le
  refine ⟨?_, hfits⟩
  show (s.kept frame.text.length).2 + frame.text.length =
    bytes ((s.kept frame.text.length).1 ++ [frame])
  rw [bytes_append, bytes_cons, bytes_nil, Nat.add_zero]
  exact congrArg (· + frame.text.length) hcount

theorem Counted.enqueue (h : s.Counted) (frame : SharedFrame) : (s.enqueue frame).1.Counted := by
  rcases enqueue_cases frame s with ⟨-, heq⟩ | ⟨-, -, heq⟩ | ⟨-, hsize, heq⟩
  · rw [heq]
    exact h
  · rw [heq]
    exact Counted.closeLocked s
  · rw [heq]
    split_ifs
    · exact Counted.closeLocked _
    · exact h.withFrame hsize

theorem Counted.apply (h : s.Counted) (call : Call ν) : (s.apply call).Counted := by
  cases call with
  | enqueue frame => exact h.enqueue frame
  | pull now =>
    show (s.pull now).2.2.Counted
    rw [SseSubscriber.pull]
    cases s.queue.isEmpty with
    | true => exact h
    | false => exact ⟨rfl, Nat.zero_le _⟩
  | maybeHeartbeat now =>
    show (s.maybeHeartbeat now).1.Counted
    rw [SseSubscriber.maybeHeartbeat]
    split_ifs with hdue hsize
    · exact ⟨rfl, Nat.zero_le _⟩
    · -- a heartbeat is due only when the queue is empty
      obtain ⟨-, hqueue, -⟩ := maybeHeartbeat_of_due hdue
      have hzero : s.queuedBytes = 0 := by rw [h.eq, hqueue, bytes_nil]
      refine ⟨?_, ?_⟩
      · show s.queuedBytes + kHeartbeatFrame.length = bytes (s.queue ++ [_])
        rw [hzero, hqueue]
        simp
      · show s.queuedBytes + kHeartbeatFrame.length ≤ s.maxQueuedBytes
        rw [hzero, Nat.zero_add]
        exact not_lt.1 hsize
    · exact h
  | beginClose => exact ⟨h.eq, h.le⟩
  | onAttached notifier => exact ⟨h.eq, h.le⟩
  | onDetached => exact ⟨rfl, Nat.zero_le _⟩

theorem Counted.applyAll (h : s.Counted) (calls : List (Call ν)) : (s.applyAll calls).Counted := by
  induction calls generalizing s with
  | nil => exact h
  | cons call rest ih => exact ih (h.apply call)

/-! ### Overflows -/

/-- The counter is the number of overflows, and an open subscriber has had fewer than four. -/
structure Patient (s : SseSubscriber ν) (count : ℕ) : Prop where
  eq : s.consecutiveOverflows = count
  lt : s.closed = false → count < kOverflowsBeforeDisconnect

theorem Patient.apply {count : ℕ} (h : s.Patient count) (call : Call ν) : (s.apply call).Patient
    (if s.overflows call then count + 1 else if s.takes call then 0 else count) := by
  cases call with
  | enqueue frame =>
    show (s.enqueue frame).1.Patient (if _ then _ else count)
    rcases enqueue_cases frame s with ⟨hclosed, heq⟩ | ⟨hopen, hsize, heq⟩ | ⟨hopen, hsize, heq⟩
    · have hnot : s.overflows (.enqueue frame) = false := by simp [overflows, hclosed]
      rw [heq, hnot]
      exact h
    · have hnot : s.overflows (.enqueue frame) = false := by simp [overflows, not_le.2 hsize]
      rw [heq, hnot]
      exact ⟨h.eq, by rintro ⟨⟩⟩
    · have hdrops : s.overflows (.enqueue frame) = s.drops frame.text.length := by
        simp [overflows, hopen, hsize]
      have hcount : (s.withFrame frame).consecutiveOverflows =
          if s.drops frame.text.length then count + 1 else count := by
        rw [← h.eq]
        rfl
      rw [heq, hdrops]
      cases hdropped : s.drops frame.text.length with
      | false =>
        rw [hdropped] at hcount
        exact ⟨hcount, fun _ => h.lt hopen⟩
      | true =>
        rw [hdropped] at hcount
        simp only [true_and, if_true]
        split_ifs with hfourth
        · exact ⟨hcount, by rintro ⟨⟩⟩
        · refine ⟨hcount, fun _ => ?_⟩
          rw [h.eq] at hfourth
          exact not_le.1 hfourth
  | pull now =>
    show (s.pull now).2.2.Patient (if !s.queue.isEmpty then 0 else count)
    rw [SseSubscriber.pull]
    cases s.queue.isEmpty with
    | true => exact h
    | false => exact ⟨rfl, fun _ => Nat.zero_lt_succ 3⟩
  | maybeHeartbeat now =>
    show (s.maybeHeartbeat now).1.Patient count
    rw [SseSubscriber.maybeHeartbeat]
    split_ifs
    · exact ⟨h.eq, by rintro ⟨⟩⟩
    · exact ⟨h.eq, h.lt⟩
    · exact h
  | beginClose => exact ⟨h.eq, by rintro ⟨⟩⟩
  | onAttached notifier => exact ⟨h.eq, h.lt⟩
  | onDetached => exact ⟨h.eq, by rintro ⟨⟩⟩

theorem Patient.applyAll {count : ℕ} (h : s.Patient count) (calls : List (Call ν)) :
    (s.applyAll calls).Patient (s.overflowsSince count calls) := by
  induction calls generalizing s count with
  | nil => exact h
  | cons call rest ih => exact ih (h.apply call)

/-! ### After the close -/

/-- A call on a closed subscriber leaves it closed, and its queue as it was or empty. -/
theorem apply_of_closed (h : s.closed = true) (call : Call ν) :
    (s.apply call).closed = true ∧ ((s.apply call).queue = s.queue ∨ (s.apply call).queue = []) := by
  cases call with
  | enqueue frame =>
    show (s.enqueue frame).1.closed = true ∧ _
    rw [SseSubscriber.apply, enqueue_of_closed frame h]
    exact ⟨h, .inl rfl⟩
  | pull now =>
    obtain ⟨-, hqueue, hclosed, -⟩ := pull_spec now s
    exact ⟨hclosed.trans h, .inr hqueue⟩
  | maybeHeartbeat now =>
    have hdue : ¬ s.heartbeatDue now = true := by simp [heartbeatDue, h]
    show (s.maybeHeartbeat now).1.closed = true ∧ _
    rw [SseSubscriber.apply, maybeHeartbeat_of_not_due hdue]
    exact ⟨h, .inl rfl⟩
  | beginClose => exact ⟨rfl, .inl rfl⟩
  | onAttached notifier => exact ⟨h, .inl rfl⟩
  | onDetached => exact ⟨rfl, .inr rfl⟩

theorem applyAll_of_closed (h : s.closed = true) (calls : List (Call ν)) :
    (s.applyAll calls).closed = true ∧
      ((s.applyAll calls).queue = s.queue ∨ (s.applyAll calls).queue = []) := by
  induction calls generalizing s with
  | nil => exact ⟨h, .inl rfl⟩
  | cons call rest ih =>
    obtain ⟨hclosed, hqueue⟩ := apply_of_closed h call
    obtain ⟨hclosed', hqueue'⟩ := ih hclosed
    refine ⟨hclosed', ?_⟩
    rcases hqueue' with hsame | hnil
    · exact hqueue.imp hsame.trans hsame.trans
    · exact .inr hnil

/-- **The queue of a subscriber.**  After the constructor and any calls: the count is the size of the
queued frames and within the limit, and no subtraction of an `enqueue` goes below zero.  An
`enqueue` that leaves the subscriber open drops the fewest of the oldest frames that make room, and
puts the new frame last; it drops some exactly when the frame may be queued but does not fit behind
them.  The fourth that drops frames since a pull has taken some closes the subscriber, and so does a
frame above the limit, both with an empty queue.  After that no frame is added. -/
theorem subscriber_queue (options : SseOptions) (now : TimePoint) (calls : List (Call ν)) :
    let s := (init options now : SseSubscriber ν).applyAll calls
    s.queuedBytes = bytes s.queue ∧ s.queuedBytes ≤ s.maxQueuedBytes ∧
    (∀ frame : SharedFrame, ∀ pair ∈
      subtractions frame.text.length s.maxQueuedBytes s.queue s.queuedBytes, pair.2 ≤ pair.1) ∧
    (∀ frame : SharedFrame, s.closed = false → (s.enqueue frame).1.closed = false →
      ∃ removed kept, s.queue = removed ++ kept ∧ (s.enqueue frame).1.queue = kept ++ [frame] ∧
        ∀ removed' kept', s.queue = removed' ++ kept' →
          bytes kept' + frame.text.length ≤ s.maxQueuedBytes → removed.length ≤ removed'.length) ∧
    (∀ frame : SharedFrame, s.overflows (.enqueue frame) = true ↔ s.closed = false ∧
      frame.text.length ≤ s.maxQueuedBytes ∧
      s.maxQueuedBytes < bytes s.queue + frame.text.length) ∧
    (∀ frame : SharedFrame, s.overflows (.enqueue frame) = true →
      overflowsSince (init options now) 0 calls ≤ 3 ∧
      ((s.enqueue frame).1.closed = true ↔ overflowsSince (init options now) 0 calls = 3) ∧
      ((s.enqueue frame).1.closed = true → (s.enqueue frame).1.queue = [])) ∧
    (∀ frame : SharedFrame, s.closed = false → s.maxQueuedBytes < frame.text.length →
      (s.enqueue frame).1.closed = true ∧ (s.enqueue frame).1.queue = []) ∧
    (s.closed = true → ∀ later : List (Call ν), (s.applyAll later).closed = true ∧
      ((s.applyAll later).queue = s.queue ∨ (s.applyAll later).queue = [])) := by
  intro s
  have hcounted : s.Counted := (init_counted options now).applyAll calls
  have hstart : (init options now : SseSubscriber ν).Patient 0 := by
    refine ⟨?_, fun _ => by decide⟩
    rw [init]
    dsimp only
    split_ifs <;> rfl
  have hpatient : s.Patient (overflowsSince (init options now) 0 calls) := hstart.applyAll calls
  refine ⟨hcounted.eq, hcounted.le, fun frame => subtractions_le hcounted.eq hcounted.le, ?_, ?_,
    ?_, ?_, applyAll_of_closed⟩
  · intro frame hopen hstays
    rcases enqueue_cases frame s with ⟨hclosed, -⟩ | ⟨-, -, heq⟩ | ⟨-, hsize, heq⟩
    · rw [hopen] at hclosed
      cases hclosed
    · rw [heq] at hstays
      cases hstays
    · obtain ⟨removed, hsplit, -, -, hleast⟩ := makeRoom_spec hsize hcounted.eq hcounted.le
      refine ⟨removed, _, hsplit, ?_, hleast⟩
      rw [heq] at hstays ⊢
      split_ifs at hstays ⊢
      · cases hstays
      · rfl
  · intro frame
    simp only [overflows, Bool.and_eq_true, Bool.not_eq_true', decide_eq_true_eq, and_assoc]
    exact and_congr_right fun _ => and_congr_right fun hsize => hcounted.drops_iff hsize
  · intro frame hoverflows
    have hparts := hoverflows
    simp only [overflows, Bool.and_eq_true, Bool.not_eq_true', decide_eq_true_eq] at hparts
    obtain ⟨⟨hopen, hsize⟩, hdrops⟩ := hparts
    have hlt := hpatient.lt hopen
    rcases enqueue_cases frame s with ⟨hclosed, -⟩ | ⟨-, hlarge, -⟩ | ⟨-, -, heq⟩
    · rw [hopen] at hclosed
      cases hclosed
    · omega
    · rw [heq, hpatient.eq]
      simp only [hdrops, true_and, kOverflowsBeforeDisconnect] at hlt ⊢
      split_ifs with hfourth
      · exact ⟨by omega, iff_of_true rfl (by omega), fun _ => rfl⟩
      · refine ⟨by omega, iff_of_false ?_ (by omega), fun hclosed => ?_⟩
        · show ¬ s.closed = true
          rw [hopen]
          decide
        · exact absurd hclosed (by show ¬ s.closed = true; rw [hopen]; decide)
  · intro frame hopen hlarge
    rcases enqueue_cases frame s with ⟨hclosed, -⟩ | ⟨-, -, heq⟩ | ⟨-, hsize, -⟩
    · rw [hopen] at hclosed
      cases hclosed
    · rw [heq]
      exact ⟨rfl, rfl⟩
    · omega

end SseSubscriber

end ErikslundHttp
