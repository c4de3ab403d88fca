import ErikslundHttp.Lib.Transitions
import ErikslundHttp.Lib.Windows
import ErikslundHttp.Request.Basic

/-!
# The limiter of peer-triggered log messages

What a peer can make the server log goes through one limiter for all reactors (`logger.cpp`).  A
call of `write_peer` reads the clock, takes the mutex and decides what it will log, and logs it
after it has released the mutex.  So the calls take the mutex in any order, whatever the clock told
them, and the messages of different calls come out in any order as well.
-/

namespace ErikslundHttp

open Transitions Windows

/-- The levels of the log. -/
inductive LogLevel where
  | debug
  | info
  | warning
  | error
  deriving DecidableEq, Repr

/-- What the sink gets. -/
structure LogRecord where
  level : LogLevel
  message : String
  deriving DecidableEq, Repr

/-- So many messages are logged in a window. -/
def kPeerLogBurst : ℕ := 16

/-- In nanoseconds. -/
def kPeerLogWindow : ℤ := 10000000000

/-- What `peer_mutex_` guards. -/
structure PeerLimiter where
  /-- When the present window began. -/
  windowStarted : TimePoint := 0
  /-- How many messages passed in it. -/
  messages : ℕ := 0
  /-- The window has reported that messages are suppressed. -/
  suppressionReported : Bool := false
  deriving DecidableEq, Repr

/-- A call of `write_peer`, with what it read from the clock. -/
structure PeerCall where
  moment : TimePoint
  record : LogRecord

/-- The message in place of the next one. -/
def suppressionNotice : LogRecord :=
  ⟨.warning, "further peer-triggered log messages are suppressed for 10s"⟩

/-- `Logger::write_peer` under the mutex, with what it is to log afterwards. -/
def PeerLimiter.writePeer (limiter : PeerLimiter) (call : PeerCall) :
    Option LogRecord × PeerLimiter :=
  let limiter :=
    if limiter.windowStarted = 0 ∨ kPeerLogWindow ≤ call.moment - limiter.windowStarted then
      { windowStarted := call.moment, messages := 0, suppressionReported := false }
    else
      limiter
  if limiter.messages < kPeerLogBurst then
    (some call.record, { limiter with messages := limiter.messages + 1 })
  else if !limiter.suppressionReported then
    (some suppressionNotice, { limiter with suppressionReported := true })
  else
    (none, limiter)

/-- The limiter, what calls are still to log, and what `write` was called with. -/
structure Logger where
  limiter : PeerLimiter := {}
  /-- What a call has decided to log, and not logged yet. -/
  pending : List LogRecord := []
  /-- What the sink got. -/
  written : List LogRecord := []

/-- A step of a call of `write_peer`. -/
inductive LoggerStep where
  | limit (call : PeerCall)
  /-- One of the calls that released the mutex logs its message. -/
  | write (index : ℕ)

/-- The calls take the mutex one by one, and log in any order. -/
def Logger.step (logger : Logger) : LoggerStep → Option Logger
  | .limit call =>
    let (record, limiter) := logger.limiter.writePeer call
    some { logger with limiter, pending := logger.pending ++ record.toList }
  | .write index =>
    logger.pending[index]?.map fun record =>
      { logger with
        pending := logger.pending.eraseIdx index, written := logger.written ++ [record] }

/-- The call that takes the mutex. -/
def LoggerStep.call? : LoggerStep → Option PeerCall
  | .limit call => some call
  | .write _ => none

/-- What the calls of one window log: the burst, then one notice if there are more. -/
def windowRecords (window : List PeerCall) : List LogRecord :=
  (window.take kPeerLogBurst).map (·.record) ++
    if kPeerLogBurst < window.length then [suppressionNotice] else []

/-! ### One window -/

namespace PeerLimiter

variable {start a b : TimePoint} {j : ℕ} {call : PeerCall} {calls : List PeerCall}

/-- The limiter after `j` calls in the window that began at `start`. -/
def after (start : TimePoint) (j : ℕ) : PeerLimiter :=
  { windowStarted := start, messages := min j kPeerLogBurst,
    suppressionReported := decide (kPeerLogBurst < j) }

/-- What the calls of a window log once there have been `j` of them. -/
def recordsFrom (j : ℕ) (window : List PeerCall) : List LogRecord :=
  (window.take (kPeerLogBurst - j)).map (·.record) ++
    if j ≤ kPeerLogBurst ∧ kPeerLogBurst < j + window.length then [suppressionNotice] else []

theorem recordsFrom_zero (window : List PeerCall) : recordsFrom 0 window = windowRecords window := by
  unfold recordsFrom windowRecords
  simp only [Nat.sub_zero, Nat.zero_le, true_and, Nat.zero_add]

theorem recordsFrom_nil (j : ℕ) : recordsFrom j [] = [] := by
  rw [recordsFrom, List.take_nil, List.map_nil, List.nil_append,
    if_neg (by rintro ⟨hle, hlt⟩; exact not_lt.2 hle hlt)]

theorem length_recordsFrom_le (j : ℕ) (window : List PeerCall) :
    (recordsFrom j window).length ≤ kPeerLogBurst + 1 := by
  unfold recordsFrom
  rw [List.length_append, List.length_map, List.length_take]
  split_ifs
  · rw [List.length_singleton]
    omega
  · rw [List.length_nil]
    omega

/-- What the next call of the window logs. -/
def outcome (j : ℕ) (call : PeerCall) : Option LogRecord :=
  if j < kPeerLogBurst then some call.record
  else if j = kPeerLogBurst then some suppressionNotice
  else none

theorem recordsFrom_cons (j : ℕ) (call : PeerCall) (window : List PeerCall) :
    recordsFrom j (call :: window) = (outcome j call).toList ++ recordsFrom (j + 1) window := by
  unfold recordsFrom outcome
  rw [List.length_cons]
  obtain hless | rfl | hmore := Nat.lt_trichotomy j kPeerLogBurst
  · obtain ⟨k, hk⟩ : ∃ k, kPeerLogBurst - j = k + 1 := ⟨kPeerLogBurst - (j + 1), by omega⟩
    rw [hk, List.take_succ_cons, show kPeerLogBurst - (j + 1) = k by omega, if_pos hless,
      List.map_cons, Nat.add_right_comm, Nat.add_assoc j]
    simp only [Option.toList_some, List.cons_append, List.nil_append, hless.le,
      Nat.succ_le_of_lt hless, true_and]
  · have hno : ¬ kPeerLogBurst + 1 ≤ kPeerLogBurst := Nat.not_succ_le_self _
    simp [hno]
  · have h1 : ¬ j ≤ kPeerLogBurst := not_le.2 hmore
    have h2 : ¬ j + 1 ≤ kPeerLogBurst := by omega
    simp only [h1, h2, false_and, if_false, not_lt.2 hmore.le, hmore.ne',
      Nat.sub_eq_zero_of_le hmore.le, Nat.sub_eq_zero_of_le (Nat.le_succ_of_le hmore.le),
      List.take_zero, List.map_nil, Option.toList_none, List.append_nil]

/-- What a call decides once it is clear which window it is in. -/
private theorem writePeer_after (start : TimePoint) (j : ℕ) (call : PeerCall) :
    (if (after start j).messages < kPeerLogBurst then
      (some call.record, { after start j with messages := (after start j).messages + 1 })
    else if !(after start j).suppressionReported then
      (some suppressionNotice, { after start j with suppressionReported := true })
    else
      (none, after start j)) = (outcome j call, after start (j + 1)) := by
  unfold after outcome
  obtain hless | rfl | hmore := Nat.lt_trichotomy j kPeerLogBurst
  · rw [if_pos (by rw [Nat.min_eq_left hless.le]; exact hless), if_pos hless,
      Nat.min_eq_left hless.le, Nat.min_eq_left (Nat.succ_le_of_lt hless),
      decide_eq_false (not_lt.2 hless.le), decide_eq_false (not_lt.2 (Nat.succ_le_of_lt hless))]
  · simp
  · rw [if_neg (by rw [Nat.min_eq_right hmore.le]; exact lt_irrefl _), decide_eq_true hmore,
      decide_eq_true (Nat.lt_succ_of_lt hmore), Nat.min_eq_right hmore.le,
      Nat.min_eq_right (Nat.le_succ_of_le hmore.le), if_neg (not_lt.2 hmore.le), if_neg hmore.ne']
    rfl

theorem writePeer_of_opens (h : start = 0 ∨ start + kPeerLogWindow ≤ call.moment) (j : ℕ) :
    (after start j).writePeer call = (outcome 0 call, after call.moment 1) := by
  have hopens : (after start j).windowStarted = 0 ∨
      kPeerLogWindow ≤ call.moment - (after start j).windowStarted :=
    h.imp id Int.le_sub_left_of_add_le
  rw [writePeer, if_pos hopens]
  exact writePeer_after call.moment 0 call

theorem writePeer_of_not_opens (hstart : 0 < start) (h : ¬ start + kPeerLogWindow ≤ call.moment)
    (j : ℕ) : (after start j).writePeer call = (outcome j call, after start (j + 1)) := by
  have hstays : ¬ ((after start j).windowStarted = 0 ∨
      kPeerLogWindow ≤ call.moment - (after start j).windowStarted) := by
    rintro (hzero | hlate)
    · exact hstart.ne' hzero
    · exact h (Int.add_le_of_le_sub_left hlate)
  rw [writePeer, if_neg hstays]
  exact writePeer_after start j call

/-- The first call of the process opens a window. -/
theorem writePeer_first (call : PeerCall) :
    ({} : PeerLimiter).writePeer call = (outcome 0 call, after call.moment 1) :=
  -- a limiter that was never used is one whose window began at the epoch
  show (after 0 0).writePeer call = _ from writePeer_of_opens (.inl rfl) 0

/-! ### All calls -/

/-- The calls in the order in which they take the mutex. -/
def run (limiter : PeerLimiter) : List PeerCall → List LogRecord × PeerLimiter
  | [] => ([], limiter)
  | call :: calls =>
    let (record, limiter) := limiter.writePeer call
    let (records, limiter) := limiter.run calls
    (record.toList ++ records, limiter)

theorem run_cons (limiter : PeerLimiter) (call : PeerCall) (calls : List PeerCall) :
    limiter.run (call :: calls) =
      ((limiter.writePeer call).1.toList ++ ((limiter.writePeer call).2.run calls).1,
        ((limiter.writePeer call).2.run calls).2) := rfl

/-- The rest of the window, and the windows after it. -/
theorem run_after (hstart : 0 < start) (hclock : ∀ call ∈ calls, 0 < call.moment) (j : ℕ) :
    ∃ start' j', 0 < start' ∧ (after start j).run calls =
      (recordsFrom j (split PeerCall.moment kPeerLogWindow start calls).1 ++
        (split PeerCall.moment kPeerLogWindow start calls).2.flatMap windowRecords,
        after start' j') := by
  induction calls generalizing start j with
  | nil =>
    refine ⟨start, j, hstart, ?_⟩
    rw [run, split, List.flatMap_nil, List.append_nil, recordsFrom_nil]
  | cons call calls ih =>
    obtain ⟨hcall, hcalls⟩ := List.forall_mem_cons.1 hclock
    rw [run_cons]
    by_cases hopens : start + kPeerLogWindow ≤ call.moment
    · -- the call is the first of the next window
      obtain ⟨start', j', hstart', hrest⟩ := ih hcall hcalls 1
      refine ⟨start', j', hstart', ?_⟩
      rw [writePeer_of_opens (.inr hopens), split_of_opens hopens, hrest, List.flatMap_cons, ← recordsFrom_zero (_ :: _),
        recordsFrom_cons, recordsFrom_nil, List.nil_append, List.append_assoc]
    · obtain ⟨start', j', hstart', hrest⟩ := ih hstart hcalls (j + 1)
      refine ⟨start', j', hstart', ?_⟩
      rw [writePeer_of_not_opens hstart hopens, split_of_not_opens hopens, hrest, recordsFrom_cons, List.append_assoc]

/-- From the first call of the process on. -/
theorem run_windows (hclock : ∀ call ∈ calls, 0 < call.moment) :
    (({} : PeerLimiter).run calls).1 =
      (windows PeerCall.moment kPeerLogWindow calls).flatMap windowRecords := by
  cases calls with
  | nil => rfl
  | cons call calls =>
    obtain ⟨hcall, hcalls⟩ := List.forall_mem_cons.1 hclock
    obtain ⟨start', j', -, hrest⟩ := run_after hcall hcalls 1
    rw [run_cons, writePeer_first, hrest, windows, List.flatMap_cons, ← recordsFrom_zero (_ :: _),
      recordsFrom_cons, List.append_assoc]

/-- The limiter before the first call, and between two calls. -/
def Between (limiter : PeerLimiter) : Prop :=
  limiter = {} ∨ ∃ start j, 0 < start ∧ limiter = after start j

theorem between_run {limiter : PeerLimiter} (h : limiter.Between)
    (hclock : ∀ call ∈ calls, 0 < call.moment) : (limiter.run calls).2.Between := by
  obtain rfl | ⟨start, j, hstart, rfl⟩ := h
  · cases calls with
    | nil => exact .inl rfl
    | cons call calls =>
      obtain ⟨hcall, hcalls⟩ := List.forall_mem_cons.1 hclock
      obtain ⟨start', j', hstart', hrest⟩ := run_after hcall hcalls 1
      rw [run_cons, writePeer_first, hrest]
      exact .inr ⟨start', j', hstart', rfl⟩
  · obtain ⟨start', j', hstart', hrest⟩ := run_after hstart hclock j
    rw [hrest]
    exact .inr ⟨start', j', hstart', rfl⟩

theorem length_flatMap_windowRecords_le (windows : List (List PeerCall)) :
    (windows.flatMap windowRecords).length ≤ (kPeerLogBurst + 1) * windows.length := by
  induction windows with
  | nil => exact Nat.zero_le _
  | cons window windows ih =>
    have hfirst := length_recordsFrom_le 0 window
    rw [recordsFrom_zero] at hfirst
    rw [List.flatMap_cons, List.length_append, List.length_cons, Nat.mul_add, Nat.mul_one]
    omega

/-- In a span of time, what the calls log. -/
theorem length_run_le {limiter : PeerLimiter} (h : limiter.Between) (ha : 0 < a)
    (hspan : ∀ call ∈ calls, a ≤ call.moment ∧ call.moment ≤ b) :
    (limiter.run calls).1.length ≤
      (kPeerLogBurst + 1) * (((b - a) / kPeerLogWindow).toNat + 2) := by
  have hclock : ∀ call ∈ calls, 0 < call.moment := fun call hcall =>
    lt_of_lt_of_le ha (hspan call hcall).1
  have hwindow : 0 < kPeerLogWindow := by decide
  obtain rfl | ⟨start, j, hstart, rfl⟩ := h
  · rw [run_windows hclock]
    refine le_trans (length_flatMap_windowRecords_le _) (Nat.mul_le_mul_left _ ?_)
    cases calls with
    | nil => exact Nat.zero_le _
    | cons call calls =>
      have hlater := length_split_le call.moment hwindow
        (List.forall_mem_cons.1 hspan).2
      rw [windows, List.length_cons]
      omega
  · obtain ⟨start', j', -, hrest⟩ := run_after hstart hclock j
    have hfirst := length_recordsFrom_le j (split PeerCall.moment kPeerLogWindow start calls).1
    have hlater := length_flatMap_windowRecords_le
      (split PeerCall.moment kPeerLogWindow start calls).2
    have hfew := Nat.mul_le_mul_left (kPeerLogBurst + 1)
      (length_split_le start hwindow hspan)
    rw [hrest, List.length_append]
    rw [Nat.mul_add, Nat.mul_one] at hfew
    rw [Nat.mul_add]
    omega

end PeerLimiter

/-! ### The logger -/

namespace Logger

variable {logger logger' : Logger} {steps steps' : List LoggerStep} {a b : TimePoint}

/-- What a run logs is what its calls are to log, in some order. -/
theorem run_spec (h : Run step logger steps logger') :
    logger'.limiter = (logger.limiter.run (steps.filterMap LoggerStep.call?)).2 ∧
      (logger'.written ++ logger'.pending).Perm
        (logger.written ++ logger.pending ++
          (logger.limiter.run (steps.filterMap LoggerStep.call?)).1) := by
  induction h with
  | nil logger =>
    refine ⟨rfl, ?_⟩
    rw [List.filterMap_nil, PeerLimiter.run, List.append_nil]
  | @cons logger logger₁ logger' action actions hstep _ ih =>
    obtain ⟨hlimiter, hperm⟩ := ih
    cases action with
    | limit call =>
      obtain rfl : { logger with
          limiter := (logger.limiter.writePeer call).2
          pending := logger.pending ++ (logger.limiter.writePeer call).1.toList } = logger₁ :=
        Option.some.inj hstep
      rw [List.filterMap_cons_some (f := LoggerStep.call?) rfl, PeerLimiter.run_cons]
      refine ⟨hlimiter, hperm.trans (List.Perm.of_eq ?_)⟩
      simp only [List.append_assoc]
    | write index =>
      obtain ⟨record, hrecord, rfl⟩ := Option.map_eq_some_iff.1 hstep
      rw [List.filterMap_cons_none (f := LoggerStep.call?) rfl]
      refine ⟨hlimiter, hperm.trans (List.Perm.append_right _ ?_)⟩
      -- the record goes from the pending ones to the written ones
      obtain ⟨hindex, rfl⟩ := List.getElem?_eq_some_iff.1 hrecord
      simp only [List.append_assoc, List.singleton_append]
      exact List.Perm.append_left _ (List.getElem_cons_eraseIdx_perm hindex)

/-- The calls of the process, cut into windows in the order in which they took the mutex: a window
logs its first calls, then one notice, then nothing.  Whatever the state, the calls of a span of
time log few messages beside the ones that were pending. -/
theorem peer_log (h : Run step {} steps logger)
    (hclock : ∀ call ∈ steps.filterMap LoggerStep.call?, 0 < call.moment)
    (h' : Run step logger steps' logger') (ha : 0 < a)
    (hspan : ∀ call ∈ steps'.filterMap LoggerStep.call?, a ≤ call.moment ∧ call.moment ≤ b) :
    (logger.written ++ logger.pending).Perm
        ((windows PeerCall.moment kPeerLogWindow (steps.filterMap LoggerStep.call?)).flatMap
          windowRecords) ∧
      logger'.written.length ≤ logger.written.length + logger.pending.length +
        (kPeerLogBurst + 1) * (((b - a) / kPeerLogWindow).toNat + 2) := by
  obtain ⟨hlimiter, hperm⟩ := run_spec h
  obtain ⟨-, hperm'⟩ := run_spec h'
  have hbetween : logger.limiter.Between := by
    rw [hlimiter]
    exact PeerLimiter.between_run (.inl rfl) hclock
  refine ⟨?_, ?_⟩
  · -- the first run begins with a limiter that was never used
    rw [PeerLimiter.run_windows hclock] at hperm
    exact hperm
  · have hlength := hperm'.length_eq
    simp only [List.length_append] at hlength
    have hfew := PeerLimiter.length_run_le hbetween ha hspan
    omega

/-- Eighteen calls of one window, of which seventeen have something to log. -/
def burst : List LoggerStep :=
  List.replicate 18 (.limit ⟨1, ⟨.warning, "connection refused"⟩⟩) ++
    List.replicate 17 (.write 0)

theorem peer_log_burst :
    ∃ logger logger', Run step {} burst logger ∧
      Run step logger [.limit ⟨2, ⟨.info, "bad request"⟩⟩] logger' ∧
      logger.written.length = 17 ∧ logger'.limiter.messages = 16 ∧
      (logger.written ++ logger.pending).Perm
        ((windows PeerCall.moment kPeerLogWindow (burst.filterMap LoggerStep.call?)).flatMap
          windowRecords) ∧
      logger'.written.length ≤ logger.written.length + logger.pending.length +
        (kPeerLogBurst + 1) * (((2 - 2) / kPeerLogWindow).toNat + 2) := by
  obtain ⟨logger, hlogger⟩ : ∃ logger, burst.foldlM step {} = some logger := ⟨_, rfl⟩
  obtain ⟨logger', hlogger'⟩ : ∃ logger',
      [LoggerStep.limit ⟨2, ⟨.info, "bad request"⟩⟩].foldlM step logger = some logger' := ⟨_, rfl⟩
  have hwritten : (burst.foldlM step {}).map (fun s => s.written.length) = some 17 := rfl
  have hmessages : ((burst.foldlM step {}).bind fun s =>
      [LoggerStep.limit ⟨2, ⟨.info, "bad request"⟩⟩].foldlM step s).map
        (fun s => s.limiter.messages) = some 16 := rfl
  rw [hlogger] at hwritten hmessages
  rw [Option.bind_some, hlogger'] at hmessages
  refine ⟨logger, logger', .of_foldlM hlogger, .of_foldlM hlogger', Option.some.inj hwritten,
    Option.some.inj hmessages, ?_⟩
  refine peer_log (.of_foldlM hlogger) (fun call hcall => ?_) (.of_foldlM hlogger') (by decide)
    (fun call hcall => ?_)
  · rw [List.eq_of_mem_replicate (n := 18) hcall]
    exact Int.one_pos
  · cases List.mem_singleton.1 hcall
    exact ⟨le_refl _, le_refl _⟩

end Logger

end ErikslundHttp
