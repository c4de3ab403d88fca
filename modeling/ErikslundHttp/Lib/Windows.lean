import Mathlib.Data.List.Basic
import Mathlib.Data.Int.Cast.Basic

/-!
# Events cut into windows of time

Events come in some order, each with a time that need not fit the order.  A window opens with the
first event whose time is at least `width` after the start of the window before (`split`).

* `length_split_le`: the starts of the windows are `width` apart, so there are few windows in any span
  of time.
-/

namespace ErikslundHttp.Windows

section

variable {α : Type*} (time : α → ℤ) (width : ℤ)

/-- The events of the window that began at `start`, and the windows after it. -/
def split (start : ℤ) : List α → List α × List (List α)
  | [] => ([], [])
  | event :: events =>
    if start + width ≤ time event then
      let (window, later) := split (time event) events
      ([], (event :: window) :: later)
    else
      let (window, later) := split start events
      (event :: window, later)

/-- The first event opens the first window. -/
def windows : List α → List (List α)
  | [] => []
  | event :: events =>
    let (window, later) := split time width (time event) events
    (event :: window) :: later

end

variable {α : Type*} {time : α → ℤ} {width start a b : ℤ} {event : α}
  {events : List α}

theorem split_of_opens (h : start + width ≤ time event) :
    split time width start (event :: events) =
      ([], (event :: (split time width (time event) events).1) ::
        (split time width (time event) events).2) := by
  rw [split, if_pos h]

theorem split_of_not_opens (h : ¬ start + width ≤ time event) :
    split time width start (event :: events) =
      (event :: (split time width start events).1, (split time width start events).2) := by
  rw [split, if_neg h]

/-- The windows that open by the time `b`. -/
theorem length_mul_le (hb : ∀ event ∈ events, time event ≤ b) (hstart : start ≤ b) :
    (split time width start events).2.length * width ≤ b - start := by
  induction events generalizing start with
  | nil =>
    rw [split, List.length_nil, Int.natCast_zero, Int.zero_mul]
    omega
  | cons event events ih =>
    obtain ⟨htime, htimes⟩ := List.forall_mem_cons.1 hb
    by_cases hopens : start + width ≤ time event
    · have hlater := ih htimes htime
      rw [split_of_opens hopens, List.length_cons, Int.natCast_succ, Int.add_mul, Int.one_mul]
      omega
    · rw [split_of_not_opens hopens]
      exact ih htimes hstart

/-- In a span of time, the windows that open. -/
theorem length_split_le (start : ℤ) (hwidth : 0 < width)
    (h : ∀ event ∈ events, a ≤ time event ∧ time event ≤ b) :
    (split time width start events).2.length ≤ ((b - a) / width).toNat + 1 := by
  induction events with
  | nil => exact Nat.zero_le _
  | cons event events ih =>
    obtain ⟨⟨ha, hb⟩, htimes⟩ := List.forall_mem_cons.1 h
    by_cases hopens : start + width ≤ time event
    · -- the first one opens at `a` or later
      have hlater : (split time width (time event) events).2.length * width ≤ b - time event :=
        length_mul_le (fun e he => (htimes e he).2) hb
      have hle : ((split time width (time event) events).2.length : ℤ) ≤ (b - a) / width :=
        (Int.le_ediv_iff_mul_le hwidth).2 (by omega)
      rw [split_of_opens hopens, List.length_cons]
      omega
    · rw [split_of_not_opens hopens]
      exact ih htimes

end ErikslundHttp.Windows
