import Mathlib.Data.List.Basic
import Mathlib.Tactic.SplitIfs

/-!
# Groups in a list

`separated size separator count l` is `l` with a separator before every element that would make a
group longer than `size`, when `count` elements of the first group went before.

* `length_separated`: its length is a closed formula.
* `getElem?_separated_iff`: the separators stand at the positions of one residue.
* `filter_separated`: `l` is what is left without them.
-/

namespace ErikslundHttp

namespace Grouping

variable {α : Type*}

/-- A list with a separator after each group, when `count` elements of the first are there. -/
def separated (size : ℕ) (separator : α) : ℕ → List α → List α
  | _, [] => []
  | count, x :: l =>
    if count = size then separator :: x :: separated size separator 1 l
    else x :: separated size separator (count + 1) l

variable {size : ℕ} {separator : α}

theorem length_separated {count : ℕ} (hcount : count ≤ size) (hsize : 0 < size) (l : List α) :
    (separated size separator count l).length = l.length + (count + l.length - 1) / size := by
  induction l generalizing count with
  | nil =>
    rw [separated, List.length_nil, Nat.zero_add, Nat.add_zero, Nat.div_eq_of_lt (by omega)]
  | cons x l ih =>
    rw [separated]
    split_ifs with hfull
    · -- a full group counts for one more separator
      have hrest : (count + (l.length + 1) - 1) / size = l.length / size + 1 := by
        rw [hfull, show size + (l.length + 1) - 1 = l.length + size by omega,
          Nat.add_div_right _ hsize]
      have hgroup := ih (show 1 ≤ size from hsize)
      simp only [List.length_cons, hgroup, hrest]
      rw [show 1 + l.length - 1 = l.length by omega]
      omega
    · rw [List.length_cons, List.length_cons, ih (by omega),
        show count + 1 + l.length - 1 = count + (l.length + 1) - 1 by omega]
      omega

theorem getElem?_separated_iff {count : ℕ} (hcount : count ≤ size) (hsize : 0 < size)
    {l : List α} (hl : separator ∉ l) {i : ℕ}
    (hi : i < (separated size separator count l).length) :
    (separated size separator count l)[i]? = some separator ↔ (count + i) % (size + 1) = size := by
  induction l generalizing count i with
  | nil => cases hi
  | cons x l ih =>
    rw [List.mem_cons, not_or] at hl
    obtain ⟨hx, hl⟩ := hl
    rw [separated] at hi ⊢
    split_ifs at hi ⊢ with hfull
    · subst hfull
      match i with
      | 0 => simp
      | 1 =>
        simp only [List.getElem?_cons_succ, List.getElem?_cons_zero, Option.some.injEq,
          Nat.mod_self]
        exact ⟨fun h => absurd h.symm hx, fun h => absurd h (by omega)⟩
      | i + 2 =>
        have hlength : i < (separated count separator 1 l).length := by simpa using hi
        rw [List.getElem?_cons_succ, List.getElem?_cons_succ, ih hsize hl hlength,
          show count + (i + 2) = 1 + i + (count + 1) by omega, Nat.add_mod_right]
    · cases i with
      | zero =>
        simp only [List.getElem?_cons_zero, Option.some.injEq, Nat.add_zero]
        rw [Nat.mod_eq_of_lt (by omega)]
        exact ⟨fun h => absurd h.symm hx, fun h => absurd h hfull⟩
      | succ i =>
        have hlength : i < (separated size separator (count + 1) l).length := by simpa using hi
        rw [List.getElem?_cons_succ, ih (by omega) hl hlength,
          show count + 1 + i = count + (i + 1) by omega]

theorem filter_separated [DecidableEq α] {count : ℕ} {l : List α} (hl : separator ∉ l) :
    (separated size separator count l).filter (· ≠ separator) = l := by
  induction l generalizing count with
  | nil => rfl
  | cons x l ih =>
    rw [List.mem_cons, not_or] at hl
    obtain ⟨hx, hl⟩ := hl
    rw [separated]
    split_ifs
    · simpa [Ne.symm hx] using ih hl
    · simpa [Ne.symm hx] using ih hl

/-- The separators stand between elements. -/
theorem getLast?_separated (size : ℕ) (separator : α) (count : ℕ) (l : List α) :
    (separated size separator count l).getLast? = l.getLast? := by
  induction l generalizing count with
  | nil => rfl
  | cons x l ih =>
    rw [separated]
    split_ifs
    · rw [List.getLast?_cons_cons, List.getLast?_cons, ih, List.getLast?_cons]
    · rw [List.getLast?_cons, ih, List.getLast?_cons]

end Grouping

end ErikslundHttp
