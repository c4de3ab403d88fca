import Mathlib.Algebra.BigOperators.Fin
import Mathlib.Data.List.FinRange

/-!
# Things that one of several parties holds

Each of `n` parties has a list of the keys of what it holds.

* `Owned`: together they hold each live key once, and no other.
* `Owned.update`: a party that takes a fresh key, gives one back, or exchanges one keeps that.
* `Owned.sum_countP`: what is counted over the parties is what is counted over the live keys.
-/

namespace ErikslundHttp.Ownership

open Finset

variable {n : ℕ} {α κ : Type*}

/-- A sum over the parties, when one of them changes. -/
theorem sum_put {M : Type*} [AddCommMonoid M] (f : α → M) (a : Fin n → α) (i : Fin n) (x : α) :
    ∑ j, f (Function.update a i x j) + f (a i) = ∑ j, f (a j) + f x := by
  have hput : ∑ j, f (Function.update a i x j) = f x + ∑ j ∈ univ \ {i}, f (a j) := by
    rw [← sum_update_of_mem (mem_univ i), ← Function.comp_def f a, ← Function.comp_update]
    rfl
  have hold : ∑ j, f (a j) = ∑ j ∈ univ \ {i}, f (a j) + f (a i) := by
    rw [← sum_sdiff (subset_univ {i}), sum_singleton]
  rw [hput, hold, add_assoc, add_comm]

variable [DecidableEq κ] {held : Fin n → List κ} {live live' : κ → Bool}

/-- What is live is held by exactly one holder, once; and nothing else is held. -/
def Owned (held : Fin n → List κ) (live : κ → Bool) : Prop :=
  ∀ key, ∑ i, (held i).count key = (live key).toNat

theorem Owned.update (h : Owned held live) (i : Fin n) (keys : List κ)
    (hkeys : ∀ key, keys.count key + (live key).toNat = (held i).count key + (live' key).toNat) :
    Owned (Function.update held i keys) live' := by
  intro key
  have hsum := sum_put (List.count key) held i keys
  have hlive := h key
  have hkey := hkeys key
  omega

theorem Owned.live_of_mem (h : Owned held live) {i : Fin n} {key : κ} (hmem : key ∈ held i) :
    live key = true := by
  have hpos := List.count_pos_iff.2 hmem
  have hsum := sum_put (List.count key) held i []
  have hlive := h key
  rw [List.count_nil] at hsum
  cases hkey : live key with
  | true => rfl
  | false =>
    rw [hkey, Bool.toNat_false] at hlive
    omega

/-- What the parties hold, in any list of the live keys. -/
theorem Owned.perm (h : Owned held live) {keys : List κ}
    (hkeys : ∀ key, keys.count key = (live key).toNat) :
    ((List.finRange n).flatMap held).Perm keys := by
  refine List.perm_iff_count.2 fun key => ?_
  rw [List.count_flatMap, hkeys, ← h key, Fin.sum_univ_def]
  rfl

theorem Owned.sum_countP (h : Owned held live) {keys : List κ}
    (hkeys : ∀ key, keys.count key = (live key).toNat) (p : κ → Bool) :
    ∑ i, (held i).countP p = keys.countP p := by
  rw [← (h.perm hkeys).countP_eq, List.countP_flatMap, Fin.sum_univ_def]
  rfl

end ErikslundHttp.Ownership
