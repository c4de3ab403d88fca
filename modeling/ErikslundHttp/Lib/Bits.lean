import Mathlib.Data.Nat.Bitwise
import Mathlib.Tactic.SplitIfs

/-!
# Bits of a byte string

The bits of some bytes, from the most significant bit of the first byte on, and what it means that
two byte strings agree on the first bits (`Agree`).

Code compares whole bytes and masks the byte in which the bits end; `agree_iff` says that this is
the comparison of the bits.
-/

namespace ErikslundHttp

namespace Bits

variable {n : ℕ}

/-- The byte of that index, `0` outside. -/
def byteAt (bytes : Vector UInt8 n) (index : ℕ) : UInt8 := bytes[index]?.getD 0

/-- A bit of some bytes, the highest one of the first byte first. -/
def bit (bytes : Vector UInt8 n) (i : ℕ) : Bool :=
  (byteAt bytes (i / 8)).toNat.testBit (7 - i % 8)

/-- The first `count` bits are the same. -/
def Agree (count : ℕ) (a b : Vector UInt8 n) : Prop := ∀ i < count, bit a i = bit b i

theorem Agree.refl (count : ℕ) (a : Vector UInt8 n) : Agree count a a := fun _ _ => rfl

theorem Agree.symm {count : ℕ} {a b : Vector UInt8 n} (h : Agree count a b) : Agree count b a :=
  fun i hi => (h i hi).symm

theorem Agree.trans {count : ℕ} {a b c : Vector UInt8 n} (h : Agree count a b)
    (h' : Agree count b c) : Agree count a c := fun i hi => (h i hi).trans (h' i hi)

theorem Agree.mono {count count' : ℕ} {a b : Vector UInt8 n} (h : Agree count a b)
    (hle : count' ≤ count) : Agree count' a b := fun i hi => h i (lt_of_lt_of_le hi hle)

/-! ### One byte -/

/-- The mask of the first `count` bits of a byte; it may have bits above the byte. -/
def mask (count : ℕ) : ℕ := 0xFF <<< (8 - count)

theorem testBit_mask {count j : ℕ} (hcount : count ≤ 8) (hj : j < 8) :
    (mask count).testBit (7 - j) = decide (j < count) := by
  rw [mask, show 0xFF = 2 ^ 8 - 1 from rfl, Nat.testBit_shiftLeft, Nat.testBit_two_pow_sub_one]
  by_cases h : j < count
  · simp [h, show 8 - count ≤ 7 - j by omega, show 7 - j - (8 - count) < 8 by omega]
  · simp [h, show ¬ 8 - count ≤ 7 - j by omega]

theorem testBit_toNat_of_le {b : UInt8} {k : ℕ} (h : 8 ≤ k) : b.toNat.testBit k = false :=
  Nat.testBit_lt_two_pow (lt_of_lt_of_le b.toNat_lt (Nat.pow_le_pow_right (by decide) h))

theorem masked_eq_iff {a b : UInt8} {count : ℕ} (hcount : count ≤ 8) :
    a.toNat &&& mask count = b.toNat &&& mask count ↔
      ∀ j < count, a.toNat.testBit (7 - j) = b.toNat.testBit (7 - j) := by
  constructor
  · intro h j hj
    have hbit := congrArg (Nat.testBit · (7 - j)) h
    simpa [Nat.testBit_land, testBit_mask hcount (show j < 8 by omega), hj] using hbit
  · intro h
    refine Nat.eq_of_testBit_eq fun k => ?_
    rw [Nat.testBit_land, Nat.testBit_land]
    by_cases hk : k < 8
    · have hmask := testBit_mask hcount (show 7 - k < 8 by omega)
      rw [show 7 - (7 - k) = k by omega] at hmask
      by_cases hj : 7 - k < count
      · have hbit := h (7 - k) hj
        rw [show 7 - (7 - k) = k by omega] at hbit
        rw [hbit]
      · simp [hmask, hj]
    · rw [testBit_toNat_of_le (not_lt.1 hk), testBit_toNat_of_le (not_lt.1 hk)]

theorem mask_eight : mask 8 = 2 ^ 8 - 1 := rfl

theorem toNat_land_mask_eight (b : UInt8) : b.toNat &&& mask 8 = b.toNat := by
  rw [mask_eight, Nat.and_two_pow_sub_one_eq_mod, Nat.mod_eq_of_lt b.toNat_lt]

/-- Bytes are the same if their bits are. -/
theorem byte_eq_iff {a b : UInt8} :
    a = b ↔ ∀ j < 8, a.toNat.testBit (7 - j) = b.toNat.testBit (7 - j) := by
  rw [← masked_eq_iff le_rfl, toNat_land_mask_eight, toNat_land_mask_eight, UInt8.toNat_inj]

/-! ### Many bytes -/

theorem bit_eq (bytes : Vector UInt8 n) (index : ℕ) {j : ℕ} (hj : j < 8) :
    bit bytes (8 * index + j) = (byteAt bytes index).toNat.testBit (7 - j) := by
  rw [bit, show (8 * index + j) / 8 = index by omega, show (8 * index + j) % 8 = j by omega]

/-- The bits agree byte by byte. -/
theorem agree_iff_bytes {count : ℕ} {a b : Vector UInt8 n} :
    Agree count a b ↔ ∀ index j, j < 8 → 8 * index + j < count →
      (byteAt a index).toNat.testBit (7 - j) = (byteAt b index).toNat.testBit (7 - j) := by
  constructor
  · intro h index j hj hlt
    rw [← bit_eq a index hj, ← bit_eq b index hj, h _ hlt]
  · intro h i hi
    have hbyte := h (i / 8) (i % 8) (Nat.mod_lt _ (by decide)) (by omega)
    rwa [← bit_eq _ _ (Nat.mod_lt _ (by decide)), ← bit_eq _ _ (Nat.mod_lt _ (by decide)),
      show 8 * (i / 8) + i % 8 = i by omega] at hbyte

/-- The bits agree if the whole bytes do, and the masked byte after them. -/
theorem agree_iff {count : ℕ} {a b : Vector UInt8 n} :
    Agree count a b ↔ (∀ index < count / 8, byteAt a index = byteAt b index) ∧
      (byteAt a (count / 8)).toNat &&& mask (count % 8) =
        (byteAt b (count / 8)).toNat &&& mask (count % 8) := by
  rw [agree_iff_bytes, masked_eq_iff (Nat.mod_lt _ (by decide)).le]
  constructor
  · intro h
    exact ⟨fun index hindex => byte_eq_iff.2 fun j hj => h index j hj (by omega),
      fun j hj => h _ j (by omega) (by omega)⟩
  · rintro ⟨hwhole, hrest⟩ index j hj hlt
    -- the bit is in a whole byte or in the masked one
    rcases Nat.lt_or_ge index (count / 8) with hindex | hindex
    · rw [hwhole index hindex]
    · obtain rfl : index = count / 8 := by omega
      exact hrest j (by omega)

end Bits

end ErikslundHttp
