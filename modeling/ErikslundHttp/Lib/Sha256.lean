import Mathlib.Data.Nat.Prime.Basic
import Mathlib.Data.Nat.NthRoot.Defs
import Mathlib.Data.BitVec

/-!
# SHA-256

The hash of FIPS 180-4 for messages of whole bytes: the padding, the message schedule, the
compression of a block and the fold of it over the blocks (`hash`).  The constants are what the
standard says they are, the first bits of the fractions of the roots of the first primes.

* `primes_eq`: the primes that the constants are roots of.
* `length_pad`, `length_pad_mod`: a padded message is made of whole blocks.
* `schedule_of_lt`, `schedule_of_ge`: the words of a schedule, for a program that keeps them in a
  table.
-/

namespace ErikslundHttp

namespace Sha256

/-- The words of the standard. -/
abbrev Word := BitVec 32

/-! ### Functions and constants -/

/-- The function Ch of the standard: `x` chooses between the bits of `y` and `z`. -/
def ch (x y z : Word) : Word := (x &&& y) ^^^ (~~~x &&& z)

/-- The function Maj: the bit that most of the three have. -/
def maj (x y z : Word) : Word := (x &&& y) ^^^ (x &&& z) ^^^ (y &&& z)

/-- The function Σ₀, of a round. -/
def bigSigma0 (x : Word) : Word := x.rotateRight 2 ^^^ x.rotateRight 13 ^^^ x.rotateRight 22

/-- The function Σ₁, of a round. -/
def bigSigma1 (x : Word) : Word := x.rotateRight 6 ^^^ x.rotateRight 11 ^^^ x.rotateRight 25

/-- The function σ₀, of the schedule. -/
def smallSigma0 (x : Word) : Word := x.rotateRight 7 ^^^ x.rotateRight 18 ^^^ x >>> 3

/-- The function σ₁, of the schedule. -/
def smallSigma1 (x : Word) : Word := x.rotateRight 17 ^^^ x.rotateRight 19 ^^^ x >>> 10

/-- The first 64 primes. -/
def primes : List ℕ := (List.range 312).filter fun n => Nat.Prime n

/-- The first 32 bits of the fraction of the `k`-th root of `p`. -/
def rootFraction (k p : ℕ) : Word := BitVec.ofNat 32 (Nat.nthRoot k (p * 2 ^ (32 * k)))

/-- The constant of a round. -/
def roundConstant (t : ℕ) : Word := rootFraction 3 (primes.getD t 0)

/-! ### Padding -/

/-- The number, in `count` bytes, the most significant one first. -/
def bigEndian (count value : ℕ) : List UInt8 :=
  (List.range count).map fun i => UInt8.ofNat (value >>> (8 * (count - 1 - i)))

/-- How many zeros fill the last block. -/
def zeros (length : ℕ) : ℕ := (64 - (length + 9) % 64) % 64

/-- The message, a one bit, zeros, and the number of its bits. -/
def pad (message : List UInt8) : List UInt8 :=
  message ++ 0x80 :: (List.replicate (zeros message.length) 0 ++ bigEndian 8 (8 * message.length))

/-- The word at that index of some bytes. -/
def wordAt (bytes : List UInt8) (index : ℕ) : Word :=
  (List.range 4).foldl (fun word i => word <<< 8 ||| (bytes.getD (4 * index + i) 0).toBitVec.setWidth 32) 0

/-! ### Hashing -/

/-- The working variables. -/
@[ext]
structure Vars where
  a : Word
  b : Word
  c : Word
  d : Word
  e : Word
  f : Word
  g : Word
  h : Word
  deriving DecidableEq

/-- The hash value before the first block. -/
def initial : Vars :=
  let word (i : ℕ) := rootFraction 2 (primes.getD i 0)
  ⟨word 0, word 1, word 2, word 3, word 4, word 5, word 6, word 7⟩

/-- The message schedule of a block with the words `m`. -/
def schedule (m : ℕ → Word) (t : ℕ) : Word :=
  if t < 16 then m t
  else smallSigma1 (schedule m (t - 2)) + schedule m (t - 7) + smallSigma0 (schedule m (t - 15)) +
    schedule m (t - 16)

/-- A round of the compression. -/
def round (v : Vars) (k w : Word) : Vars :=
  let t1 := v.h + bigSigma1 v.e + ch v.e v.f v.g + k + w
  let t2 := bigSigma0 v.a + maj v.a v.b v.c
  ⟨t1 + t2, v.a, v.b, v.c, v.d + t1, v.e, v.f, v.g⟩

/-- The sum of two hash values, word by word. -/
def Vars.add (v w : Vars) : Vars :=
  ⟨v.a + w.a, v.b + w.b, v.c + w.c, v.d + w.d, v.e + w.e, v.f + w.f, v.g + w.g, v.h + w.h⟩

/-- The hash value after a block. -/
def compress (v : Vars) (m : ℕ → Word) : Vars :=
  v.add ((List.range 64).foldl (fun v t => round v (roundConstant t) (schedule m t)) v)

/-- The words of a hash value, in order. -/
def Vars.words (v : Vars) : List Word := [v.a, v.b, v.c, v.d, v.e, v.f, v.g, v.h]

/-- The words of each block of a padded message. -/
def blocks (padded : List UInt8) : List (ℕ → Word) :=
  (List.range (padded.length / 64)).map fun i t => wordAt padded (16 * i + t)

/-- **The hash.** -/
def hash (message : List UInt8) : List UInt8 :=
  ((blocks (pad message)).foldl compress initial).words.flatMap fun word => bigEndian 4 word.toNat

/-! ### Facts -/

/-- A number below `18 ^ 2` is prime when no smaller number below 18 divides it. -/
theorem prime_iff_of_lt {n : ℕ} (hn : n < 18 * 18) :
    n.Prime ↔ 2 ≤ n ∧ ∀ d < 18, d < n → d ∣ n → d ≤ 1 := by
  constructor
  · intro h
    refine ⟨h.two_le, fun d _ hlt hdvd => ?_⟩
    obtain rfl | rfl := h.eq_one_or_self_of_dvd d hdvd
    · exact le_rfl
    · exact absurd hlt (Nat.lt_irrefl _)
  · rintro ⟨htwo, h⟩
    refine Nat.prime_def_le_sqrt.2 ⟨htwo, fun d hd hle hdvd => ?_⟩
    have hsqrt : d < 18 := lt_of_le_of_lt hle (Nat.sqrt_lt.2 hn)
    have hlt : d < n := lt_of_le_of_lt hle (Nat.sqrt_lt_self htwo)
    have hone := h d hsqrt hlt hdvd
    omega

theorem primes_eq : primes =
    (List.range 312).filter fun n => 2 ≤ n ∧ ∀ d < 18, d < n → d ∣ n → d ≤ 1 := by
  refine List.filter_congr fun n hn => ?_
  have hn : n < 18 * 18 := by
    have hlt := List.mem_range.1 hn
    omega
  exact decide_eq_decide.2 (prime_iff_of_lt hn)

@[simp] theorem length_bigEndian (count value : ℕ) : (bigEndian count value).length = count := by
  simp [bigEndian]

theorem getElem?_bigEndian {count i : ℕ} (hi : i < count) (value : ℕ) :
    (bigEndian count value)[i]? = some (UInt8.ofNat (value >>> (8 * (count - 1 - i)))) := by
  simp [bigEndian, hi]

theorem length_pad (message : List UInt8) :
    (pad message).length = message.length + 9 + zeros message.length := by
  simp [pad]
  omega

/-- The padded message is whole blocks. -/
theorem length_pad_mod (message : List UInt8) : (pad message).length % 64 = 0 := by
  rw [length_pad, zeros]
  omega

@[simp] theorem length_hash (message : List UInt8) : (hash message).length = 32 := by
  simp [hash, Vars.words]

theorem schedule_of_lt {m : ℕ → Word} {t : ℕ} (ht : t < 16) : schedule m t = m t := by
  rw [schedule, if_pos ht]

theorem schedule_of_ge {m : ℕ → Word} {t : ℕ} (ht : 16 ≤ t) :
    schedule m t = smallSigma1 (schedule m (t - 2)) + schedule m (t - 7) +
      smallSigma0 (schedule m (t - 15)) + schedule m (t - 16) := by
  rw [schedule, if_neg (by omega)]

end Sha256

end ErikslundHttp
