import ErikslundHttp.Lib.Base64
import ErikslundHttp.Lib.Sha256
import ErikslundHttp.Text

/-!
# The hash of the page's script

`sha256` and `base64_of_digest` (`sha256.hpp`), which the source runs while it compiles.  The message
is padded as it is read (`paddedMessageByte`), the schedule is a table that a loop fills, and a digest
is encoded three bytes at a time.

* `toList_sha256`: this is the hash of FIPS 180-4, with the source's tables of constants.
* `base64OfDigest_eq`: the encoding is base64.
* `script_hash_is_sha256`: so the text for a script is what a reader of the policy computes.
-/

namespace ErikslundHttp

/-- A digest has 256 bits. -/
abbrev kSha256DigestBytes : ℕ := 32

/-- A block has 512. -/
abbrev kSha256BlockBytes : ℕ := 64

/-- The rounds of a block, each with a word of the schedule. -/
abbrev kSha256Rounds : ℕ := 64

/-- The words that go from block to block. -/
abbrev kSha256StateWords : ℕ := 8

/-- The length of the message, which ends the padding. -/
abbrev kSha256LengthBytes : ℕ := 8

/-- The byte that begins the padding. -/
def kSha256PaddingMarker : UInt8 := 0x80

/-- A word has 32 bits. -/
abbrev kBytesPerWord : ℕ := 4

/-- What a word is shifted by for each of its bytes. -/
abbrev kBitsPerByte : ℕ := 8

/-- What a rotation is complemented to. -/
def kWordBits : UInt32 := 32

/-- `std::array` of the bytes of a digest. -/
abbrev Sha256Digest := Vector UInt8 kSha256DigestBytes

/-- The table of the source; that it is the one of the standard is `roundConstants_eq`. -/
def kSha256RoundConstants : Vector UInt32 kSha256Rounds :=
  #v[0x428a2f98, 0x71374491, 0xb5c0fbcf, 0xe9b5dba5, 0x3956c25b, 0x59f111f1, 0x923f82a4,
    0xab1c5ed5, 0xd807aa98, 0x12835b01, 0x243185be, 0x550c7dc3, 0x72be5d74, 0x80deb1fe,
    0x9bdc06a7, 0xc19bf174, 0xe49b69c1, 0xefbe4786, 0x0fc19dc6, 0x240ca1cc, 0x2de92c6f,
    0x4a7484aa, 0x5cb0a9dc, 0x76f988da, 0x983e5152, 0xa831c66d, 0xb00327c8, 0xbf597fc7,
    0xc6e00bf3, 0xd5a79147, 0x06ca6351, 0x14292967, 0x27b70a85, 0x2e1b2138, 0x4d2c6dfc,
    0x53380d13, 0x650a7354, 0x766a0abb, 0x81c2c92e, 0x92722c85, 0xa2bfe8a1, 0xa81a664b,
    0xc24b8b70, 0xc76c51a3, 0xd192e819, 0xd6990624, 0xf40e3585, 0x106aa070, 0x19a4c116,
    0x1e376c08, 0x2748774c, 0x34b0bcb5, 0x391c0cb3, 0x4ed8aa4a, 0x5b9cca4f, 0x682e6ff3,
    0x748f82ee, 0x78a5636f, 0x84c87814, 0x8cc70208, 0x90befffa, 0xa4506ceb, 0xbef9a3f7,
    0xc67178f2]

/-- The state before the first block. -/
def kSha256InitialState : Vector UInt32 kSha256StateWords :=
  #v[0x6a09e667, 0xbb67ae85, 0x3c6ef372, 0xa54ff53a, 0x510e527f, 0x9b05688c, 0x1f83d9ab, 0x5be0cd19]

/-- `std::rotr`, for fewer bits than a word has. -/
def rotateRight (value bits : UInt32) : UInt32 := value >>> bits ||| value <<< (kWordBits - bits)

/-- The byte at `offset` of the padded message, which is nowhere in memory. -/
def paddedMessageByte (message : Bytes) (paddedBytes offset : ℕ) : UInt8 :=
  if offset < message.length then message.getD offset 0
  else if offset = message.length then kSha256PaddingMarker
  else if offset < paddedBytes - kSha256LengthBytes then 0
  else
    -- the product wraps in a `uint64_t`
    let messageBits : UInt64 := UInt64.ofNat message.length * UInt64.ofNat kBitsPerByte
    let shift := (paddedBytes - 1 - offset) * kBitsPerByte
    (messageBits >>> UInt64.ofNat shift &&& 0xFF).toUInt8

/-- Four bytes of the padded message, the first one highest. -/
def packedWord (message : Bytes) (paddedBytes offset : ℕ) : UInt32 :=
  (List.range kBytesPerWord).foldl (fun packed byteInWord =>
    packed <<< UInt32.ofNat kBitsPerByte |||
      (paddedMessageByte message paddedBytes (offset + byteInWord)).toUInt32) 0

/-- The table of the words of a block. -/
abbrev Schedule := Vector UInt32 kSha256Rounds

/-- A word of the schedule from four before it. -/
def Schedule.extend (schedule : Schedule) (index : ℕ) : Schedule :=
  let previous := schedule[index - 15]!
  let recent := schedule[index - 2]!
  let spreadLow := rotateRight previous 7 ^^^ rotateRight previous 18 ^^^ previous >>> 3
  let spreadHigh := rotateRight recent 17 ^^^ rotateRight recent 19 ^^^ recent >>> 10
  schedule.set! index (schedule[index - 16]! + spreadLow + schedule[index - 7]! + spreadHigh)

/-- The words of the block, then the others in their order. -/
def scheduleOf (message : Bytes) (paddedBytes block : ℕ) : Schedule :=
  let words := kSha256BlockBytes / kBytesPerWord
  let schedule : Schedule := (List.range words).foldl (fun schedule word =>
    schedule.set! word (packedWord message paddedBytes (block + word * kBytesPerWord)))
    (Vector.replicate kSha256Rounds 0)
  (List.range' words (kSha256Rounds - words)).foldl Schedule.extend schedule

/-- The variables `working_a` to `working_h`. -/
structure Working where
  a : UInt32
  b : UInt32
  c : UInt32
  d : UInt32
  e : UInt32
  f : UInt32
  g : UInt32
  h : UInt32

/-- A round: the eight words move on by one. -/
def Working.round (schedule : Schedule) (working : Working) (round : ℕ) : Working :=
  let ⟨a, b, c, d, e, f, g, h⟩ := working
  let sigmaE := rotateRight e 6 ^^^ rotateRight e 11 ^^^ rotateRight e 25
  let choose := (e &&& f) ^^^ (~~~e &&& g)
  let firstTemporary := h + sigmaE + choose + kSha256RoundConstants[round]! + schedule[round]!
  let sigmaA := rotateRight a 2 ^^^ rotateRight a 13 ^^^ rotateRight a 22
  let majority := (a &&& b) ^^^ (a &&& c) ^^^ (b &&& c)
  let secondTemporary := sigmaA + majority
  ⟨firstTemporary + secondTemporary, a, b, c, d + firstTemporary, e, f, g⟩

/-- The rounds of a block, added to the state before it. -/
def hashBlock (message : Bytes) (paddedBytes : ℕ) (state : Vector UInt32 kSha256StateWords)
    (block : ℕ) : Vector UInt32 kSha256StateWords :=
  let schedule := scheduleOf message paddedBytes block
  let working := (List.range kSha256Rounds).foldl (Working.round schedule)
    ⟨state[0]!, state[1]!, state[2]!, state[3]!, state[4]!, state[5]!, state[6]!, state[7]!⟩
  #v[state[0]! + working.a, state[1]! + working.b, state[2]! + working.c, state[3]! + working.d,
    state[4]! + working.e, state[5]! + working.f, state[6]! + working.g, state[7]! + working.h]

/-- The state, byte by byte: `digest[word * kBytesPerWord + byte_in_word]`. -/
def digestOf (state : Vector UInt32 kSha256StateWords) : Sha256Digest :=
  Vector.ofFn fun index =>
    let word := index.val / kBytesPerWord
    let byteInWord := index.val % kBytesPerWord
    let shift := (kBytesPerWord - 1 - byteInWord) * kBitsPerByte
    (state[word]! >>> UInt32.ofNat shift &&& 0xFF).toUInt8

/-- The message, the marker and the length in whole blocks. -/
def paddedBytesOf (message : Bytes) : ℕ :=
  let minimum := message.length + 1 + kSha256LengthBytes
  (minimum + kSha256BlockBytes - 1) / kSha256BlockBytes * kSha256BlockBytes

/-- `sha256` of the source: the state after all blocks, as bytes. -/
def sha256 (message : Bytes) : Sha256Digest :=
  let paddedBytes := paddedBytesOf message
  digestOf ((List.range (paddedBytes / kSha256BlockBytes)).foldl (fun state index =>
    hashBlock message paddedBytes state (index * kSha256BlockBytes)) kSha256InitialState)

/-- The sixty-four digits. -/
def kBase64Alphabet : Bytes :=
  ascii "ABCDEFGHIJKLMNOPQRSTUVWXYZabcdefghijklmnopqrstuvwxyz0123456789+/"

/-- Three bytes are four digits. -/
def kBase64BytesPerGroup : ℕ := 3

/-- The bits of a digit. -/
def kBase64Bits : ℕ := 6

/-- The length of a digest in base64. -/
def kBase64DigestLength : ℕ := 44

/-- What stands for a digit that is not there. -/
def kBase64Padding : UInt8 := byte '='

/-- `emit` of `base64_of_digest`. -/
def emitSextet (group : UInt32) (sextetIndex : ℕ) : UInt8 :=
  kBase64Alphabet.getD (group >>> UInt32.ofNat (sextetIndex * kBase64Bits) &&& 0x3F).toNat 0

/-- `base64_of_digest`: ten groups, and one of two bytes. -/
def base64OfDigest (digest : Sha256Digest) : Bytes :=
  let byteAt (index : ℕ) : UInt32 := digest[index]!.toUInt32
  let groups := kSha256DigestBytes / kBase64BytesPerGroup
  let whole := (List.range groups).flatMap fun groupIndex =>
    let index := groupIndex * kBase64BytesPerGroup
    let group := byteAt index <<< UInt32.ofNat (2 * kBitsPerByte) |||
      byteAt (index + 1) <<< UInt32.ofNat kBitsPerByte ||| byteAt (index + 2)
    [emitSextet group 3, emitSextet group 2, emitSextet group 1, emitSextet group 0]
  let index := groups * kBase64BytesPerGroup
  let tail := byteAt index <<< UInt32.ofNat (2 * kBitsPerByte) |||
    byteAt (index + 1) <<< UInt32.ofNat kBitsPerByte
  whole ++ [emitSextet tail 3, emitSextet tail 2, emitSextet tail 1, kBase64Padding]

example : base64OfDigest (sha256 (ascii "abc")) =
    ascii "ungWv48Bz+pBQUDeXa4iI7ADYaOWF3qctBD/YfIAFa0=" := by decide +kernel

/-! ### The padded message -/

theorem length_pad_eq (message : Bytes) :
    (Sha256.pad message).length = paddedBytesOf message := by
  rw [Sha256.length_pad, Sha256.zeros]
  simp only [paddedBytesOf, kSha256LengthBytes, kSha256BlockBytes]
  omega

theorem lengthByte_eq (length : ℕ) {shift : ℕ} (hshift : shift ≤ 56) :
    ((UInt64.ofNat length * UInt64.ofNat kBitsPerByte) >>> UInt64.ofNat shift &&& 0xFF).toUInt8 =
      UInt8.ofNat ((8 * length) >>> shift) := by
  have hmod : (UInt64.ofNat shift).toNat % 64 = shift := by
    rw [UInt64.toNat_ofNat']
    omega
  rw [← UInt8.toNat_inj, UInt64.toNat_toUInt8, UInt64.toNat_and, UInt64.toNat_shiftRight, hmod,
    UInt64.toNat_mul, UInt8.toNat_ofNat', UInt64.toNat_ofNat', UInt64.toNat_ofNat',
    show (0xFF : UInt64).toNat = 2 ^ 8 - 1 from rfl, Nat.and_two_pow_sub_one_eq_mod, Nat.mod_mod,
    Nat.mod_mul_mod, Nat.mul_comm, Nat.mod_mul_mod]
  -- the bits that the `uint64_t` loses are above the byte
  refine Nat.eq_of_testBit_eq fun i => ?_
  simp only [Nat.testBit_mod_two_pow, Nat.testBit_shiftRight]
  by_cases hi : i < 8
  · simp [hi, show shift + i < 64 by omega]
  · simp [hi]

theorem getD_append_add (left right : Bytes) (i : ℕ) :
    (left ++ right).getD (left.length + i) 0 = right.getD i 0 := by
  rw [List.getD_eq_getElem?_getD, List.getElem?_append_right (Nat.le_add_right _ _),
    Nat.add_sub_cancel_left, List.getD_eq_getElem?_getD]

/-- The bytes the code makes up are those of the padded message. -/
theorem paddedMessageByte_eq {message : Bytes} {offset : ℕ}
    (hoffset : offset < paddedBytesOf message) :
    paddedMessageByte message (paddedBytesOf message) offset =
      (Sha256.pad message).getD offset 0 := by
  have hlen := length_pad_eq message
  rw [Sha256.length_pad] at hlen
  rw [paddedMessageByte, Sha256.pad]
  split_ifs with hmessage hmarker hzeros
  · rw [List.getD_eq_getElem?_getD, List.getD_eq_getElem?_getD, List.getElem?_append_left hmessage]
  · subst hmarker
    exact (getD_append_add message (0x80 :: _) 0).symm
  · obtain ⟨i, rfl⟩ : ∃ i, offset = message.length + (i + 1) :=
      ⟨offset - message.length - 1, by omega⟩
    have hi : i < Sha256.zeros message.length := by
      simp only [kSha256LengthBytes] at hzeros
      omega
    rw [getD_append_add, List.getD_cons_succ, List.getD_eq_getElem?_getD,
      List.getElem?_append_left (by simpa using hi), List.getElem?_replicate_of_lt hi]
    rfl
  · obtain ⟨i, rfl⟩ : ∃ i, offset = message.length + (Sha256.zeros message.length + i + 1) :=
      ⟨offset - message.length - 1 - Sha256.zeros message.length, by
        simp only [kSha256LengthBytes] at hzeros
        omega⟩
    have hi : i < 8 := by omega
    have hlast := getD_append_add (List.replicate (Sha256.zeros message.length) 0)
      (Sha256.bigEndian 8 (8 * message.length)) i
    rw [List.length_replicate] at hlast
    rw [getD_append_add, List.getD_cons_succ, hlast, List.getD_eq_getElem?_getD,
      Sha256.getElem?_bigEndian hi, Option.getD_some]
    have hshift : (paddedBytesOf message - 1 -
        (message.length + (Sha256.zeros message.length + i + 1))) * kBitsPerByte =
        8 * (8 - 1 - i) := by
      simp only [kBitsPerByte]
      omega
    rw [hshift]
    exact lengthByte_eq _ (by omega)

theorem toBitVec_packedWord {message : Bytes} {index : ℕ}
    (hindex : 4 * index + 4 ≤ paddedBytesOf message) :
    (packedWord message (paddedBytesOf message) (4 * index)).toBitVec =
      Sha256.wordAt (Sha256.pad message) index := by
  unfold packedWord Sha256.wordAt
  refine List.foldl_rel (r := fun (packed : UInt32) word => packed.toBitVec = word) rfl ?_
  rintro i hi packed _ rfl
  have hi : i < 4 := List.mem_range.1 hi
  rw [UInt32.toBitVec_or, UInt32.toBitVec_shiftLeft, paddedMessageByte_eq (by omega)]
  rfl

/-! ### The message schedule -/

theorem toBitVec_rotateRight (value bits : UInt32) (hpos : 0 < bits.toNat)
    (hlt : bits.toNat < 32) :
    (rotateRight value bits).toBitVec = value.toBitVec.rotateRight bits.toNat := by
  have hle : bits ≤ kWordBits := UInt32.le_iff_toNat_le.2 hlt.le
  rw [rotateRight, UInt32.toBitVec_or, UInt32.toBitVec_shiftRight, UInt32.toBitVec_shiftLeft,
    BitVec.rotateRight_def, BitVec.ushiftRight_eq', BitVec.shiftLeft_eq', BitVec.toNat_umod,
    BitVec.toNat_umod, UInt32.toNat_toBitVec bits, UInt32.toNat_toBitVec (kWordBits - bits), UInt32.toNat_sub_of_le _ _ hle,
    Nat.mod_eq_of_lt hlt]
  congr 2
  · exact Nat.mod_eq_of_lt hlt
  · exact Nat.mod_eq_of_lt (Nat.sub_lt (by decide) hpos)

theorem toBitVec_spreadLow (x : UInt32) :
    (rotateRight x 7 ^^^ rotateRight x 18 ^^^ x >>> 3).toBitVec =
      Sha256.smallSigma0 x.toBitVec := by
  rw [UInt32.toBitVec_xor, UInt32.toBitVec_xor,
    toBitVec_rotateRight x 7 (by decide) (by decide),
    toBitVec_rotateRight x 18 (by decide) (by decide)]
  rfl

theorem toBitVec_spreadHigh (x : UInt32) :
    (rotateRight x 17 ^^^ rotateRight x 19 ^^^ x >>> 10).toBitVec =
      Sha256.smallSigma1 x.toBitVec := by
  rw [UInt32.toBitVec_xor, UInt32.toBitVec_xor,
    toBitVec_rotateRight x 17 (by decide) (by decide),
    toBitVec_rotateRight x 19 (by decide) (by decide)]
  rfl

theorem getElem!_set! {n : ℕ} (words : Vector UInt32 n) (value : UInt32) {i j : ℕ} (hi : i < n) :
    (words.set! i value)[j]! = if i = j then value else words[j]! := by
  rw [getElem!_def, Vector.getElem?_set!, getElem!_def]
  split_ifs <;> rfl

/-- The loop that copies the words of the block. -/
theorem getElem!_copied (value : ℕ → UInt32) (schedule : Schedule) {count : ℕ}
    (hcount : count ≤ 64) {t : ℕ} (ht : t < count) :
    ((List.range count).foldl (fun schedule word => schedule.set! word (value word))
      schedule)[t]! = value t := by
  induction count with
  | zero => omega
  | succ count ih =>
    rw [List.range_succ, List.foldl_append, List.foldl_cons, List.foldl_nil,
      getElem!_set! _ _ (show count < 64 by omega)]
    split_ifs with h
    · rw [h]
    · exact ih (by omega) (by omega)

/-- The loop that extends the schedule: what it has written is the schedule of the standard. -/
theorem toBitVec_extended {m : ℕ → Sha256.Word} {schedule : Schedule}
    (h : ∀ t < 16, schedule[t]!.toBitVec = m t) (count : ℕ) (hcount : 16 + count ≤ 64) :
    ∀ t < 16 + count, ((List.range' 16 count).foldl Schedule.extend schedule)[t]!.toBitVec =
      Sha256.schedule m t := by
  induction count with
  | zero =>
    intro t ht
    rw [Sha256.schedule_of_lt ht]
    exact h t ht
  | succ count ih =>
    intro t ht
    have ih := ih (by omega)
    rw [List.range'_concat, List.foldl_append, Nat.one_mul]
    simp only [List.foldl_cons, List.foldl_nil, Schedule.extend]
    rw [getElem!_set! _ _ (show 16 + count < 64 by omega)]
    split_ifs with heq
    · subst heq
      rw [Sha256.schedule_of_ge (by omega), UInt32.toBitVec_add, UInt32.toBitVec_add,
        UInt32.toBitVec_add, toBitVec_spreadLow, toBitVec_spreadHigh, ih _ (by omega),
        ih _ (by omega), ih _ (by omega), ih _ (by omega)]
      ac_rfl
    · exact ih t (by omega)

theorem toBitVec_scheduleOf {message : Bytes} {block : ℕ}
    (hblock : block * 64 + 64 ≤ paddedBytesOf message) :
    ∀ t < 64, (scheduleOf message (paddedBytesOf message) (block * kSha256BlockBytes))[t]!.toBitVec =
      Sha256.schedule (fun t => Sha256.wordAt (Sha256.pad message) (16 * block + t)) t := by
  intro t ht
  simp only [scheduleOf, Nat.reduceDiv, Nat.reduceSub, kSha256BlockBytes, kBytesPerWord, kSha256Rounds]
  refine toBitVec_extended ?_ 48 le_rfl t ht
  intro t ht
  rw [getElem!_copied _ _ (by decide) ht, ← toBitVec_packedWord (by omega)]
  congr 2
  omega

/-! ### The rounds -/

/-- The working variables of the standard. -/
def Working.toVars (working : Working) : Sha256.Vars :=
  ⟨working.a.toBitVec, working.b.toBitVec, working.c.toBitVec, working.d.toBitVec,
    working.e.toBitVec, working.f.toBitVec, working.g.toBitVec, working.h.toBitVec⟩

/-- The state as the working variables that a block starts with. -/
def working (state : Vector UInt32 kSha256StateWords) : Working :=
  ⟨state[0]!, state[1]!, state[2]!, state[3]!, state[4]!, state[5]!, state[6]!, state[7]!⟩

theorem toBitVec_sigmaA (x : UInt32) :
    (rotateRight x 2 ^^^ rotateRight x 13 ^^^ rotateRight x 22).toBitVec =
      Sha256.bigSigma0 x.toBitVec := by
  rw [UInt32.toBitVec_xor, UInt32.toBitVec_xor,
    toBitVec_rotateRight x 2 (by decide) (by decide),
    toBitVec_rotateRight x 13 (by decide) (by decide),
    toBitVec_rotateRight x 22 (by decide) (by decide)]
  rfl

theorem toBitVec_sigmaE (x : UInt32) :
    (rotateRight x 6 ^^^ rotateRight x 11 ^^^ rotateRight x 25).toBitVec =
      Sha256.bigSigma1 x.toBitVec := by
  rw [UInt32.toBitVec_xor, UInt32.toBitVec_xor,
    toBitVec_rotateRight x 6 (by decide) (by decide),
    toBitVec_rotateRight x 11 (by decide) (by decide),
    toBitVec_rotateRight x 25 (by decide) (by decide)]
  rfl

theorem roundConstants_eq : kSha256RoundConstants.toList.map UInt32.toBitVec =
    Sha256.primes.map (Sha256.rootFraction 3) := by
  rw [Sha256.primes_eq]
  decide +kernel

theorem toBitVec_roundConstant {t : ℕ} (ht : t < 64) :
    kSha256RoundConstants[t]!.toBitVec = Sha256.roundConstant t := by
  have hprimes : t < Sha256.primes.length := by
    rw [← List.length_map (Sha256.rootFraction 3), ← roundConstants_eq]
    exact ht
  have hget := congrArg (fun words : List Sha256.Word => words[t]?) roundConstants_eq
  simp only [List.getElem?_map, List.getElem?_eq_getElem hprimes, Option.map_some] at hget
  rw [Sha256.roundConstant, List.getD_eq_getElem?_getD, List.getElem?_eq_getElem hprimes, getElem!_def]
  rw [Vector.getElem?_toList, Vector.getElem?_eq_getElem ht] at hget
  rw [Vector.getElem?_eq_getElem ht]
  exact Option.some.inj hget

theorem toVars_round (schedule : Schedule) (v : Working) {round : ℕ} (hround : round < 64) :
    (v.round schedule round).toVars =
      Sha256.round v.toVars (Sha256.roundConstant round) schedule[round]!.toBitVec := by
  rw [← toBitVec_roundConstant hround]
  simp only [Working.round, Working.toVars, Sha256.round, UInt32.toBitVec_add,
    toBitVec_sigmaA, toBitVec_sigmaE]
  rfl

theorem toVars_rounds {schedule : Schedule} {m : ℕ → Sha256.Word}
    (h : ∀ t < 64, schedule[t]!.toBitVec = Sha256.schedule m t) (v : Working) :
    ((List.range kSha256Rounds).foldl (Working.round schedule) v).toVars =
      (List.range 64).foldl (fun v t =>
        Sha256.round v (Sha256.roundConstant t) (Sha256.schedule m t)) v.toVars := by
  refine List.foldl_rel (r := fun (v : Working) vars => v.toVars = vars) rfl ?_
  rintro t ht v _ rfl
  have ht : t < 64 := List.mem_range.1 ht
  rw [toVars_round schedule v ht, h t ht]

/-! ### The blocks -/

theorem toVars_hashBlock {message : Bytes} {block : ℕ}
    (hblock : block * 64 + 64 ≤ paddedBytesOf message)
    (state : Vector UInt32 kSha256StateWords) :
    (working (hashBlock message (paddedBytesOf message) state (block * kSha256BlockBytes))).toVars =
      Sha256.compress (working state).toVars
        (fun t => Sha256.wordAt (Sha256.pad message) (16 * block + t)) := by
  rw [Sha256.compress, ← toVars_rounds (toBitVec_scheduleOf hblock)]
  rfl

theorem initial_eq : (working kSha256InitialState).toVars = Sha256.initial := by
  rw [Sha256.initial, Sha256.primes_eq]
  decide +kernel

theorem digestByte_eq (word : UInt32) {shift : ℕ} (hshift : shift < 32) :
    (word >>> UInt32.ofNat shift &&& 0xFF).toUInt8 = UInt8.ofNat (word.toNat >>> shift) := by
  have hmod : (UInt32.ofNat shift).toNat % 32 = shift := by
    rw [UInt32.toNat_ofNat']
    omega
  rw [← UInt8.toNat_inj, UInt32.toNat_toUInt8, UInt32.toNat_and, UInt32.toNat_shiftRight, hmod,
    UInt8.toNat_ofNat', show (0xFF : UInt32).toNat = 2 ^ 8 - 1 from rfl,
    Nat.and_two_pow_sub_one_eq_mod, Nat.mod_mod]

/-- The digest is the bytes of the words, one word after the other. -/
theorem toList_digestOf (state : Vector UInt32 kSha256StateWords) :
    (digestOf state).toList = (working state).toVars.words.flatMap fun word =>
      Sha256.bigEndian 4 word.toNat := by
  have hword (word : Fin 8) : (List.ofFn fun byteInWord : Fin 4 =>
      (state[word.val]! >>> UInt32.ofNat ((3 - byteInWord) * 8) &&& 0xFF).toUInt8) =
        Sha256.bigEndian 4 state[word.val]!.toBitVec.toNat := by
    refine List.ext_getElem? fun i => ?_
    by_cases hi : i < 4
    · rw [Sha256.getElem?_bigEndian hi, List.getElem?_ofFn, dif_pos hi]
      exact congrArg some ((digestByte_eq _ (by omega)).trans (by rw [Nat.mul_comm]; rfl))
    · simp [hi]
  have hindex (word : Fin 8) (byteInWord : Fin 4) :
      (word.val * 4 + byteInWord.val) / 4 = word ∧ (word.val * 4 + byteInWord.val) % 4 = byteInWord := by
    omega
  have hflat := List.ofFn_mul (m := 8) (n := 4) (fun index : Fin 32 =>
    (state[index.val / 4]! >>> UInt32.ofNat ((3 - index.val % 4) * 8) &&& 0xFF).toUInt8)
  simp only [hindex, hword] at hflat
  rw [digestOf, Vector.toList_ofFn]
  exact hflat

/-- **The hash the source computes is SHA-256.** -/
theorem toList_sha256 (message : Bytes) : (sha256 message).toList = Sha256.hash message := by
  have hblocks : paddedBytesOf message / kSha256BlockBytes * 64 = paddedBytesOf message := by
    have hmod := Sha256.length_pad_mod message
    rw [length_pad_eq] at hmod
    exact Nat.div_mul_cancel (Nat.dvd_of_mod_eq_zero hmod)
  rw [sha256, toList_digestOf, Sha256.hash, Sha256.blocks, length_pad_eq, List.foldl_map]
  congr 2
  refine List.foldl_rel (r := fun state vars => (working state).toVars = vars) initial_eq ?_
  rintro block hblock state _ rfl
  have hblock : block < paddedBytesOf message / kSha256BlockBytes := List.mem_range.1 hblock
  exact toVars_hashBlock (by omega) state

/-! ### The encoding of the digest -/

theorem getD_kBase64Alphabet : ∀ sextet < 64,
    kBase64Alphabet.getD sextet 0 = Base64.char sextet := by
  decide

theorem emitSextet_eq (group : UInt32) {index : ℕ} (hindex : index < 4) :
    emitSextet group index = Base64.emit group.toNat index := by
  have hshift : (UInt32.ofNat (index * kBase64Bits)).toNat % 32 = 6 * index := by
    rw [UInt32.toNat_ofNat']
    simp only [kBase64Bits]
    omega
  rw [emitSextet, UInt32.toNat_and, UInt32.toNat_shiftRight, hshift,
    show (0x3F : UInt32).toNat = 2 ^ 6 - 1 from rfl, Nat.and_two_pow_sub_one_eq_mod,
    getD_kBase64Alphabet _ (Nat.mod_lt _ (by decide)), Nat.shiftRight_eq_div_pow]
  rfl

theorem toNat_shifted (b : UInt8) {shift : ℕ} (hshift : shift ≤ 24) :
    (b.toUInt32 <<< UInt32.ofNat shift).toNat = b.toNat <<< shift := by
  have hmod : (UInt32.ofNat shift).toNat % 32 = shift := by
    rw [UInt32.toNat_ofNat']
    omega
  rw [UInt32.toNat_shiftLeft, UInt8.toNat_toUInt32, hmod, Nat.shiftLeft_eq]
  refine Nat.mod_eq_of_lt ?_
  calc b.toNat * 2 ^ shift < 2 ^ 8 * 2 ^ shift :=
        Nat.mul_lt_mul_of_pos_right b.toNat_lt (Nat.two_pow_pos shift)
    _ = 2 ^ (8 + shift) := (Nat.pow_add 2 8 shift).symm
    _ ≤ 2 ^ 32 := Nat.pow_le_pow_right (by decide) (by omega)

theorem toNat_group (a b c : UInt8) :
    (a.toUInt32 <<< UInt32.ofNat (2 * kBitsPerByte) ||| b.toUInt32 <<< UInt32.ofNat kBitsPerByte |||
      c.toUInt32).toNat = Base64.group a b c := by
  have hb := b.toNat_lt
  have hc := c.toNat_lt
  have hlow : b.toNat <<< 8 + c.toNat < 2 ^ 16 := by
    rw [Nat.shiftLeft_eq]
    omega
  rw [UInt32.toNat_or, UInt32.toNat_or, toNat_shifted a (by decide), toNat_shifted b (by decide),
    UInt8.toNat_toUInt32, Nat.or_assoc, ← Nat.shiftLeft_add_eq_or_of_lt hc,
    show 2 * kBitsPerByte = 16 from rfl, ← Nat.shiftLeft_add_eq_or_of_lt hlow, Nat.shiftLeft_eq,
    Nat.shiftLeft_eq, Base64.group, Nat.add_assoc]

theorem toNat_tail (a b : UInt8) :
    (a.toUInt32 <<< UInt32.ofNat (2 * kBitsPerByte) |||
      b.toUInt32 <<< UInt32.ofNat kBitsPerByte).toNat = Base64.group a b 0 := by
  rw [← toNat_group a b 0, show (0 : UInt8).toUInt32 = 0 from rfl, UInt32.or_zero]

/-- **The encoding of a digest is base64.** -/
theorem base64OfDigest_eq (digest : Sha256Digest) :
    base64OfDigest digest = Base64.encode digest.toList := by
  have hlen : digest.toList.length = 32 := digest.length_toList
  have hget (i : ℕ) : digest.toList.getD i 0 = digest[i]! := by
    rw [List.getD_eq_getElem?_getD, Vector.getElem?_toList, getElem!_def]
    cases digest[i]? <;> rfl
  have htail : digest.toList.drop 30 = [digest[30]!, digest[31]!] := by
    rw [List.drop_eq_getElem_cons (by omega), List.drop_eq_getElem_cons (by omega),
      List.drop_of_length_le (by omega)]
    rfl
  have hgroups := Base64.encode_eq_append digest.toList 10 (by omega)
  rw [hgroups, htail, Base64.encode]
  refine congrArg₂ (· ++ ·) ?_ ?_
  · refine congrArg (List.flatMap · _) (funext fun i => ?_)
    simp only [hget, ← toNat_group]
    rw [← emitSextet_eq _ (by decide : 3 < 4), ← emitSextet_eq _ (by decide : 2 < 4),
      ← emitSextet_eq _ (by decide : 1 < 4), ← emitSextet_eq _ (by decide : 0 < 4)]
    rfl
  · rw [← toNat_tail, ← emitSextet_eq _ (by decide : 3 < 4), ← emitSextet_eq _ (by decide : 2 < 4),
      ← emitSextet_eq _ (by decide : 1 < 4)]
    rfl

/-- The encoded digest fills the characters of a `Base64Digest`. -/
theorem length_base64OfDigest (digest : Sha256Digest) :
    (base64OfDigest digest).length = kBase64DigestLength := by
  rw [base64OfDigest_eq, Base64.length_encode, digest.length_toList]
  rfl

/-- **The text for a script is the base64 of its SHA-256 hash.** -/
theorem script_hash_is_sha256 (message : Bytes) :
    Base64.decode (base64OfDigest (sha256 message)) = some (Sha256.hash message) ∧
      (base64OfDigest (sha256 message)).length = kBase64DigestLength := by
  refine ⟨?_, length_base64OfDigest _⟩
  rw [base64OfDigest_eq, Base64.decode_encode, toList_sha256]

end ErikslundHttp
