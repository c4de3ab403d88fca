import Mathlib.Algebra.Order.Ring.Nat

/-!
# Base64

The encoding of RFC 4648, section 4, and its decoder.

* `decode_encode`: the round trip.
* `encode_injective`: two byte strings with the same encoding are the same.
-/

namespace ErikslundHttp

namespace Base64

/-- The padding character. -/
def padding : UInt8 := 0x3D

/-- The character of six bits: a capital letter, a small letter, a digit, `+` or `/`. -/
def char (sextet : ℕ) : UInt8 :=
  if sextet < 26 then UInt8.ofNat (0x41 + sextet)
  else if sextet < 52 then UInt8.ofNat (0x61 + (sextet - 26))
  else if sextet < 62 then UInt8.ofNat (0x30 + (sextet - 52))
  else if sextet = 62 then 0x2B
  else 0x2F

/-- The six bits of a character. -/
def value (c : UInt8) : Option ℕ :=
  if 0x41 ≤ c ∧ c ≤ 0x5A then some (c.toNat - 0x41)
  else if 0x61 ≤ c ∧ c ≤ 0x7A then some (c.toNat - 0x61 + 26)
  else if 0x30 ≤ c ∧ c ≤ 0x39 then some (c.toNat - 0x30 + 52)
  else if c = 0x2B then some 62
  else if c = 0x2F then some 63
  else none

/-- Three bytes as one number. -/
def group (a b c : UInt8) : ℕ := a.toNat * 2 ^ 16 + b.toNat * 2 ^ 8 + c.toNat

/-- The character of the six bits of a group above `2 ^ (6 * k)`. -/
def emit (n k : ℕ) : UInt8 := char (n / 2 ^ (6 * k) % 2 ^ 6)

/-- The canonical encoding of RFC 4648. -/
def encode : List UInt8 → List UInt8
  | [] => []
  | [a] => let n := group a 0 0; [emit n 3, emit n 2, padding, padding]
  | [a, b] => let n := group a b 0; [emit n 3, emit n 2, emit n 1, padding]
  | a :: b :: c :: rest =>
    let n := group a b c
    emit n 3 :: emit n 2 :: emit n 1 :: emit n 0 :: encode rest

/-- The byte of a group above `2 ^ (8 * k)`. -/
def byteOf (n k : ℕ) : UInt8 := UInt8.ofNat (n / 2 ^ (8 * k))

/-- The bytes of a text; padding is only at its end, and the bits it stands for are zero. -/
def decode : List UInt8 → Option (List UInt8)
  | [] => some []
  | w :: x :: y :: z :: rest => do
    let sw ← value w
    let sx ← value x
    if y = padding then
      guard (z = padding ∧ rest = [] ∧ sx % 2 ^ 4 = 0)
      some [byteOf (sw * 2 ^ 18 + sx * 2 ^ 12) 2]
    else do
      let sy ← value y
      if z = padding then
        guard (rest = [] ∧ sy % 2 ^ 2 = 0)
        let n := sw * 2 ^ 18 + sx * 2 ^ 12 + sy * 2 ^ 6
        some [byteOf n 2, byteOf n 1]
      else do
        let sz ← value z
        let n := sw * 2 ^ 18 + sx * 2 ^ 12 + sy * 2 ^ 6 + sz
        let bytes ← decode rest
        some (byteOf n 2 :: byteOf n 1 :: byteOf n 0 :: bytes)
  | _ => none

/-! ### The round trip -/

theorem value_char : ∀ sextet < 64, value (char sextet) = some sextet := by decide

theorem char_ne_padding {sextet : ℕ} (h : sextet < 64) : char sextet ≠ padding := by
  intro heq
  have hvalue := value_char sextet h
  rw [heq] at hvalue
  exact absurd hvalue nofun

@[simp] theorem value_emit (n k : ℕ) : value (emit n k) = some (n / 2 ^ (6 * k) % 2 ^ 6) :=
  value_char _ (Nat.mod_lt _ (by decide))

@[simp] theorem emit_ne_padding (n k : ℕ) : emit n k ≠ padding :=
  char_ne_padding (Nat.mod_lt _ (by decide))

theorem group_lt (a b c : UInt8) : group a b c < 2 ^ 24 := by
  have ha := a.toNat_lt
  have hb := b.toNat_lt
  have hc := c.toNat_lt
  unfold group
  omega

/-- Six bits at a time, a group is put together again. -/
theorem sextets_group {n : ℕ} (h : n < 2 ^ 24) :
    n / 2 ^ 18 % 2 ^ 6 * 2 ^ 18 + n / 2 ^ 12 % 2 ^ 6 * 2 ^ 12 + n / 2 ^ 6 % 2 ^ 6 * 2 ^ 6 +
      n % 2 ^ 6 = n := by
  omega

theorem byteOf_group_two (a b c : UInt8) : byteOf (group a b c) 2 = a := by
  have hb := b.toNat_lt
  have hc := c.toNat_lt
  have h : group a b c / 2 ^ (8 * 2) = a.toNat := by unfold group; omega
  rw [byteOf, h, UInt8.ofNat_toNat]

theorem byteOf_group_one (a b c : UInt8) : byteOf (group a b c) 1 = b := by
  have hb := b.toNat_lt
  have hc := c.toNat_lt
  have h : group a b c / 2 ^ (8 * 1) = a.toNat * 2 ^ 8 + b.toNat := by unfold group; omega
  rw [byteOf, h, ← UInt8.toNat_inj, UInt8.toNat_ofNat']
  omega

theorem byteOf_group_zero (a b c : UInt8) : byteOf (group a b c) 0 = c := by
  have hc := c.toNat_lt
  rw [byteOf, ← UInt8.toNat_inj, UInt8.toNat_ofNat', group]
  omega

/-- The bytes of whole groups come before what the rest decodes to. -/
theorem decode_cons {n : ℕ} (h : n < 2 ^ 24) (rest : List UInt8) :
    decode (emit n 3 :: emit n 2 :: emit n 1 :: emit n 0 :: rest) =
      (decode rest).map fun bytes => byteOf n 2 :: byteOf n 1 :: byteOf n 0 :: bytes := by
  simp only [decode, value_emit, Option.bind_eq_bind, Option.bind_some, emit_ne_padding, if_false,
    Nat.reduceMul, pow_zero, Nat.div_one, sextets_group h]
  cases decode rest <;> simp

theorem decode_two {n : ℕ} (h : n < 2 ^ 24) (hzero : n % 2 ^ 8 = 0) :
    decode [emit n 3, emit n 2, emit n 1, padding] = some [byteOf n 2, byteOf n 1] := by
  have hsum : n / 2 ^ 18 % 2 ^ 6 * 2 ^ 18 + n / 2 ^ 12 % 2 ^ 6 * 2 ^ 12 +
      n / 2 ^ 6 % 2 ^ 6 * 2 ^ 6 = n := by omega
  have hlow : n / 2 ^ 6 % 2 ^ 2 = 0 := by omega
  simp only [Nat.reducePow] at hsum hlow
  simp [decode, value_emit, hsum, hlow]

theorem decode_one {n : ℕ} (h : n < 2 ^ 24) (hzero : n % 2 ^ 16 = 0) :
    decode [emit n 3, emit n 2, padding, padding] = some [byteOf n 2] := by
  have hsum : n / 2 ^ 18 % 2 ^ 6 * 2 ^ 18 + n / 2 ^ 12 % 2 ^ 6 * 2 ^ 12 = n := by omega
  have hlow : n / 2 ^ 12 % 2 ^ 4 = 0 := by omega
  simp only [Nat.reducePow] at hsum hlow
  simp [decode, value_emit, hsum, hlow]

/-- **What is encoded is decoded.** -/
theorem decode_encode (data : List UInt8) : decode (encode data) = some data := by
  induction data using encode.induct with
  | case1 => rfl
  | case2 a =>
    have hzero : group a 0 0 % 2 ^ 16 = 0 := by simp [group]
    rw [encode, decode_one (group_lt a 0 0) hzero, byteOf_group_two]
  | case3 a b =>
    have hzero : group a b 0 % 2 ^ 8 = 0 := by simp [group]; omega
    rw [encode, decode_two (group_lt a b 0) hzero, byteOf_group_two, byteOf_group_one]
  | case4 a b c rest ih =>
    rw [encode, decode_cons (group_lt a b c), ih, Option.map_some, byteOf_group_two,
      byteOf_group_one, byteOf_group_zero]

theorem encode_injective {data data' : List UInt8} (h : encode data = encode data') :
    data = data' := by
  have hdecode := congrArg decode h
  rwa [decode_encode, decode_encode, Option.some.injEq] at hdecode

/-- The text of the first groups, and the text of what follows them. -/
theorem encode_eq_append (data : List UInt8) (groups : ℕ) (h : groups * 3 ≤ data.length) :
    encode data = (List.range groups).flatMap (fun i =>
      let n := group (data.getD (i * 3) 0) (data.getD (i * 3 + 1) 0) (data.getD (i * 3 + 2) 0)
      [emit n 3, emit n 2, emit n 1, emit n 0]) ++ encode (data.drop (groups * 3)) := by
  induction groups with
  | zero => simp
  | succ groups ih =>
    obtain ⟨a, b, c, rest, hdrop⟩ : ∃ a b c rest, data.drop (groups * 3) = a :: b :: c :: rest := by
      have hlen : 3 ≤ (data.drop (groups * 3)).length := by rw [List.length_drop]; omega
      revert hlen
      rcases data.drop (groups * 3) with _ | ⟨a, _ | ⟨b, _ | ⟨c, rest⟩⟩⟩ <;> intro hlen
      · simp at hlen
      · simp at hlen
      · simp at hlen
      · exact ⟨a, b, c, rest, rfl⟩
    have hget (i : ℕ) : data.getD (groups * 3 + i) 0 = (a :: b :: c :: rest).getD i 0 := by
      rw [← hdrop, List.getD_eq_getElem?_getD, List.getD_eq_getElem?_getD, List.getElem?_drop]
    have hrest : data.drop ((groups + 1) * 3) = rest := by
      rw [show (groups + 1) * 3 = groups * 3 + 3 by omega, ← List.drop_drop, hdrop]
      rfl
    rw [ih (by omega), hdrop, hrest, List.range_succ, List.flatMap_append, List.append_assoc,
      List.flatMap_singleton, hget 1, hget 2, show data.getD (groups * 3) 0 = a from hget 0]
    rfl

theorem length_encode (data : List UInt8) : (encode data).length = (data.length + 2) / 3 * 4 := by
  induction data using encode.induct with
  | case1 | case2 | case3 => simp [encode]
  | case4 a b c rest ih =>
    simp only [encode, List.length_cons, ih]
    omega

/-- Only characters of six bits and the padding are written. -/
theorem mem_encode {data : List UInt8} {c : UInt8} (h : c ∈ encode data) :
    (∃ sextet < 64, c = char sextet) ∨ c = padding := by
  have hemit (n k : ℕ) : ∃ sextet < 64, emit n k = char sextet :=
    ⟨_, Nat.mod_lt _ (by decide), rfl⟩
  induction data using encode.induct with
  | case1 => simp [encode] at h
  | case2 a =>
    simp only [encode, List.mem_cons, List.not_mem_nil, or_false] at h
    rcases h with rfl | rfl | rfl | rfl <;> simp [hemit]
  | case3 a b =>
    simp only [encode, List.mem_cons, List.not_mem_nil, or_false] at h
    rcases h with rfl | rfl | rfl | rfl <;> simp [hemit]
  | case4 a b c rest ih =>
    simp only [encode, List.mem_cons] at h
    rcases h with rfl | rfl | rfl | rfl | h
    · exact .inl (hemit _ _)
    · exact .inl (hemit _ _)
    · exact .inl (hemit _ _)
    · exact .inl (hemit _ _)
    · exact ih h

end Base64

end ErikslundHttp
