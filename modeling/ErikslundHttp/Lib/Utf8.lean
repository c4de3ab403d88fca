import Mathlib.Data.List.Basic
import Mathlib.Tactic.SplitIfs

/-!
# UTF-8

A text is UTF-8 if it is the encoding of some characters (`IsUtf8`).

`IsSequence` is the table of well-formed sequences, which says what the first two bytes of a
sequence may be.  Its sequences are the encodings of single characters (`isSequence_char`,
`IsSequence.exists_char`).
-/

namespace ErikslundHttp

namespace Utf8

/-- The text is the encoding of some characters. -/
def IsUtf8 (text : List UInt8) : Prop :=
  ∃ characters : List Char, text = characters.flatMap String.utf8EncodeChar

theorem isUtf8_nil : IsUtf8 [] := ⟨[], rfl⟩

theorem isUtf8_char (c : Char) : IsUtf8 (String.utf8EncodeChar c) :=
  ⟨[c], (List.append_nil _).symm⟩

theorem IsUtf8.append {s t : List UInt8} (hs : IsUtf8 s) (ht : IsUtf8 t) : IsUtf8 (s ++ t) := by
  obtain ⟨a, rfl⟩ := hs
  obtain ⟨b, rfl⟩ := ht
  exact ⟨a ++ b, by rw [List.flatMap_append]⟩

/-- A byte after the first of a sequence. -/
def IsTail (b : ℕ) : Prop := 0x80 ≤ b ∧ b ≤ 0xBF

/-- The well-formed sequences. -/
inductive IsSequence : List UInt8 → Prop where
  | one {a : UInt8} (ha : a.toNat < 0x80) : IsSequence [a]
  | two {a b : UInt8} (ha : 0xC2 ≤ a.toNat ∧ a.toNat ≤ 0xDF) (hb : IsTail b.toNat) :
      IsSequence [a, b]
  | three {a b c : UInt8} (ha : 0xE0 ≤ a.toNat ∧ a.toNat ≤ 0xEF) (hb : IsTail b.toNat)
      (hc : IsTail c.toNat) (hlow : a.toNat = 0xE0 → 0xA0 ≤ b.toNat)
      (hsurrogate : a.toNat = 0xED → b.toNat ≤ 0x9F) : IsSequence [a, b, c]
  | four {a b c d : UInt8} (ha : 0xF0 ≤ a.toNat ∧ a.toNat ≤ 0xF4) (hb : IsTail b.toNat)
      (hc : IsTail c.toNat) (hd : IsTail d.toNat) (hlow : a.toNat = 0xF0 → 0x90 ≤ b.toNat)
      (hhigh : a.toNat = 0xF4 → b.toNat ≤ 0x8F) : IsSequence [a, b, c, d]

theorem IsSequence.ne_nil {s : List UInt8} (h : IsSequence s) : s ≠ [] := by
  cases h <;> simp

theorem IsSequence.eq_nil_of_ascii {a : UInt8} {s : List UInt8} (h : IsSequence (a :: s))
    (ha : a.toNat < 0x80) : s = [] := by
  cases h <;> first | rfl | omega

/-- Only a sequence of one byte has an ASCII byte. -/
theorem IsSequence.high {a : UInt8} {s : List UInt8} (h : IsSequence (a :: s))
    (ha : 0x80 ≤ a.toNat) : ∀ b ∈ a :: s, 0x80 ≤ b.toNat := by
  cases h with
  | one => simpa using ha
  | two _ hb => simpa using ⟨ha, hb.1⟩
  | three _ hb hc => simpa using ⟨ha, hb.1, hc.1⟩
  | four _ hb hc hd => simpa using ⟨ha, hb.1, hc.1, hd.1⟩

theorem toNat_ofNat_of_lt {n : ℕ} (h : n < 256) : (UInt8.ofNat n).toNat = n := by
  rw [UInt8.toNat_ofNat', Nat.mod_eq_of_lt h]

theorem isTail_ofNat (n : ℕ) : IsTail (UInt8.ofNat (n % 0x40 + 0x80)).toNat := by
  rw [toNat_ofNat_of_lt (by omega)]
  exact ⟨by omega, by omega⟩

/-- Every character is encoded as a sequence. -/
theorem isSequence_char (c : Char) : IsSequence (String.utf8EncodeChar c) := by
  have hvalid : c.val.toNat < 0xD800 ∨ 0xDFFF < c.val.toNat ∧ c.val.toNat < 0x110000 := c.valid
  unfold String.utf8EncodeChar
  dsimp only
  generalize c.val.toNat = v at hvalid
  split_ifs with h1 h2 h3
  · refine .one ?_
    rw [toNat_ofNat_of_lt (by omega)]
    omega
  · refine .two ?_ (isTail_ofNat v)
    rw [toNat_ofNat_of_lt (by omega)]
    omega
  · refine .three ?_ (isTail_ofNat _) (isTail_ofNat v) ?_ ?_ <;>
      repeat rw [toNat_ofNat_of_lt (by omega)]
    all_goals omega
  · refine .four ?_ (isTail_ofNat _) (isTail_ofNat _) (isTail_ofNat v) ?_ ?_ <;>
      repeat rw [toNat_ofNat_of_lt (by omega)]
    all_goals omega

theorem exists_char {v : ℕ} (h : v < 0xD800 ∨ 0xDFFF < v ∧ v < 0x110000) :
    ∃ c : Char, c.val.toNat = v := ⟨Char.ofNatAux v h, rfl⟩

theorem ofNat_eq {n : ℕ} {a : UInt8} (h : n = a.toNat) : UInt8.ofNat n = a := by
  rw [h, UInt8.ofNat_toNat]

/-- An ASCII character is one byte. -/
theorem utf8EncodeChar_ofNat {a : UInt8} (h : a.toNat < 0x80) :
    String.utf8EncodeChar (Char.ofNat a.toNat) = [a] := by
  have hvalid : a.toNat.isValidChar := .inl (by omega)
  have hval : (Char.ofNat a.toNat).val.toNat = a.toNat := by
    rw [Char.ofNat, dif_pos hvalid]
    rfl
  rw [String.utf8EncodeChar, hval, if_pos (by omega), ofNat_eq rfl]

/-- Every sequence encodes a character. -/
theorem IsSequence.exists_char {s : List UInt8} (h : IsSequence s) :
    ∃ c, s = String.utf8EncodeChar c := by
  cases h with
  | @one a ha =>
    exact ⟨Char.ofNat a.toNat, (utf8EncodeChar_ofNat ha).symm⟩
  | @two a b ha hb =>
    obtain ⟨hb₁, hb₂⟩ := hb
    obtain ⟨c, hc⟩ := Utf8.exists_char (v := (a.toNat - 0xC0) * 0x40 + (b.toNat - 0x80)) (by omega)
    refine ⟨c, ?_⟩
    rw [String.utf8EncodeChar, hc, if_neg (by omega), if_pos (by omega),
      ofNat_eq (a := a) (by omega), ofNat_eq (a := b) (by omega)]
  | @three a b d ha hb hd hlow hsurrogate =>
    obtain ⟨hb₁, hb₂⟩ := hb
    obtain ⟨hd₁, hd₂⟩ := hd
    obtain ⟨c, hc⟩ := Utf8.exists_char (v := (a.toNat - 0xE0) * 0x1000 + (b.toNat - 0x80) * 0x40 +
      (d.toNat - 0x80)) (by omega)
    refine ⟨c, ?_⟩
    rw [String.utf8EncodeChar, hc, if_neg (by omega), if_neg (by omega), if_pos (by omega),
      ofNat_eq (a := a) (by omega), ofNat_eq (a := b) (by omega), ofNat_eq (a := d) (by omega)]
  | @four a b d e ha hb hd he hlow hhigh =>
    obtain ⟨hb₁, hb₂⟩ := hb
    obtain ⟨hd₁, hd₂⟩ := hd
    obtain ⟨he₁, he₂⟩ := he
    obtain ⟨c, hc⟩ := Utf8.exists_char (v := (a.toNat - 0xF0) * 0x40000 + (b.toNat - 0x80) * 0x1000 +
      (d.toNat - 0x80) * 0x40 + (e.toNat - 0x80)) (by omega)
    refine ⟨c, ?_⟩
    rw [String.utf8EncodeChar, hc, if_neg (by omega), if_neg (by omega), if_neg (by omega),
      ofNat_eq (a := a) (by omega), ofNat_eq (a := b) (by omega), ofNat_eq (a := d) (by omega),
      ofNat_eq (a := e) (by omega)]

theorem IsSequence.isUtf8 {s : List UInt8} (h : IsSequence s) : IsUtf8 s := by
  obtain ⟨c, rfl⟩ := h.exists_char
  exact isUtf8_char c

theorem isUtf8_of_ascii {text : List UInt8} (h : ∀ b ∈ text, b.toNat < 0x80) : IsUtf8 text := by
  induction text with
  | nil => exact isUtf8_nil
  | cons b text ih =>
    obtain ⟨hb, htext⟩ := List.forall_mem_cons.1 h
    exact (IsSequence.one hb).isUtf8.append (ih htext)

theorem isUtf8_of_all {text : List UInt8} (h : (text.all fun b => b.toNat < 0x80) = true) :
    IsUtf8 text :=
  isUtf8_of_ascii (by simpa using h)

theorem isUtf8_flatMap {α : Type*} {items : List α} {spell : α → List UInt8}
    (h : ∀ item ∈ items, IsUtf8 (spell item)) : IsUtf8 (items.flatMap spell) := by
  induction items with
  | nil => exact isUtf8_nil
  | cons item items ih =>
    obtain ⟨hitem, hitems⟩ := List.forall_mem_cons.1 h
    rw [List.flatMap_cons]
    exact hitem.append (ih hitems)

end Utf8

end ErikslundHttp
