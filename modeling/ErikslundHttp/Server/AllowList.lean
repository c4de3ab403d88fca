import ErikslundHttp.Server.Cidr

/-!
# What an allow list allows

An entry stands for a `Network`: the addresses whose first bits are those of a given address
(`Denotes`).  A rule keeps that address with its other bits cleared, and compares bytes and a
masked byte.

* `CidrRule.Represents.matches_iff`: a rule matches the addresses of its network.
* `allow_list_matches_networks`: a list that is not empty allows the peers in one of its networks,
  and nothing about a peer depends on how the networks are written.
-/

namespace ErikslundHttp

open Scan Bits

/-! ### Networks -/

/-- The addresses whose first `prefixBits` bits are those of `address`. -/
structure Network where
  address : Vector UInt8 kIpv6ByteCount
  prefixBits : ℕ
  inRange : prefixBits ≤ kIpv6PrefixBitCount

namespace Network

/-- The address begins as the network does. -/
def Contains (network : Network) (address : Vector UInt8 kIpv6ByteCount) : Prop :=
  Agree network.prefixBits network.address address

/-- The two differ in host bits at most. -/
def Same (network network' : Network) : Prop :=
  network.prefixBits = network'.prefixBits ∧
    Agree network.prefixBits network.address network'.address

theorem Same.symm {network network' : Network} (h : Same network network') :
    Same network' network := ⟨h.1.symm, h.1 ▸ h.2.symm⟩

theorem Same.contains {network network' : Network} (h : Same network network')
    {address : Vector UInt8 kIpv6ByteCount} (hc : network.Contains address) :
    network'.Contains address := by
  obtain ⟨hbits, hagree⟩ := h
  rw [Contains, ← hbits]
  exact hagree.symm.trans hc

/-- `::ffff:0:0/96`. -/
def mapped : Network :=
  ⟨mappedAddress (Vector.replicate 4 0), kIpv4MappedPrefixBits, by decide⟩

theorem mapped_contains_mappedAddress (address : Vector UInt8 4) :
    mapped.Contains (mappedAddress address) := by
  -- the bytes before the address do not depend on it
  have hbytes : ∀ address : Vector UInt8 4, ∀ index < 12, byteAt (mappedAddress address) index =
      byteAt (Vector.replicate 10 (0 : UInt8) ++ (#v[0xFF, 0xFF] : Vector UInt8 2)) index := by
    intro address index hindex
    simp only [byteAt, mappedAddress]
    exact congrArg (Option.getD · 0) (Vector.getElem?_append_left hindex)
  refine agree_iff.2 ⟨fun index hindex => ?_, ?_⟩
  · have hindex : index < 12 := hindex
    exact (hbytes _ index hindex).trans (hbytes address index hindex).symm
  · show _ &&& mask 0 = _ &&& mask 0
    rw [masked_eq_iff (by decide)]
    nofun

end Network

/-! ### What an entry stands for -/

section Entries

variable (pton : InetPton)

/-- `text` is an address, in the form that `inet_pton` reads. -/
inductive ReadsAddress : Bytes → ParsedAddress → Prop
  | dottedQuad {text : Bytes} {address : Vector UInt8 4} (h : pton.v4 text = some address) :
      ReadsAddress text ⟨mappedAddress address, true⟩
  | ipv6 {text : Bytes} {address : Vector UInt8 kIpv6ByteCount} (hv4 : pton.v4 text = none)
      (h : pton.v6 text = some address) : ReadsAddress text ⟨address, false⟩

/-- A text that can be handed to `inet_pton`, and has no prefix length. -/
structure IsAddressText (text : Bytes) : Prop where
  nonempty : text ≠ []
  /-- It fits into the buffer of `parse_address`, with its terminator. -/
  fits : text.length < kAddressTextCapacity
  /-- It has no NUL. -/
  terminated : 0 ∉ text
  /-- The prefix length is cut off before. -/
  whole : byte '/' ∉ text

/-- The bits of the prefix that an address in this form has before those that are written. -/
def offsetBits (fromDottedQuad : Bool) : ℕ := if fromDottedQuad then kIpv4MappedPrefixBits else 0

/-- `ADDRESS` or `ADDRESS/PREFIX`. -/
inductive Denotes : Bytes → Network → Prop
  | host {text : Bytes} {parsed : ParsedAddress} (htext : IsAddressText text)
      (hread : ReadsAddress pton text parsed) :
      Denotes text ⟨parsed.bytes, kIpv6PrefixBitCount, le_rfl⟩
  | subnet {text digits : Bytes} {parsed : ParsedAddress} (htext : IsAddressText text)
      (hread : ReadsAddress pton text parsed) (hdigits : digits ≠ [])
      (hdecimal : ∀ b ∈ digits, isDecimalDigit b = true)
      (hrange : decimalValue digits + offsetBits parsed.fromDottedQuad ≤ kIpv6PrefixBitCount) :
      Denotes (text ++ byte '/' :: digits)
        ⟨parsed.bytes, decimalValue digits + offsetBits parsed.fromDottedQuad, hrange⟩

/-- The address of the entry is an IPv4 address. -/
def IsDottedQuad (entry : Bytes) : Prop :=
  (pton.v4 (entry.takeWhile (· != byte '/'))).isSome = true

end Entries

variable {pton : InetPton}

theorem parseAddress_eq_some_iff {text : Bytes} {parsed : ParsedAddress} (hwhole : byte '/' ∉ text) :
    parseAddress pton text = some parsed ↔ IsAddressText text ∧ ReadsAddress pton text parsed := by
  unfold parseAddress
  split_ifs with hbad
  · simp only [Bool.or_eq_true, List.isEmpty_iff, decide_eq_true_eq, List.contains_iff_mem] at hbad
    refine ⟨nofun, fun ⟨htext, _⟩ => ?_⟩
    rcases hbad with (hnil | hlong) | hzero
    · exact absurd hnil htext.nonempty
    · exact absurd htext.fits (not_lt.2 hlong)
    · exact absurd hzero htext.terminated
  · simp only [Bool.or_eq_true, List.isEmpty_iff, decide_eq_true_eq, List.contains_iff_mem,
      not_or] at hbad
    have htext : IsAddressText text := ⟨hbad.1.1, not_le.1 hbad.1.2, hbad.2, hwhole⟩
    cases hv4 : pton.v4 text with
    | some address =>
      refine ⟨fun h => Option.some.inj h ▸ ⟨htext, .dottedQuad hv4⟩, fun ⟨_, h⟩ => ?_⟩
      cases h with
      | dottedQuad h => rw [hv4] at h; cases h; rfl
      | ipv6 h => rw [hv4] at h; cases h
    | none =>
      rw [Option.map_eq_some_iff]
      refine ⟨fun ⟨address, h, heq⟩ => heq ▸ ⟨htext, .ipv6 hv4 h⟩, fun ⟨_, h⟩ => ?_⟩
      cases h with
      | dottedQuad h => rw [hv4] at h; cases h
      | ipv6 _ h => exact ⟨_, h, rfl⟩

theorem parsePrefix_eq_ok_iff {text : Bytes} {fromDottedQuad : Bool} {bits : ℕ} :
    parsePrefix text fromDottedQuad = .ok bits ↔ text ≠ [] ∧
      (∀ b ∈ text, isDecimalDigit b = true) ∧
      decimalValue text + offsetBits fromDottedQuad ≤ kIpv6PrefixBitCount ∧
      bits = decimalValue text + offsetBits fromDottedQuad := by
  simp only [parsePrefix, bind_eq_ok, ensure_eq_ok, pure_eq_ok, Bool.and_eq_true, List.all_eq_true,
    Bool.not_eq_true', List.isEmpty_eq_false_iff, decide_eq_true_eq, offsetBits,
    kIpv4PrefixBitCount, kIpv6PrefixBitCount, kIpv4MappedPrefixBits]
  cases fromDottedQuad <;> simp <;> grind

/-! ### Rules -/

/-- The rule is for the addresses of the network. -/
structure CidrRule.Represents (rule : CidrRule) (network : Network) : Prop where
  bytes : rule.network = clearHostBits network.address network.prefixBits
  bits : rule.prefixBits = network.prefixBits

/-- Clearing the host bits keeps the others. -/
theorem agree_clearHostBits (address : Vector UInt8 kIpv6ByteCount) {prefixBits : ℕ}
    (hrange : prefixBits ≤ kIpv6PrefixBitCount) :
    Agree prefixBits (clearHostBits address prefixBits) address := by
  have hwhole : prefixBits / 8 ≤ kIpv6ByteCount := Nat.div_le_of_le_mul hrange
  have hbyte : ∀ index, (hindex : index < kIpv6ByteCount) →
      byteAt (clearHostBits address prefixBits) index =
        if index < prefixBits / 8 then address[index]
        else if index = prefixBits / 8 && prefixBits % 8 != 0 then
          address[index] &&& UInt8.ofNat (mask (prefixBits % 8))
        else 0 := by
    intro index hindex
    simp [byteAt, clearHostBits, hindex, mask]
  have haddress : ∀ index, (hindex : index < kIpv6ByteCount) → byteAt address index =
      address[index] := by
    intro index hindex
    simp [byteAt, hindex]
  refine agree_iff.2 ⟨fun index hindex => ?_, (masked_eq_iff (Nat.mod_lt _ (by decide)).le).2
    fun j hj => ?_⟩
  · rw [hbyte index (by omega), haddress index (by omega), if_pos hindex]
  · -- the masked byte is within the address
    have hinside : prefixBits / 8 < kIpv6ByteCount := by
      simp only [kIpv6PrefixBitCount, kIpv6ByteCount] at hrange ⊢
      omega
    have hmask := testBit_mask (Nat.mod_lt prefixBits (by decide : 0 < 8)).le (show j < 8 by omega)
    rw [hbyte _ hinside, haddress _ hinside, if_neg (lt_irrefl _), if_pos (by simp; omega),
      UInt8.toNat_and, UInt8.toNat_ofNat', Nat.testBit_land, Nat.testBit_mod_two_pow, hmask]
    simp [hj, show 7 - j < 8 by omega]

/-- The rule compares the first bits. -/
theorem CidrRule.matches_iff {rule : CidrRule} (hrange : rule.prefixBits ≤ kIpv6PrefixBitCount)
    (address : Vector UInt8 kIpv6ByteCount) :
    rule.matches address = true ↔ Agree rule.prefixBits rule.network address := by
  rw [CidrRule.matches, if_neg (not_lt.2 hrange), agree_iff]
  dsimp only
  split_ifs with hwhole hrest
  · simp only [List.any_eq_true, List.mem_range, bne_iff_ne] at hwhole
    obtain ⟨index, hindex, hne⟩ := hwhole
    exact ⟨nofun, fun ⟨heq, _⟩ => absurd (heq index hindex).symm hne⟩
  all_goals
    simp only [List.any_eq_true, List.mem_range, bne_iff_ne, not_exists, not_and, not_not] at hwhole
    have hwhole' := fun index hindex => (hwhole index hindex).symm
  · rw [beq_iff_eq.1 hrest, masked_eq_iff (by decide)]
    exact ⟨fun _ => ⟨hwhole', nofun⟩, fun _ => rfl⟩
  · rw [beq_iff_eq]
    exact ⟨fun h => ⟨hwhole', h.symm⟩, fun h => h.2.symm⟩

theorem CidrRule.Represents.matches_iff {rule : CidrRule} {network : Network}
    (h : rule.Represents network) (address : Vector UInt8 kIpv6ByteCount) :
    rule.matches address = true ↔ network.Contains address := by
  have hagree := agree_clearHostBits network.address network.inRange
  rw [CidrRule.matches_iff (h.bits ▸ network.inRange), h.bytes, h.bits]
  exact ⟨fun hm => hagree.symm.trans hm, fun hc => hagree.trans hc⟩

/-! ### Entries -/

/-- A rule is made of an entry that stands for a network. -/
theorem denotes_of_parseEntry {entry : Bytes} {rule : CidrRule}
    (h : parseEntry pton entry = .ok rule) :
    ∃ network, Denotes pton entry network ∧ rule.Represents network := by
  cases hfind : find (byte '/') entry with
  | none =>
    have hwhole := find_eq_none_iff.1 hfind
    simp only [parseEntry, hfind, bind_eq_ok, ensure_eq_ok, orFail_eq_ok, Option.map_none,
      Option.getD_none, Option.isSome_none, Bool.false_eq_true, if_false, pure_eq_ok] at h
    obtain ⟨-, -, -, -, parsed, hparse, bits, rfl, rfl⟩ := h
    obtain ⟨htext, hread⟩ := (parseAddress_eq_some_iff hwhole).1 hparse
    exact ⟨_, .host htext hread, rfl, rfl⟩
  | some index =>
    obtain ⟨text, digits, rfl, hwhole, rfl⟩ := find_eq_some_iff.1 hfind
    simp only [parseEntry, hfind, bind_eq_ok, ensure_eq_ok, orFail_eq_ok, Option.map_some,
      Option.getD_some, Option.isSome_some, if_true, pure_eq_ok, List.take_left,
      drop_succ_append_cons, parsePrefix_eq_ok_iff] at h
    obtain ⟨-, -, -, -, parsed, hparse, bits, ⟨hdigits, hdecimal, hrange, rfl⟩, rfl⟩ := h
    obtain ⟨htext, hread⟩ := (parseAddress_eq_some_iff hwhole).1 hparse
    exact ⟨_, .subnet htext hread hdigits hdecimal hrange, rfl, rfl⟩

theorem notMem_of_digits {digits : Bytes} (h : ∀ b ∈ digits, isDecimalDigit b = true) :
    byte '/' ∉ digits := fun hmem => by
  have hslash := h _ hmem
  revert hslash
  decide

/-- The rule that is made of an address with a prefix. -/
def ParsedAddress.rule (parsed : ParsedAddress) (prefixBits : ℕ) : CidrRule :=
  ⟨clearHostBits parsed.bytes prefixBits, prefixBits, parsed.fromDottedQuad ||
    isIpv4Mapped (clearHostBits parsed.bytes prefixBits) && kIpv4MappedPrefixBits ≤ prefixBits⟩

/-- A rule is made of every entry that stands for a network. -/
theorem Denotes.parseEntry {entry : Bytes} {network : Network} (h : Denotes pton entry network) :
    ∃ rule, parseEntry pton entry = .ok rule ∧ rule.Represents network := by
  cases h with
  | @host _ parsed htext hread =>
    have hfind := find_eq_none_iff.2 htext.whole
    have hparse := (parseAddress_eq_some_iff htext.whole).2 ⟨htext, hread⟩
    refine ⟨parsed.rule kIpv6PrefixBitCount, ?_, rfl, rfl⟩
    simp only [ErikslundHttp.parseEntry, hfind, bind_eq_ok, ensure_eq_ok, orFail_eq_ok,
      Option.map_none, Option.getD_none, Option.isSome_none, Bool.false_eq_true, if_false,
      pure_eq_ok]
    exact ⟨(), by simpa using htext.nonempty, (), by simpa using htext.nonempty, parsed, hparse,
      _, rfl, rfl⟩
  | @subnet text digits parsed htext hread hdigits hdecimal hrange =>
    have hfind := find_append_cons htext.whole digits
    have hparse := (parseAddress_eq_some_iff htext.whole).2 ⟨htext, hread⟩
    refine ⟨parsed.rule (decimalValue digits + offsetBits parsed.fromDottedQuad), ?_, rfl, rfl⟩
    simp only [ErikslundHttp.parseEntry, hfind, bind_eq_ok, ensure_eq_ok, orFail_eq_ok,
      Option.map_some, Option.getD_some, Option.isSome_some, if_true, pure_eq_ok, List.take_left,
      drop_succ_append_cons, parsePrefix_eq_ok_iff]
    exact ⟨(), by simp, (), by simpa using ⟨htext.nonempty, notMem_of_digits hdecimal⟩, parsed,
      hparse, _, ⟨hdigits, hdecimal, hrange, rfl⟩, rfl⟩

/-- The rules of a list match the addresses in the networks of its entries. -/
theorem CidrAllowList.parse_matches_iff {entries : List Bytes} {list : CidrAllowList}
    (h : CidrAllowList.parse pton entries = .ok list) (address : Vector UInt8 kIpv6ByteCount) :
    (list.rules.any fun rule => rule.matches address) = true ↔
      ∃ entry ∈ entries, ∃ network, Denotes pton entry network ∧ network.Contains address := by
  simp only [CidrAllowList.parse, bind_eq_ok, pure_eq_ok] at h
  obtain ⟨rules, hrules, rfl⟩ := h
  rw [List.any_eq_true, exists_mem_of_mapM_eq_ok_iff hrules fun rule => rule.matches address = true]
  refine exists_congr fun entry => and_congr_right fun _ => ⟨?_, ?_⟩
  · rintro ⟨rule, hparse, hmatches⟩
    obtain ⟨network, hdenotes, hrule⟩ := denotes_of_parseEntry hparse
    exact ⟨network, hdenotes, (hrule.matches_iff address).1 hmatches⟩
  · rintro ⟨network, hdenotes, hcontains⟩
    obtain ⟨rule, hparse, hrule⟩ := hdenotes.parseEntry
    exact ⟨rule, hparse, (hrule.matches_iff address).2 hcontains⟩

theorem CidrAllowList.allows_iff {entries : List Bytes} {list : CidrAllowList}
    (h : CidrAllowList.parse pton entries = .ok list) (peer : PeerAddress) :
    list.allows peer = true ↔ entries = [] ∨ peer.isUnix = true ∨
      ∃ entry ∈ entries, ∃ network, Denotes pton entry network ∧ network.Contains peer.bytes := by
  have hempty : list.rules.isEmpty = true ↔ entries = [] := by
    simp only [CidrAllowList.parse, bind_eq_ok, pure_eq_ok] at h
    obtain ⟨rules, hrules, rfl⟩ := h
    rw [List.isEmpty_iff, mapM_eq_ok_nil_iff hrules]
  rw [CidrAllowList.allows, ← CidrAllowList.parse_matches_iff h, ← hempty]
  split_ifs with hnil hunix
  · simp [hnil]
  · simp [hunix]
  · simp [hnil, hunix]

/-! ### What the peers depend on -/

/-- Every network of the one list is a network of the other, up to host bits. -/
def Covers (pton : InetPton) (entries entries' : List Bytes) : Prop :=
  ∀ entry ∈ entries, ∀ network, Denotes pton entry network →
    ∃ entry' ∈ entries', ∃ network', Denotes pton entry' network' ∧ network.Same network'

theorem Covers.of_subset {entries entries' : List Bytes} (h : entries ⊆ entries') :
    Covers pton entries entries' := fun entry hentry network hdenotes =>
  ⟨entry, h hentry, network, hdenotes, rfl, Agree.refl _ _⟩

/-- Every entry of a list that is parsed stands for a network. -/
theorem exists_denotes {entries : List Bytes} {list : CidrAllowList}
    (h : CidrAllowList.parse pton entries = .ok list) {entry : Bytes} (hentry : entry ∈ entries) :
    ∃ network, Denotes pton entry network := by
  simp only [CidrAllowList.parse, bind_eq_ok, pure_eq_ok] at h
  obtain ⟨rules, hrules, -⟩ := h
  obtain ⟨rule, hrule⟩ := exists_mapM_eq_ok_iff.1 ⟨rules, hrules⟩ entry hentry
  obtain ⟨network, hdenotes, -⟩ := denotes_of_parseEntry hrule
  exact ⟨network, hdenotes⟩

theorem Covers.allows {entries entries' : List Bytes} {list list' : CidrAllowList}
    (hcovers : Covers pton entries entries') (h : CidrAllowList.parse pton entries = .ok list)
    (h' : CidrAllowList.parse pton entries' = .ok list') (hne : entries = [] → entries' = [])
    (peer : PeerAddress) (hallows : list.allows peer = true) : list'.allows peer = true := by
  rw [CidrAllowList.allows_iff h] at hallows
  rw [CidrAllowList.allows_iff h']
  rcases hallows with hnil | hunix | ⟨entry, hentry, network, hdenotes, hcontains⟩
  · exact .inl (hne hnil)
  · exact .inr (.inl hunix)
  · obtain ⟨entry', hentry', network', hdenotes', hsame⟩ := hcovers entry hentry network hdenotes
    exact .inr (.inr ⟨entry', hentry', network', hdenotes', hsame.contains hcontains⟩)

/-- A list that covers only an empty one is empty. -/
theorem Covers.eq_nil {entries : List Bytes} {list : CidrAllowList}
    (hcovers : Covers pton entries []) (h : CidrAllowList.parse pton entries = .ok list) :
    entries = [] := by
  by_contra hne
  obtain ⟨entry, hentry⟩ := List.exists_mem_of_ne_nil _ hne
  obtain ⟨network, hdenotes⟩ := exists_denotes h hentry
  obtain ⟨_, hmem, -⟩ := hcovers entry hentry network hdenotes
  cases hmem

/-- An IPv4 address stands for mapped addresses only. -/
theorem Denotes.mapped_contains {entry : Bytes} {network : Network}
    (h : Denotes pton entry network) (hquad : IsDottedQuad pton entry)
    {address : Vector UInt8 kIpv6ByteCount} (hc : network.Contains address) :
    Network.mapped.Contains address := by
  have hmapped : ∀ {text : Bytes} {parsed : ParsedAddress}, (pton.v4 text).isSome = true →
      ReadsAddress pton text parsed → parsed.fromDottedQuad = true ∧
        Network.mapped.Contains parsed.bytes := by
    intro text parsed hv4 hread
    cases hread with
    | dottedQuad _ => exact ⟨rfl, Network.mapped_contains_mappedAddress _⟩
    | ipv6 hnone _ => rw [hnone] at hv4; cases hv4
  have htake : ∀ {text : Bytes}, byte '/' ∉ text → ∀ rest : Bytes, (rest = [] ∨
      rest.head? = some (byte '/')) → (text ++ rest).takeWhile (· != byte '/') = text := by
    intro text htext rest hrest
    have hpos : ∀ b ∈ text, (b != byte '/') = true := fun b hb =>
      bne_iff_ne.2 fun heq => htext (heq ▸ hb)
    rw [List.takeWhile_append_of_pos hpos]
    rcases hrest with rfl | hrest
    · simp
    · cases rest with
      | nil => simp
      | cons b rest => simp [Option.some.inj hrest]
  cases h with
  | @host _ parsed htext hread =>
    have hquad' := htake htext.whole [] (.inl rfl)
    rw [List.append_nil] at hquad'
    rw [IsDottedQuad, hquad'] at hquad
    exact (hmapped hquad hread).2.trans (hc.mono (show kIpv4MappedPrefixBits ≤ kIpv6PrefixBitCount by decide))
  | @subnet text digits parsed htext hread hdigits hdecimal hrange =>
    rw [IsDottedQuad, htake htext.whole _ (.inr rfl)] at hquad
    obtain ⟨hfrom, hcontains⟩ := hmapped hquad hread
    refine hcontains.trans (hc.mono ?_)
    show kIpv4MappedPrefixBits ≤ decimalValue digits + offsetBits parsed.fromDottedQuad
    rw [hfrom]
    exact Nat.le_add_left _ _

/-- **An allow list is its networks.**  A list is parsed just if each entry is on its own.  It
allows every peer if it is empty, and else Unix peers and those in the network of some entry: the
peers whose address begins with the bits of the prefix.  So the answer depends on the networks
alone, up to their host bits, in any order and any number; an IPv4 entry stands for peers in
`::ffff:0:0/96`; and more entries allow more peers, unless there was none. -/
theorem allow_list_matches_networks (pton : InetPton) {entries : List Bytes} {list : CidrAllowList}
    (h : CidrAllowList.parse pton entries = .ok list) :
    (∀ entries, (∃ list, CidrAllowList.parse pton entries = .ok list) ↔
      ∀ entry ∈ entries, ∃ list, CidrAllowList.parse pton [entry] = .ok list) ∧
    (∀ rule ∈ list.rules, rule.prefixBits ≤ kIpv6PrefixBitCount) ∧
    (∀ peer, list.allows peer = true ↔ entries = [] ∨ peer.isUnix = true ∨
      ∃ entry ∈ entries, ∃ network, Denotes pton entry network ∧ network.Contains peer.bytes) ∧
    (∀ entry ∈ entries, ∀ network, Denotes pton entry network → IsDottedQuad pton entry →
      ∀ address, network.Contains address → Network.mapped.Contains address) ∧
    ∀ entries' list', CidrAllowList.parse pton entries' = .ok list' →
      (Covers pton entries entries' → Covers pton entries' entries →
        ∀ peer, list'.allows peer = list.allows peer) ∧
      (entries ≠ [] → entries ⊆ entries' →
        ∀ peer, list.allows peer = true → list'.allows peer = true) := by
  refine ⟨fun _ => CidrAllowList.parse_isOk_iff, fun rule hrule => ?_, CidrAllowList.allows_iff h,
    fun _ _ _ hdenotes hquad _ hc => hdenotes.mapped_contains hquad hc, fun entries' list' h' =>
    ⟨fun hcovers hcovers' peer => ?_, fun hne hsub peer hallows => ?_⟩⟩
  · simp only [CidrAllowList.parse, bind_eq_ok, pure_eq_ok] at h
    obtain ⟨rules, hrules, rfl⟩ := h
    obtain ⟨entry, -, _, hparse, rfl⟩ :=
      (exists_mem_of_mapM_eq_ok_iff hrules (· = rule)).1 ⟨rule, hrule, rfl⟩
    obtain ⟨network, -, hrule⟩ := denotes_of_parseEntry hparse
    rw [hrule.bits]
    exact network.inRange
  · rw [Bool.eq_iff_iff]
    exact ⟨hcovers'.allows h' h (fun hnil => (hnil ▸ hcovers).eq_nil h) peer,
      hcovers.allows h h' (fun hnil => (hnil ▸ hcovers').eq_nil h') peer⟩
  · exact (Covers.of_subset hsub).allows h h' (fun hnil => absurd hnil hne) peer hallows

/-- The addresses of the next example. -/
def InetPton.privateAddress : InetPton where
  v4 text := if text = ascii "10.0.0.0" then some #v[10, 0, 0, 0] else none
  v6 _ := none

theorem allow_list_matches_private_network :
    ∃ list, CidrAllowList.parse .privateAddress [ascii "10.0.0.0/8"] = .ok list ∧
      list.allows { bytes := mappedAddress #v[10, 1, 2, 3], isV4 := true } = true ∧
      ∃ entry ∈ [ascii "10.0.0.0/8"], ∃ network, Denotes .privateAddress entry network ∧
        network.Contains (mappedAddress #v[10, 1, 2, 3]) := by
  have hparse : (CidrAllowList.parse .privateAddress [ascii "10.0.0.0/8"]).toOption.any (fun list =>
      list.allows { bytes := mappedAddress #v[10, 1, 2, 3], isV4 := true }) = true := by
    decide +kernel
  cases hlist : CidrAllowList.parse .privateAddress [ascii "10.0.0.0/8"] with
  | error error => rw [hlist] at hparse; cases hparse
  | ok list =>
    rw [hlist] at hparse
    have hallows := ((allow_list_matches_networks .privateAddress hlist).2.2.1 _).1 hparse
    exact ⟨list, rfl, hparse, (hallows.resolve_left nofun).resolve_left nofun⟩

end ErikslundHttp
