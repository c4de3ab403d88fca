import ErikslundHttp.Lib.Bits
import ErikslundHttp.Request.Scanners

/-!
# The allow list

`CidrAllowList::parse` (`cidr.cpp`) makes a rule of every entry, or of none: it fails at the first
entry that has no form.  Which texts are addresses is up to `inet_pton`.
-/

namespace ErikslundHttp

open Scan

/-- The errors of an entry of the allow list. -/
inductive CidrError where
  | malformedEntry
  | badPrefixLength
  | badAddress
  deriving DecidableEq

/-- The bits before the IPv4 address in a mapped one. -/
def kIpv4MappedPrefixBits : ℕ := 96

/-- The bits of an IPv6 address. -/
def kIpv6PrefixBitCount : ℕ := 128

/-- Those of an IPv4 address. -/
def kIpv4PrefixBitCount : ℕ := kIpv6PrefixBitCount - kIpv4MappedPrefixBits

/-- Where the two bytes `FF FF` of a mapped address begin. -/
def kMappedMarkerFirstIndex : ℕ := 10

/-- Where they end. -/
def kMappedMarkerLastIndex : ℕ := 11

/-- `INET6_ADDRSTRLEN`. -/
def kAddressTextCapacity : ℕ := 46

/-- An address, and whether it was written with dots. -/
structure ParsedAddress where
  bytes : Vector UInt8 kIpv6ByteCount
  /-- It was written with dots. -/
  fromDottedQuad : Bool := false

/-- The mapped form of an IPv4 address. -/
def mappedAddress (address : Vector UInt8 4) : Vector UInt8 kIpv6ByteCount :=
  (Vector.replicate kMappedMarkerFirstIndex (0 : UInt8) ++ (#v[0xFF, 0xFF] : Vector UInt8 2) ++
    address).cast rfl

/-- `is_ipv4_mapped`. -/
def isIpv4Mapped (bytes : Vector UInt8 kIpv6ByteCount) : Bool :=
  (bytes.toList.take kMappedMarkerFirstIndex).all (· == 0) &&
    bytes.toList[kMappedMarkerFirstIndex]? == some 0xFF &&
    bytes.toList[kMappedMarkerLastIndex]? == some 0xFF

/-- `parse_address`. -/
def parseAddress (pton : InetPton) (text : Bytes) : Option ParsedAddress :=
  if text.isEmpty || kAddressTextCapacity ≤ text.length || text.contains 0 then none
  else
    match pton.v4 text with
    | some address => some ⟨mappedAddress address, true⟩
    | none => (pton.v6 text).map fun address => ⟨address, false⟩

/-- The number is read into an `unsigned int`. -/
def parsePrefix (text : Bytes) (fromDottedQuad : Bool) : Except CidrError ℕ := do
  ensure (!text.isEmpty && text.all isDecimalDigit && decimalValue text < 2 ^ 32) .badPrefixLength
  let writtenBits := decimalValue text
  let maximumBits := if fromDottedQuad then kIpv4PrefixBitCount else kIpv6PrefixBitCount
  ensure (writtenBits ≤ maximumBits) .badPrefixLength
  return if fromDottedQuad then writtenBits + kIpv4MappedPrefixBits else writtenBits

/-- `clear_host_bits`. -/
def clearHostBits (bytes : Vector UInt8 kIpv6ByteCount) (prefixBits : ℕ) :
    Vector UInt8 kIpv6ByteCount :=
  let wholeBytes := prefixBits / 8
  let remainingBits := prefixBits % 8
  Vector.ofFn fun index =>
    if index.val < wholeBytes then bytes[index]
    else if index.val = wholeBytes && remainingBits != 0 then
      bytes[index] &&& UInt8.ofNat (0xFF <<< (8 - remainingBits))
    else 0

/-- The members of `CidrRule`. -/
structure CidrRule where
  /-- With its host bits cleared. -/
  network : Vector UInt8 kIpv6ByteCount
  /-- How many bits of the address count. -/
  prefixBits : ℕ
  /-- It was written as an IPv4 network. -/
  isV4 : Bool

/-- `parse_entry`. -/
def parseEntry (pton : InetPton) (entry : Bytes) : Except CidrError CidrRule := do
  ensure (!entry.isEmpty) .malformedEntry
  let separator := find (byte '/') entry
  let addressText := (separator.map entry.take).getD entry
  let prefixText := (separator.map fun index => entry.drop (index + 1)).getD []
  ensure (!addressText.isEmpty && !prefixText.contains (byte '/')) .malformedEntry
  let address ← orFail .badAddress (parseAddress pton addressText)
  let prefixBits ←
    if separator.isSome then parsePrefix prefixText address.fromDottedQuad
    else pure kIpv6PrefixBitCount
  let network := clearHostBits address.bytes prefixBits
  return ⟨network, prefixBits,
    address.fromDottedQuad || isIpv4Mapped network && kIpv4MappedPrefixBits ≤ prefixBits⟩

/-- `CidrAllowList`. -/
structure CidrAllowList where
  /-- Without any, every peer is allowed. -/
  rules : List CidrRule := []

/-- `CidrAllowList::parse`; the first bad entry is the error. -/
def CidrAllowList.parse (pton : InetPton) (entries : List Bytes) :
    Except CidrError CidrAllowList :=
  return ⟨← entries.mapM (parseEntry pton)⟩

/-! ### Peers -/

/-- The bytes are indexed within bounds, since a prefix has at most 128 bits. -/
def CidrRule.matches (rule : CidrRule) (address : Vector UInt8 kIpv6ByteCount) : Bool :=
  if kIpv6PrefixBitCount < rule.prefixBits then false
  else
    let wholeBytes := rule.prefixBits / 8
    if (List.range wholeBytes).any fun index =>
        Bits.byteAt address index != Bits.byteAt rule.network index then false
    else
      let remainingBits := rule.prefixBits % 8
      if remainingBits == 0 then true
      else
        let mask := 0xFF <<< (8 - remainingBits)
        (Bits.byteAt address wholeBytes).toNat &&& mask ==
          (Bits.byteAt rule.network wholeBytes).toNat &&& mask

/-- An empty list allows every peer. -/
def CidrAllowList.allows (list : CidrAllowList) (peer : PeerAddress) : Bool :=
  if list.rules.isEmpty then true
  else if peer.isUnix then true
  else list.rules.any fun rule => rule.matches peer.bytes

/-- A list is parsed if its entries are, each of them on its own. -/
theorem CidrAllowList.parse_isOk_iff {pton : InetPton} {entries : List Bytes} :
    (∃ list, CidrAllowList.parse pton entries = .ok list) ↔
      ∀ entry ∈ entries, ∃ list, CidrAllowList.parse pton [entry] = .ok list := by
  simp only [parse, bind_eq_ok, pure_eq_ok]
  have hrules : ∀ entries : List Bytes,
      (∃ list : CidrAllowList, ∃ rules, entries.mapM (parseEntry pton) = .ok rules ∧
          ⟨rules⟩ = list) ↔
        ∃ rules, entries.mapM (parseEntry pton) = .ok rules := by
    intro entries
    constructor
    · rintro ⟨_, rules, h, -⟩
      exact ⟨rules, h⟩
    · rintro ⟨rules, h⟩
      exact ⟨_, rules, h, rfl⟩
  simp only [hrules, exists_mapM_eq_ok_iff, List.forall_mem_singleton]

end ErikslundHttp
