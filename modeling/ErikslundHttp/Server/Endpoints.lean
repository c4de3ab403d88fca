import ErikslundHttp.Server.Cidr
import ErikslundHttp.Server.Options

/-!
# Where listeners listen

`fill_bind_address` (`socket.cpp`) makes a socket address of the text and the port of a listener.
The check for repeated listeners compares the texts and the ports (`Listener.endpoint`).  One
address has several texts: `*` and `::` are both the IPv6 wildcard, and `inet_pton` reads many
literals alike.

* `Aliases` lists the pairs of texts that the check does not tell are one address.
* `endpoints_are_distinct_iff`: the check misses nothing else.
-/

namespace ErikslundHttp

/-- The address of a `sockaddr_in` or a `sockaddr_in6`. -/
inductive IpAddress where
  | v4 (bytes : Vector UInt8 4)
  | v6 (bytes : Vector UInt8 kIpv6ByteCount)
  deriving DecidableEq

/-- The family, the address and the port of a socket address. -/
structure SocketAddress where
  address : IpAddress
  port : UInt16
  deriving DecidableEq

/-- `INADDR_ANY`. -/
def kIpv4Any : Vector UInt8 4 := Vector.replicate 4 0

/-- `in6addr_any`. -/
def kIpv6Any : Vector UInt8 kIpv6ByteCount := Vector.replicate kIpv6ByteCount 0

/-- `is_wildcard_address`. -/
def isWildcardAddress (bindAddress : Bytes) : Bool :=
  bindAddress.isEmpty || bindAddress == ascii "::" || bindAddress == ascii "0.0.0.0" ||
    bindAddress == ascii "*"

/-- `fill_bind_address`, up to the structure that it fills. -/
def fillBindAddress (pton : InetPton) (bindAddress : Bytes) (port : UInt16) :
    Except ServerError SocketAddress :=
  if bindAddress = ascii "0.0.0.0" then .ok ⟨.v4 kIpv4Any, port⟩
  else if isWildcardAddress bindAddress then .ok ⟨.v6 kIpv6Any, port⟩
  -- the copy has one byte more than an address literal, for the NUL
  else if kAddressTextCapacity + 1 ≤ bindAddress.length then
    .error ⟨ascii "bind address '" ++ bindAddress ++ ascii "' is not an address literal"⟩
  else
    match pton.v4 (cString bindAddress) with
    | some address => .ok ⟨.v4 address, port⟩
    | none =>
      match pton.v6 (cString bindAddress) with
      | some address => .ok ⟨.v6 address, port⟩
      | none => .error ⟨ascii "bind address '" ++ bindAddress ++
          ascii ("' is neither an IPv4 nor an IPv6 literal; host names are not resolved " ++
            "because the interface a daemon listens on must not depend on DNS")⟩

/-! ### The texts of an address -/

section Texts

variable (pton : InetPton) (text text' : Bytes)

/-- A text that `inet_pton` is asked for. -/
def IsLiteral : Prop := isWildcardAddress text = false ∧ text.length ≤ kAddressTextCapacity

/-- The text is read as an IPv4 address. -/
def ReadsV4 (address : Vector UInt8 4) : Prop :=
  IsLiteral text ∧ pton.v4 (cString text) = some address

/-- The text is read as an IPv6 address. -/
def ReadsV6 (address : Vector UInt8 kIpv6ByteCount) : Prop :=
  IsLiteral text ∧ pton.v4 (cString text) = none ∧ pton.v6 (cString text) = some address

/-- The text is a spelling of all IPv4 addresses. -/
def IsIpv4Any : Prop := text = ascii "0.0.0.0" ∨ ReadsV4 pton text kIpv4Any

/-- The text is a spelling of all addresses. -/
def IsIpv6Any : Prop := text = [] ∨ text = ascii "::" ∨ text = ascii "*" ∨ ReadsV6 pton text kIpv6Any

/-- Two texts of one address: of a wildcard, or literals that `inet_pton` reads alike. -/
structure Aliases : Prop where
  /-- The textual check takes them for two addresses. -/
  different : text ≠ text'
  alike : (IsIpv4Any pton text ∧ IsIpv4Any pton text') ∨ (IsIpv6Any pton text ∧ IsIpv6Any pton text') ∨
    (∃ address, ReadsV4 pton text address ∧ ReadsV4 pton text' address) ∨
    ∃ address, ReadsV6 pton text address ∧ ReadsV6 pton text' address

variable {pton text text'}

theorem isWildcardAddress_iff : isWildcardAddress text = true ↔
    text = [] ∨ text = ascii "::" ∨ text = ascii "0.0.0.0" ∨ text = ascii "*" := by
  simp [isWildcardAddress, or_assoc]

/-- What is filled in for a text, one case for each branch. -/
inductive Fills (pton : InetPton) (text : Bytes) : IpAddress → Prop where
  | ipv4Any (h : text = ascii "0.0.0.0") : Fills pton text (.v4 kIpv4Any)
  | ipv6Any (h : text = [] ∨ text = ascii "::" ∨ text = ascii "*") : Fills pton text (.v6 kIpv6Any)
  | v4 {address : Vector UInt8 4} (h : ReadsV4 pton text address) : Fills pton text (.v4 address)
  | v6 {address : Vector UInt8 kIpv6ByteCount} (h : ReadsV6 pton text address) :
    Fills pton text (.v6 address)

theorem fills_of_fillBindAddress {port : UInt16} {filled : SocketAddress}
    (h : fillBindAddress pton text port = .ok filled) :
    filled.port = port ∧ Fills pton text filled.address := by
  rw [fillBindAddress] at h
  split_ifs at h with hany hwildcard hlong
  · cases h
    exact ⟨rfl, .ipv4Any hany⟩
  · cases h
    rw [isWildcardAddress_iff] at hwildcard
    exact ⟨rfl, .ipv6Any (by tauto)⟩
  · have hliteral : IsLiteral text := ⟨by simpa using hwildcard, by omega⟩
    split at h
    · rename_i address hv4
      cases h
      exact ⟨rfl, .v4 ⟨hliteral, hv4⟩⟩
    · rename_i hv4
      split at h
      · rename_i address hv6
        cases h
        exact ⟨rfl, .v6 ⟨hliteral, hv4, hv6⟩⟩
      · cases h

theorem Fills.fillBindAddress {address : IpAddress} (h : Fills pton text address) (port : UInt16) :
    fillBindAddress pton text port = .ok ⟨address, port⟩ := by
  have hnotAny (hwildcard : isWildcardAddress text = false) : text ≠ ascii "0.0.0.0" := by
    rintro rfl
    cases hwildcard
  have hnotWildcard (hwildcard : isWildcardAddress text = false) : ¬ isWildcardAddress text = true :=
    Bool.eq_false_iff.1 hwildcard
  cases h with
  | ipv4Any h => exact if_pos h
  | ipv6Any h =>
    have hany : text ≠ ascii "0.0.0.0" := by rcases h with rfl | rfl | rfl <;> decide
    rw [ErikslundHttp.fillBindAddress, if_neg hany, if_pos (isWildcardAddress_iff.2 (by tauto))]
  | v4 h =>
    obtain ⟨⟨hwildcard, hshort⟩, hv4⟩ := h
    rw [ErikslundHttp.fillBindAddress, if_neg (hnotAny hwildcard), if_neg (hnotWildcard hwildcard),
      if_neg (by omega), hv4]
  | v6 h =>
    obtain ⟨⟨hwildcard, hshort⟩, hv4, hv6⟩ := h
    rw [ErikslundHttp.fillBindAddress, if_neg (hnotAny hwildcard), if_neg (hnotWildcard hwildcard),
      if_neg (by omega), hv4, hv6]

/-- Two different texts are filled in alike exactly if they are aliases. -/
theorem aliases_iff : Aliases pton text text' ↔
    text ≠ text' ∧ ∃ address, Fills pton text address ∧ Fills pton text' address := by
  have hv4 {text : Bytes} (h : IsIpv4Any pton text) : Fills pton text (.v4 kIpv4Any) :=
    h.elim .ipv4Any .v4
  have hv6 {text : Bytes} (h : IsIpv6Any pton text) : Fills pton text (.v6 kIpv6Any) := by
    rcases h with h | h | h | h
    · exact .ipv6Any (.inl h)
    · exact .ipv6Any (.inr (.inl h))
    · exact .ipv6Any (.inr (.inr h))
    · exact .v6 h
  have hany {text : Bytes} (h : text = [] ∨ text = ascii "::" ∨ text = ascii "*") :
      IsIpv6Any pton text := by
    rcases h with h | h | h
    · exact .inl h
    · exact .inr (.inl h)
    · exact .inr (.inr (.inl h))
  constructor
  · rintro ⟨hdifferent, ⟨h, h'⟩ | ⟨h, h'⟩ | ⟨address, h, h'⟩ | ⟨address, h, h'⟩⟩
    · exact ⟨hdifferent, _, hv4 h, hv4 h'⟩
    · exact ⟨hdifferent, _, hv6 h, hv6 h'⟩
    · exact ⟨hdifferent, _, .v4 h, .v4 h'⟩
    · exact ⟨hdifferent, _, .v6 h, .v6 h'⟩
  · rintro ⟨hdifferent, address, h, h'⟩
    refine ⟨hdifferent, ?_⟩
    cases h with
    | ipv4Any h =>
      cases h' with
      | ipv4Any h' => exact .inl ⟨.inl h, .inl h'⟩
      | v4 h' => exact .inl ⟨.inl h, .inr h'⟩
    | ipv6Any h =>
      cases h' with
      | ipv6Any h' => exact .inr (.inl ⟨hany h, hany h'⟩)
      | v6 h' => exact .inr (.inl ⟨hany h, .inr (.inr (.inr h'))⟩)
    | v4 h =>
      cases h' with
      | ipv4Any h' => exact .inl ⟨.inr h, .inl h'⟩
      | v4 h' => exact .inr (.inr (.inl ⟨_, h, h'⟩))
    | v6 h =>
      cases h' with
      | ipv6Any h' => exact .inr (.inl ⟨.inr (.inr (.inr h)), hany h'⟩)
      | v6 h' => exact .inr (.inr (.inr ⟨_, h, h'⟩))

end Texts

/-! ### The check -/

/-- A listener on a TCP port of its own. -/
def Listener.hasTcpPort (listener : Listener) : Prop :=
  listener.unixSocketPath = [] ∧ listener.port ≠ 0

/-- An accepted listener repeats none of the endpoints before it. -/
theorem pairwise_of_validateListeners {index : ℕ} {endpoints : List Bytes}
    {listeners : List Listener} (h : validateListeners index endpoints listeners = .ok ()) :
    (∀ listener ∈ listeners, listener.hasTcpPort → listener.endpoint ∉ endpoints) ∧
      listeners.Pairwise fun listener listener' => listener.hasTcpPort → listener'.hasTcpPort →
        listener.endpoint ≠ listener'.endpoint := by
  induction listeners generalizing index endpoints with
  | nil => exact ⟨nofun, .nil⟩
  | cons listener listeners ih =>
    rw [validateListeners, unit_bind_eq_ok, unit_bind_eq_ok] at h
    obtain ⟨-, -, h⟩ := h
    split_ifs at h with hephemeral
    · obtain ⟨hnew, hpairwise⟩ := ih h
      have hno : ¬ listener.hasTcpPort := by
        rintro ⟨-, hport⟩
        simp [hport] at hephemeral
      refine ⟨List.forall_mem_cons.2 ⟨fun hyes => absurd hyes hno, hnew⟩, ?_⟩
      exact List.pairwise_cons.2 ⟨fun _ _ hyes => absurd hyes hno, hpairwise⟩
    · rw [unit_bind_eq_ok, ensure_eq_ok] at h
      obtain ⟨hrepeats, h⟩ := h
      obtain ⟨hnew, hpairwise⟩ := ih h
      refine ⟨List.forall_mem_cons.2 ⟨fun _ => by simpa using hrepeats, ?_⟩,
        List.pairwise_cons.2 ⟨?_, hpairwise⟩⟩
      · intro listener' hmem htcp hold
        exact hnew listener' hmem htcp (List.mem_append_left _ hold)
      · intro listener' hmem _ htcp heq
        exact hnew listener' hmem htcp (List.mem_append_right _ (by simp [heq]))

/-- No two of the listeners share a socket address. -/
def DistinctEndpoints (pton : InetPton) (listeners : List Listener) : Prop :=
  listeners.Pairwise fun listener listener' => listener.hasTcpPort → listener'.hasTcpPort →
    ∀ filled filled', fillBindAddress pton listener.bindAddress listener.port = .ok filled →
      fillBindAddress pton listener'.bindAddress listener'.port = .ok filled' → filled ≠ filled'

/-- No two of the listeners on one port have texts of one address. -/
def AvoidAliases (pton : InetPton) (listeners : List Listener) : Prop :=
  listeners.Pairwise fun listener listener' => listener.hasTcpPort → listener'.hasTcpPort →
    listener.port = listener'.port → ¬ Aliases pton listener.bindAddress listener'.bindAddress

theorem Listener.endpoint_eq {listener : Listener} (h : listener.hasTcpPort) :
    listener.endpoint = listener.bindAddress ++ ascii ":" ++ toChars listener.port.toNat :=
  if_pos (List.isEmpty_iff.2 h.1)

/-- **Listeners that share an endpoint.**  Of the listeners that are accepted, no two resolve to one
family, address and port exactly if no two on one port have different texts of one address. -/
theorem endpoints_are_distinct_iff (pton : InetPton) {options : Server.Options}
    (h : validateServerOptions options = .ok ()) :
    DistinctEndpoints pton options.listeners ↔ AvoidAliases pton options.listeners := by
  have hlisteners : validateListeners 0 [] options.listeners = .ok () := by
    simp only [validateServerOptions, unit_bind_eq_ok] at h
    exact h.2.2.2.2.2.2.2.2.2.2
  have hchecked := (pairwise_of_validateListeners hlisteners).2
  constructor
  · intro hdistinct
    refine hdistinct.imp fun {listener listener'} hdistinct htcp htcp' hport haliases => ?_
    obtain ⟨-, address, hfills, hfills'⟩ := aliases_iff.1 haliases
    refine hdistinct htcp htcp' _ _ (hfills.fillBindAddress _) (hfills'.fillBindAddress _) ?_
    rw [hport]
  · intro havoid
    refine (havoid.and hchecked).imp ?_
    rintro listener listener' ⟨havoid, hchecked⟩ htcp htcp' filled _ hfilled hfilled' rfl
    obtain ⟨hport, hfills⟩ := fills_of_fillBindAddress hfilled
    obtain ⟨hport', hfills'⟩ := fills_of_fillBindAddress hfilled'
    have hsame := hport.symm.trans hport'
    refine havoid htcp htcp' hsame (aliases_iff.2 ⟨?_, filled.address, hfills, hfills'⟩)
    -- equal texts on one port are what the check compares
    intro htext
    refine hchecked htcp htcp' ?_
    rw [Listener.endpoint_eq htcp, Listener.endpoint_eq htcp', htext, hsame]

/-- Two spellings of the IPv6 wildcard. -/
def twoWildcards : Server.Options where
  listeners := [{ bindAddress := ascii "*", port := 8080 },
    { bindAddress := ascii "::", port := 8080 }]

theorem wildcard_spellings_share_an_endpoint :
    validateServerOptions twoWildcards = .ok () ∧
      ∀ pton, ¬ DistinctEndpoints pton twoWildcards.listeners := by
  refine ⟨by decide +kernel, fun pton hdistinct => ?_⟩
  have hpair := List.rel_of_pairwise_cons hdistinct (List.mem_singleton_self _)
  have hstar : Fills pton (ascii "*") (.v6 kIpv6Any) := .ipv6Any (.inr (.inr rfl))
  have hcolons : Fills pton (ascii "::") (.v6 kIpv6Any) := .ipv6Any (.inr (.inl rfl))
  exact hpair ⟨rfl, by decide⟩ ⟨rfl, by decide⟩ _ _ (hstar.fillBindAddress 8080)
    (hcolons.fillBindAddress 8080) rfl

/-- The two wildcards on one port. -/
theorem endpoints_are_distinct_of_two_wildcards :
    let options : Server.Options := { listeners := [{ bindAddress := ascii "0.0.0.0", port := 8080 },
      { bindAddress := ascii "::", port := 8080 }] }
    DistinctEndpoints .rejecting options.listeners := by
  intro options
  have hvalid : validateServerOptions options = .ok () := by decide +kernel
  refine (endpoints_are_distinct_iff .rejecting hvalid).2 (List.pairwise_pair.2 ?_)
  rintro - - - ⟨-, h⟩
  simp [IsIpv4Any, IsIpv6Any, ReadsV4, ReadsV6, InetPton.rejecting, ascii] at h

end ErikslundHttp
