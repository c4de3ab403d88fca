import ErikslundHttp.Server.Cidr
import ErikslundHttp.Server.Options

/-!
# Configurations

A configuration is checked when it is loaded (`firstProblemWith`, `config.cpp`) and made into the
options of a server (`toOptions`), which are checked again when the server starts.  The rules are
written twice, over two structures, and those for TLS and for the allow list a third time, where the
contexts and the list are made.

* `firstProblemWith_eq_ok_iff` — a configuration has no problem just if its options are valid, the
  TLS part of each listener is, and each entry of the allow list can be parsed;
* `validators_agree` — so what passes when it is loaded passes when the server starts, and the other
  way around.
-/

namespace ErikslundHttp

/-! ### The configuration -/

/-- The members of `TlsConfig`. -/
structure TlsConfig where
  enabled : Bool := false
  certificateChainFile : Bytes := []
  privateKeyFile : Bytes := []
  minimumVersion : Bytes := ascii "1.3"
  clientCaFile : Bytes := []
  requireClientCertificate : Bool := false
  alpnProtocols : Bytes := ascii "http/1.1"
  groupList : Bytes := []
  sessionTickets : Bool := true
  earlyData : Bool := false
  kernelTls : Bool := true
  strictTransportSecurity : Bool := false

/-- The members of `ListenerConfig`. -/
structure ListenerConfig where
  bindAddress : Bytes := kDefaultBindAddress
  port : UInt16 := kDefaultPort
  unixSocketPath : Bytes := []
  tls : TlsConfig := {}

/-- The members of `LimitsConfig`. -/
structure LimitsConfig where
  maxRequestLineBytes : UInt64 := 8192
  maxHeaderBlockBytes : UInt64 := 16384
  maxHeaderCount : UInt64 := UInt64.ofNat kMaxParsedHeaders
  maxTargetBytes : UInt64 := 2048
  maxBodyBytes : UInt64 := 1048576

/-- The members of `ServerConfig`, with times in milliseconds. -/
structure ServerConfig where
  listeners : List ListenerConfig := []
  /-- Zero stands for a number that fits the machine. -/
  workerThreads : UInt32 := 0
  limits : LimitsConfig := {}
  maxConnections : UInt32 := kDefaultMaxConnections
  maxConnectionsPerSource : UInt32 := kDefaultMaxConnectionsPerSource
  maxRequestsPerConnection : UInt32 := 100
  handshakeTimeoutMs : UInt32 := 5000
  headerTimeoutMs : UInt32 := 5000
  bodyTimeoutMs : UInt32 := 5000
  writeTimeoutMs : UInt32 := 5000
  keepAliveIdleMs : UInt32 := 15000
  requestDeadlineMs : UInt32 := 3000
  streamIdleTimeoutMs : UInt32 := 60000
  listenBacklog : Int32 := kDefaultListenBacklog
  reusePort : Bool := true
  tcpNodelay : Bool := true
  warnOnPublicBind : Bool := true
  allowCidrs : List Bytes := []
  serverHeader : Bytes := ascii "erikslund-http"

/-! ### The checks on a configuration -/

/-- How a configuration names the version that is the default. -/
def kTls13Name : Bytes := ascii "1.3"

/-- How it names the one before. -/
def kTls12Name : Bytes := ascii "1.2"

/-- The one protocol that a configuration may name. -/
def kSupportedAlpnProtocol : Bytes := ascii "http/1.1"

/-- `comma_separated`. -/
def commaSeparated (list : Bytes) : List Bytes := listMembers list (byte ',')

/-- `cidr_error_text`. -/
def cidrErrorText : CidrError → Bytes
  | .malformedEntry => ascii "expected ADDRESS or ADDRESS/PREFIX with exactly one '/'"
  | .badPrefixLength => ascii "the prefix length must be 0..32 for IPv4 or 0..128 for IPv6"
  | .badAddress => ascii "the address part parses as neither IPv4 nor IPv6"

/-- The problem is the error, here and below. -/
def problemWithTls (tls : TlsConfig) (listenerIndex : ℕ) : Except Bytes Unit := do
  ensure (tls.minimumVersion == kTls13Name || tls.minimumVersion == kTls12Name)
    (indexed listenerIndex ++ ascii ".tls.minimum_version is \"" ++ tls.minimumVersion ++
      ascii "\"; the accepted values are \"1.3\" and \"1.2\"")
  forM (commaSeparated tls.alpnProtocols) fun protocol =>
    ensure (protocol == kSupportedAlpnProtocol)
      (indexed listenerIndex ++ ascii ".tls.alpn_protocols offers \"" ++ protocol ++
        ascii ("\", which this server cannot speak; a client that accepts the offer then waits " ++
          "on a protocol that never answers"))
  if !tls.enabled then .ok ()
  else do
    ensure (!tls.certificateChainFile.isEmpty) (indexed listenerIndex ++
      ascii ".tls.enabled is true but certificate_chain_file is empty")
    ensure (!tls.privateKeyFile.isEmpty) (indexed listenerIndex ++
      ascii ".tls.enabled is true but private_key_file is empty")
    ensure (!(tls.requireClientCertificate && tls.clientCaFile.isEmpty)) (indexed listenerIndex ++
      ascii ".tls.require_client_certificate needs a client_ca_file to verify against")

/-- The text by which two listeners are compared. -/
def ListenerConfig.endpoint (listener : ListenerConfig) : Bytes :=
  if listener.unixSocketPath.isEmpty then
    listener.bindAddress ++ ascii ":" ++ toChars listener.port.toNat
  else ascii "unix:" ++ listener.unixSocketPath

/-- The listeners from the `index`-th on; `endpoints` are those of the listeners before. -/
def firstProblemWithListeners (index : ℕ) (endpoints : List Bytes) :
    List ListenerConfig → Except Bytes Unit
  | [] => .ok ()
  | listener :: listeners => do
    ensure (!(!listener.unixSocketPath.isEmpty && listener.port == 0)) (indexed index ++
      ascii (" sets both unix_socket_path and port 0; port 0 means \"bind an ephemeral port and " ++
        "read it back with Server::port()\", which an AF_UNIX listener can never do, so the port " ++
        "would stay 0 and anything waiting to learn it would wait forever"))
    ensure (!(listener.unixSocketPath.isEmpty && listener.bindAddress.isEmpty))
      (indexed index ++ ascii " has neither a bind_address nor a unix_socket_path")
    problemWithTls listener.tls index
    if listener.port == 0 && listener.unixSocketPath.isEmpty then
      firstProblemWithListeners (index + 1) endpoints listeners
    else do
      ensure (!endpoints.contains listener.endpoint)
        (indexed index ++ ascii " repeats the endpoint " ++ listener.endpoint ++
          ascii ("; with reuse_port the duplicate binds successfully and silently takes a share " ++
            "of the traffic instead of failing"))
      firstProblemWithListeners (index + 1) (endpoints ++ [listener.endpoint]) listeners

namespace ServerConfig

variable (pton : InetPton) (config : ServerConfig)

/-- The timeouts that have to be above zero, by name. -/
def timeouts : List (Bytes × UInt32) :=
  [(ascii "handshake_timeout_ms", config.handshakeTimeoutMs),
    (ascii "header_timeout_ms", config.headerTimeoutMs),
    (ascii "body_timeout_ms", config.bodyTimeoutMs),
    (ascii "write_timeout_ms", config.writeTimeoutMs),
    (ascii "keep_alive_idle_ms", config.keepAliveIdleMs),
    (ascii "request_deadline_ms", config.requestDeadlineMs),
    (ascii "stream_idle_timeout_ms", config.streamIdleTimeoutMs)]

/-- The limits that have to be above zero, by name. -/
def byteLimits : List (Bytes × UInt64) :=
  [(ascii "limits.max_request_line_bytes", config.limits.maxRequestLineBytes),
    (ascii "limits.max_header_block_bytes", config.limits.maxHeaderBlockBytes),
    (ascii "limits.max_target_bytes", config.limits.maxTargetBytes)]

/-- `first_problem_with`, in the order of its checks. -/
def firstProblemWith : Except Bytes Unit := do
  ensure (config.workerThreads ≤ kMaxWorkerThreads)
    (ascii "worker_threads is " ++ toChars config.workerThreads.toNat ++ ascii "; the ceiling is " ++
      toChars kMaxWorkerThreads.toNat ++ ascii " (0 means one reactor per core, clamped to " ++
      toChars kMaxAutoWorkerThreads.toNat ++ ascii ")")
  ensure (config.maxConnections != 0)
    (ascii ("max_connections is 0, which accepts a connection only to close it again; there is " ++
      "no unlimited sentinel"))
  ensure (config.maxConnectionsPerSource != 0)
    (ascii ("max_connections_per_source is 0, which refuses every TCP source; there is no " ++
      "unlimited sentinel"))
  ensure (config.maxRequestsPerConnection != 0)
    (ascii ("max_requests_per_connection is 0, which closes a connection before answering it; " ++
      "there is no unlimited sentinel"))
  ensure (0 < config.listenBacklog)
    (ascii "listen_backlog is " ++ signedChars config.listenBacklog.toInt ++
      ascii "; it must be at least 1")
  forM config.timeouts fun (key, milliseconds) =>
    ensure (milliseconds != 0) (key ++
      ascii (" is 0; every timeout must be at least 1 ms, because a listener with no timeout is " ++
        "a slowloris target"))
  ensure (config.limits.maxHeaderCount != 0 &&
      config.limits.maxHeaderCount.toNat ≤ kMaxParsedHeaders)
    (ascii "limits.max_header_count is " ++ toChars config.limits.maxHeaderCount.toNat ++
      ascii "; it must be between 1 and " ++ toChars kMaxParsedHeaders ++
      ascii ", the compile-time capacity of the parser's header table")
  forM config.byteLimits fun (key, bytes) =>
    ensure (bytes != 0) (key ++ ascii " is 0, which rejects every request")
  ensure (config.limits.maxTargetBytes ≤ config.limits.maxRequestLineBytes)
    (ascii "limits.max_target_bytes (" ++ toChars config.limits.maxTargetBytes.toNat ++
      ascii ") exceeds limits.max_request_line_bytes (" ++
      toChars config.limits.maxRequestLineBytes.toNat ++
      ascii "), and the target is part of the request line")
  firstProblemWithListeners 0 [] config.listeners
  forM config.allowCidrs fun entry =>
    match CidrAllowList.parse pton [entry] with
    | .ok _ => .ok ()
    | .error error => .error (ascii "allow_cidrs entry \"" ++ entry ++ ascii "\" is invalid: " ++
        cidrErrorText error)
  ensure (!hasControlCharacter config.serverHeader)
    (ascii ("server_header contains a control character; a CR or an LF there would split every " ++
      "response this server writes"))

end ServerConfig

/-! ### The options of a configuration -/

/-- `to_tls_options`. -/
def toTlsOptions (config : TlsConfig) : TlsOptions where
  enabled := config.enabled
  certificateChainFile := config.certificateChainFile
  privateKeyFile := config.privateKeyFile
  minimumVersion := if config.minimumVersion == kTls12Name then .tls12 else .tls13
  clientCaFile := config.clientCaFile
  requireClientCertificate := config.requireClientCertificate
  alpnProtocols := config.alpnProtocols
  groupList := config.groupList
  sessionTickets := config.sessionTickets
  earlyData := config.earlyData
  kernelTls := config.kernelTls
  strictTransportSecurity := config.strictTransportSecurity

/-- The loop of `to_options` over the listeners. -/
def toListener (source : ListenerConfig) : Listener where
  bindAddress := source.bindAddress
  port := source.port
  unixSocketPath := source.unixSocketPath
  tls := toTlsOptions source.tls

/-- The options that `toOptions` fills in. -/
def mappedOptions (config : ServerConfig) : Server.Options where
  listeners := config.listeners.map toListener
  workerThreads := config.workerThreads
  limits := {
    maxRequestLineBytes := config.limits.maxRequestLineBytes
    maxHeaderBlockBytes := config.limits.maxHeaderBlockBytes
    maxHeaderCount := config.limits.maxHeaderCount
    maxTargetBytes := config.limits.maxTargetBytes
    maxBodyBytes := config.limits.maxBodyBytes }
  maxConnections := config.maxConnections
  maxConnectionsPerSource := config.maxConnectionsPerSource
  maxRequestsPerConnection := config.maxRequestsPerConnection
  handshakeTimeout := milliseconds config.handshakeTimeoutMs.toNat
  headerTimeout := milliseconds config.headerTimeoutMs.toNat
  bodyTimeout := milliseconds config.bodyTimeoutMs.toNat
  writeTimeout := milliseconds config.writeTimeoutMs.toNat
  keepAliveIdle := milliseconds config.keepAliveIdleMs.toNat
  requestDeadline := milliseconds config.requestDeadlineMs.toNat
  streamIdleTimeout := milliseconds config.streamIdleTimeoutMs.toNat
  listenBacklog := config.listenBacklog
  reusePort := config.reusePort
  tcpNodelay := config.tcpNodelay
  warnOnPublicBind := config.warnOnPublicBind
  allowCidrs := config.allowCidrs
  serverHeader := config.serverHeader

/-- `to_options`: a configuration without a problem is mapped. -/
def toOptions (pton : InetPton) (config : ServerConfig) : Except ServerError Server.Options := do
  (config.firstProblemWith pton).mapError fun problem =>
    ServerError.mk (ascii "invalid configuration: " ++ problem)
  return mappedOptions config

/-! ### TLS -/

/-- The TLS part names a version, and its options pass the checks of the TLS layer. -/
structure TlsConfig.Valid (tls : TlsConfig) : Prop where
  minimumVersion : tls.minimumVersion = kTls13Name ∨ tls.minimumVersion = kTls12Name
  alpnProtocols : rejectUnsupportedAlpn (toTlsOptions tls) = .ok ()
  /-- What the files hold is left to OpenSSL. -/
  context : tls.enabled = true → ∀ ssl error,
    TlsContext.create ssl (toTlsOptions tls) ≠ .error (.rejected error)

theorem complete_toTlsOptions_iff {tls : TlsConfig} :
    (toTlsOptions tls).Complete ↔ rejectUnsupportedAlpn (toTlsOptions tls) = .ok () ∧
      tls.certificateChainFile ≠ [] ∧ tls.privateKeyFile ≠ [] ∧
      (tls.requireClientCertificate = true → tls.clientCaFile ≠ []) := by
  constructor
  · rintro ⟨halpn, hchain, hkey, hca⟩
    exact ⟨halpn, hchain.resolve_left (by simp [toTlsOptions]),
      hkey.resolve_left (by simp [toTlsOptions]), hca⟩
  · rintro ⟨halpn, hchain, hkey, hca⟩
    exact ⟨halpn, .inr hchain, .inr hkey, hca⟩

/-- The two checks of the protocols agree. -/
theorem rejectUnsupportedAlpn_eq_ok_iff {tls : TlsConfig} {error : Bytes → Bytes} :
    rejectUnsupportedAlpn (toTlsOptions tls) = .ok () ↔
      forM (commaSeparated tls.alpnProtocols) (fun protocol =>
        ensure (protocol == kSupportedAlpnProtocol) (error protocol)) = .ok () := by
  rw [rejectUnsupportedAlpn, rejectUnsupportedAlpnFrom_eq_ok, forM_eq_ok_iff]
  simp only [ensure_eq_ok, beq_iff_eq]
  rfl

theorem problemWithTls_eq_ok_iff {tls : TlsConfig} {index : ℕ} :
    problemWithTls tls index = .ok () ↔ tls.Valid := by
  have hfiles : (if !tls.enabled then .ok () else do
      ensure (!tls.certificateChainFile.isEmpty) (indexed index ++
        ascii ".tls.enabled is true but certificate_chain_file is empty")
      ensure (!tls.privateKeyFile.isEmpty) (indexed index ++
        ascii ".tls.enabled is true but private_key_file is empty")
      ensure (!(tls.requireClientCertificate && tls.clientCaFile.isEmpty)) (indexed index ++
        ascii ".tls.require_client_certificate needs a client_ca_file to verify against") :
        Except Bytes Unit) = .ok () ↔
      (tls.enabled = true → tls.certificateChainFile ≠ [] ∧ tls.privateKeyFile ≠ [] ∧
        (tls.requireClientCertificate = true → tls.clientCaFile ≠ [])) := by
    cases tls.enabled <;> cases tls.requireClientCertificate <;> simp
  simp only [problemWithTls, unit_bind_eq_ok, ensure_eq_ok, ← rejectUnsupportedAlpn_eq_ok_iff,
    hfiles, Bool.or_eq_true, beq_iff_eq]
  constructor
  · rintro ⟨hversion, halpn, hfiles⟩
    refine ⟨hversion, halpn, fun henabled => ?_⟩
    exact TlsContext.complete_iff.1 (complete_toTlsOptions_iff.2 ⟨halpn, hfiles henabled⟩)
  · rintro ⟨hversion, halpn, hcontext⟩
    refine ⟨hversion, halpn, fun henabled => ?_⟩
    exact (complete_toTlsOptions_iff.1 (TlsContext.complete_iff.2 (hcontext henabled))).2

/-! ### Listeners -/

@[simp] theorem toListener_bindAddress (source : ListenerConfig) :
    (toListener source).bindAddress = source.bindAddress := rfl

@[simp] theorem toListener_port (source : ListenerConfig) :
    (toListener source).port = source.port := rfl

@[simp] theorem toListener_unixSocketPath (source : ListenerConfig) :
    (toListener source).unixSocketPath = source.unixSocketPath := rfl

@[simp] theorem toListener_endpoint (source : ListenerConfig) :
    (toListener source).endpoint = source.endpoint := rfl

theorem firstProblemWithListeners_eq_ok_iff {index : ℕ} {endpoints : List Bytes}
    {listeners : List ListenerConfig} :
    firstProblemWithListeners index endpoints listeners = .ok () ↔
      validateListeners index endpoints (listeners.map toListener) = .ok () ∧
        ∀ listener ∈ listeners, listener.tls.Valid := by
  induction listeners generalizing index endpoints with
  | nil => simp [firstProblemWithListeners, validateListeners]
  | cons listener listeners ih =>
    rw [List.map_cons, firstProblemWithListeners, validateListeners, List.forall_mem_cons,
      Bool.and_comm (listener.port == 0)]
    split_ifs with hephemeral hephemeral' hephemeral'
    · simp only [unit_bind_eq_ok, ensure_eq_ok, problemWithTls_eq_ok_iff, toListener_bindAddress,
        toListener_port, toListener_unixSocketPath, ih]
      tauto
    · exact absurd hephemeral hephemeral'
    · exact absurd hephemeral' hephemeral
    · simp only [unit_bind_eq_ok, ensure_eq_ok, problemWithTls_eq_ok_iff, toListener_bindAddress,
        toListener_port, toListener_unixSocketPath, toListener_endpoint, ih]
      tauto

/-! ### The two checks -/

theorem timeouts_mappedOptions (config : ServerConfig) :
    (mappedOptions config).timeouts.map Prod.snd =
      config.timeouts.map fun timeout => milliseconds timeout.2.toNat := rfl

theorem milliseconds_pos_iff {count : UInt32} : 0 < milliseconds count.toNat ↔ count ≠ 0 := by
  have hne : count ≠ 0 ↔ count.toNat ≠ 0 := UInt32.toNat_inj.symm.not
  rw [hne]
  change (0 : ℤ) < count.toNat * 1000000 ↔ count.toNat ≠ 0
  omega

/-- Milliseconds that are not zero are a positive duration. -/
theorem timeouts_pos_iff {config : ServerConfig} :
    (∀ timeout ∈ (mappedOptions config).timeouts, 0 < timeout.2) ↔
      ∀ timeout ∈ config.timeouts, timeout.2 ≠ 0 := by
  have hall : (∀ timeout ∈ (mappedOptions config).timeouts.map Prod.snd, 0 < timeout) ↔
      ∀ timeout ∈ config.timeouts.map fun timeout => milliseconds timeout.2.toNat,
        0 < timeout := by
    rw [timeouts_mappedOptions]
  simpa only [List.forall_mem_map, milliseconds_pos_iff] using hall

theorem byteLimits_ne_zero_iff {config : ServerConfig} :
    (∀ limit ∈ config.byteLimits, limit.2 ≠ 0) ↔
      (config.limits.maxRequestLineBytes != 0 && config.limits.maxHeaderBlockBytes != 0 &&
        config.limits.maxTargetBytes != 0) = true := by
  simp [ServerConfig.byteLimits, and_assoc]

/-- Each entry of the allow list can be parsed. -/
def ServerConfig.CidrsValid (pton : InetPton) (config : ServerConfig) : Prop :=
  ∀ entry ∈ config.allowCidrs, ∃ list, CidrAllowList.parse pton [entry] = .ok list

/-- **A configuration has no problem just if its options are valid**, and so are its TLS and CIDR
parts. -/
theorem firstProblemWith_eq_ok_iff {pton : InetPton} {config : ServerConfig} :
    config.firstProblemWith pton = .ok () ↔
      validateServerOptions (mappedOptions config) = .ok () ∧
        (∀ listener ∈ config.listeners, listener.tls.Valid) ∧ config.CidrsValid pton := by
  have hcidr : ∀ (error : CidrError → Bytes) (entry : Bytes),
      (match CidrAllowList.parse pton [entry] with
        | .ok _ => Except.ok ()
        | .error e => Except.error (error e)) = .ok () ↔
      ∃ list, CidrAllowList.parse pton [entry] = .ok list := by
    intro error entry
    cases CidrAllowList.parse pton [entry] <;> simp
  simp only [ServerConfig.firstProblemWith, validateServerOptions, unit_bind_eq_ok, forM_eq_ok_iff,
    ensure_eq_ok, hcidr, bne_iff_ne, decide_eq_true_eq, timeouts_pos_iff,
    byteLimits_ne_zero_iff, firstProblemWithListeners_eq_ok_iff]
  constructor
  · rintro ⟨hworkers, hmax, hsource, hrequests, hbacklog, htimeouts, hheaders, hbytes, htarget,
      ⟨hlisteners, htls⟩, hcidrs, hheader⟩
    exact ⟨⟨hworkers, hmax, hsource, hrequests, hbacklog, htimeouts, hheaders, hbytes, htarget,
      hheader, hlisteners⟩, htls, hcidrs⟩
  · rintro ⟨⟨hworkers, hmax, hsource, hrequests, hbacklog, htimeouts, hheaders, hbytes, htarget,
      hheader, hlisteners⟩, htls, hcidrs⟩
    exact ⟨hworkers, hmax, hsource, hrequests, hbacklog, htimeouts, hheaders, hbytes, htarget,
      ⟨hlisteners, htls⟩, hcidrs, hheader⟩

/-! ### What is loaded starts -/

/-- The default listener passes the checks. -/
theorem validate_withDefaultListener_iff {options : Server.Options} :
    validateServerOptions options.withDefaultListener = .ok () ↔
      validateServerOptions options = .ok () := by
  unfold Server.Options.withDefaultListener
  split_ifs with hempty
  · simp only [validateServerOptions, unit_bind_eq_ok, List.isEmpty_iff.1 hempty]
    have hdefault : validateListeners 0 [] [{}] = .ok () := by decide
    have hnone : validateListeners 0 [] [] = .ok () := rfl
    rw [hdefault, hnone]
    rfl
  · rfl

/-- **The validators agree.**  If a configuration has no problem, `toOptions` returns its options;
the checks of `Server::start` accept them, the allow list is parsed whole, and no context for a
listener with TLS is rejected.  A configuration whose TLS and CIDR parts are valid and whose options
are accepted has no problem. -/
theorem validators_agree (pton : InetPton) (config : ServerConfig) :
    (config.firstProblemWith pton = .ok () → ∃ options, toOptions pton config = .ok options ∧
      validateServerOptions options.withDefaultListener = .ok () ∧
      (∃ list, CidrAllowList.parse pton options.allowCidrs = .ok list) ∧
      ∀ listener ∈ options.withDefaultListener.listeners, listener.tls.enabled = true →
        ∀ ssl error, TlsContext.create ssl listener.tls ≠ .error (.rejected error)) ∧
    ((∀ listener ∈ config.listeners, listener.tls.Valid) → config.CidrsValid pton →
      validateServerOptions (mappedOptions config).withDefaultListener = .ok () →
      config.firstProblemWith pton = .ok ()) := by
  constructor
  · intro h
    obtain ⟨hvalid, htls, hcidrs⟩ := firstProblemWith_eq_ok_iff.1 h
    refine ⟨mappedOptions config, by rw [toOptions, h]; rfl,
      validate_withDefaultListener_iff.2 hvalid, CidrAllowList.parse_isOk_iff.2 hcidrs, ?_⟩
    unfold Server.Options.withDefaultListener
    split_ifs with hempty
    · simp
    · intro listener hlistener
      obtain ⟨source, hsource, rfl⟩ := List.mem_map.1 hlistener
      exact (htls source hsource).context
  · intro htls hcidrs hvalid
    exact firstProblemWith_eq_ok_iff.2 ⟨validate_withDefaultListener_iff.1 hvalid, htls, hcidrs⟩

end ErikslundHttp
