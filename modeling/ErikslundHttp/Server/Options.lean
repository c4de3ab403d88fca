import ErikslundHttp.Connection.Basic
import ErikslundHttp.Request.ListFields
import ErikslundHttp.Response.Encoder

/-!
# The options of a server

`Server::start` (`server.cpp`) adds a listener if there is none and checks its options
(`validateServerOptions`) before it binds anything.  For every listener with TLS it makes a context
(`TlsContext.create`, `tls_context.cpp`).

What OpenSSL answers is up to `OpenSsl`.  A context that is not made was refused by a check of the
options or by a call of OpenSSL, and `TlsError` says by which.
-/

namespace ErikslundHttp

/-! ### The options -/

/-- The versions that a listener may demand at least. -/
inductive TlsVersion where
  | tls13
  | tls12
  deriving DecidableEq

/-- The one protocol that this server speaks. -/
def kDefaultAlpnProtocols : Bytes := ascii "http/1.1"

/-- The key exchanges, the hybrid one first. -/
def kDefaultGroupList : Bytes := ascii "X25519MLKEM768:X25519:P-256"

/-- A year. -/
def kDefaultHstsMaxAgeSeconds : UInt32 := 31536000

/-- The members of `TlsOptions`. -/
structure TlsOptions where
  enabled : Bool := false
  certificateChainFile : Bytes := []
  privateKeyFile : Bytes := []
  /-- The text of the chain, in place of a file. -/
  certificateChainPem : Bytes := []
  /-- The text of the key, in place of a file. -/
  privateKeyPem : Bytes := []
  minimumVersion : TlsVersion := .tls13
  clientCaFile : Bytes := []
  requireClientCertificate : Bool := false
  /-- Separated by commas; only `http/1.1` is supported. -/
  alpnProtocols : Bytes := kDefaultAlpnProtocols
  groupList : Bytes := []
  sessionTickets : Bool := true
  earlyData : Bool := false
  kernelTls : Bool := true
  strictTransportSecurity : Bool := false
  hstsMaxAgeSeconds : UInt32 := kDefaultHstsMaxAgeSeconds

/-- A server listens on the loopback device unless it is told otherwise. -/
def kDefaultBindAddress : Bytes := ascii "::1"

/-- The port of a listener that names none. -/
def kDefaultPort : UInt16 := 7777

/-- The members of `Listener`; a path makes it one on a Unix socket. -/
structure Listener where
  bindAddress : Bytes := kDefaultBindAddress
  port : UInt16 := kDefaultPort
  unixSocketPath : Bytes := []
  tls : TlsOptions := {}

/-- The limit on all connections. -/
def kDefaultMaxConnections : UInt32 := 512

/-- The limit on those from one address. -/
def kDefaultMaxConnectionsPerSource : UInt32 := 64

/-- The length of the kernel's queue. -/
def kDefaultListenBacklog : Int32 := 128

/-- How many workers are started at most when no number is given. -/
def kMaxAutoWorkerThreads : UInt32 := 4

/-- How many may be asked for. -/
def kMaxWorkerThreads : UInt32 := 256

/-- The `ServerOptions` of the source: those that a connection reads, and the others. -/
structure Server.Options extends ServerOptions where
  listeners : List Listener := []
  /-- Zero stands for a number that fits the machine. -/
  workerThreads : UInt32 := 0
  maxConnections : UInt32 := kDefaultMaxConnections
  maxConnectionsPerSource : UInt32 := kDefaultMaxConnectionsPerSource
  listenBacklog : Int32 := kDefaultListenBacklog
  reusePort : Bool := true
  tcpNodelay : Bool := true
  warnOnPublicBind : Bool := true
  /-- The texts of the allow list. -/
  allowCidrs : List Bytes := []

/-! ### The checks of `Server::start` -/

/-- What `Server::start` does with an empty list of listeners. -/
def Server.Options.withDefaultListener (options : Server.Options) : Server.Options :=
  if options.listeners.isEmpty then { options with listeners := [{}] } else options

/-- Where the listener listens, for the comparison with the others. -/
def Listener.endpoint (listener : Listener) : Bytes :=
  if listener.unixSocketPath.isEmpty then
    listener.bindAddress ++ ascii ":" ++ toChars listener.port.toNat
  else ascii "unix:" ++ listener.unixSocketPath

/-- How the text of an error names a listener. -/
def indexed (index : ℕ) : Bytes := ascii "listeners[" ++ toChars index ++ ascii "]"

/-- The listeners from the `index`-th on; `endpoints` are those of the listeners before. -/
def validateListeners (index : ℕ) (endpoints : List Bytes) :
    List Listener → Except ServerError Unit
  | [] => .ok ()
  | listener :: listeners => do
    ensure (!(!listener.unixSocketPath.isEmpty && listener.port == 0))
      ⟨indexed index ++ ascii " combines a Unix socket with port 0"⟩
    ensure (!(listener.unixSocketPath.isEmpty && listener.bindAddress.isEmpty))
      ⟨indexed index ++ ascii " has no bind address"⟩
    if listener.unixSocketPath.isEmpty && listener.port == 0 then
      validateListeners (index + 1) endpoints listeners
    else do
      ensure (!endpoints.contains listener.endpoint)
        ⟨indexed index ++ ascii " repeats endpoint " ++ listener.endpoint⟩
      validateListeners (index + 1) (endpoints ++ [listener.endpoint]) listeners

/-- The timeouts that have to be above zero, by name. -/
def Server.Options.timeouts (options : Server.Options) : List (Bytes × Duration) :=
  [(ascii "handshake_timeout", options.handshakeTimeout),
    (ascii "header_timeout", options.headerTimeout),
    (ascii "body_timeout", options.bodyTimeout),
    (ascii "write_timeout", options.writeTimeout),
    (ascii "keep_alive_idle", options.keepAliveIdle),
    (ascii "request_deadline", options.requestDeadline),
    (ascii "stream_idle_timeout", options.streamIdleTimeout)]

/-- `validate_server_options`, in the order of its checks. -/
def validateServerOptions (options : Server.Options) : Except ServerError Unit := do
  ensure (options.workerThreads ≤ kMaxWorkerThreads)
    ⟨ascii "worker_threads exceeds the " ++ toChars kMaxWorkerThreads.toNat ++
      ascii " worker ceiling"⟩
  ensure (options.maxConnections != 0) ⟨ascii "max_connections must be at least 1"⟩
  ensure (options.maxConnectionsPerSource != 0)
    ⟨ascii "max_connections_per_source must be at least 1"⟩
  ensure (options.maxRequestsPerConnection != 0)
    ⟨ascii "max_requests_per_connection must be at least 1"⟩
  ensure (0 < options.listenBacklog) ⟨ascii "listen_backlog must be at least 1"⟩
  forM options.timeouts fun (name, timeout) =>
    ensure (0 < timeout) ⟨name ++ ascii " must be at least 1 ms"⟩
  ensure (options.limits.maxHeaderCount != 0 &&
      options.limits.maxHeaderCount.toNat ≤ kMaxParsedHeaders)
    ⟨ascii "max_header_count must be between 1 and " ++ toChars kMaxParsedHeaders⟩
  ensure (options.limits.maxRequestLineBytes != 0 && options.limits.maxHeaderBlockBytes != 0 &&
      options.limits.maxTargetBytes != 0)
    ⟨ascii "request line, header block, and target limits must be nonzero"⟩
  ensure (options.limits.maxTargetBytes ≤ options.limits.maxRequestLineBytes)
    ⟨ascii "max_target_bytes cannot exceed max_request_line_bytes"⟩
  ensure (!hasControlCharacter options.serverHeader)
    ⟨ascii "server_header cannot contain control characters"⟩
  validateListeners 0 [] options.listeners

/-! ### TLS contexts -/

/-- The answers of the calls that make a context, each with the text of the errors it leaves.  The
calls for PEM texts are the functions of the source that make several, with their messages. -/
structure OpenSsl where
  newContext : Except Bytes Unit
  setMinProtoVersion : TlsVersion → Except Bytes Unit
  setGroupsList : Bytes → Except Bytes Unit
  setNumTickets : ℕ → Except Bytes Unit
  setMaxEarlyData : ℕ → Except Bytes Unit
  useCertificateChainFile : Bytes → Except Bytes Unit
  usePrivateKeyFile : Bytes → Except Bytes Unit
  useChainFromPem : Bytes → Except Bytes Unit
  usePrivateKeyFromPem : Bytes → Except Bytes Unit
  checkPrivateKey : Except Bytes Unit
  setSessionIdContext : Bytes → Except Bytes Unit
  loadVerifyLocations : Bytes → Except Bytes Unit
  loadClientCaFile : Bytes → Except Bytes Unit

/-- What makes `TlsContext::create` throw. -/
inductive TlsError where
  /-- By a check of the options. -/
  | rejected (error : ServerError)
  /-- By a call of OpenSSL. -/
  | openSsl (error : ServerError)
  deriving DecidableEq

/-- The one name that a list of protocols may have. -/
def kAlpnHttp11Name : Bytes := ascii "http/1.1"

/-- The early data that is taken where it is enabled. -/
def kMaxEarlyDataBytes : ℕ := 16384

/-- The session id context of listeners that ask for no client certificate. -/
def kAnonymousSessionContext : Bytes := ascii "erikslund-http/anon"

/-- That of listeners that do, so that no session passes from one kind to the other. -/
def kMutualSessionContext : Bytes := ascii "erikslund-http/mtls"

/-- The text as a C function reads it. -/
def cString (text : Bytes) : Bytes := text.takeWhile (· != 0)

/-- A call that throws if it fails. -/
def callOpenSsl (failure : Bytes) (answer : Except Bytes Unit) : Except TlsError Unit :=
  answer.mapError fun detail => .openSsl ⟨ascii "TLS: " ++ failure ++ ascii ": " ++ detail⟩

/-- The loop over the names, with those that remain. -/
def rejectUnsupportedAlpnFrom (remaining : Bytes) : Except TlsError Unit :=
  if remaining = [] then .ok ()
  else do
    let separator := Scan.find (byte ',') remaining
    let entry := trimBytes (remaining.take (separator.getD remaining.length))
    let remaining' := remaining.drop (separator.getD remaining.length + 1)
    if entry.isEmpty then rejectUnsupportedAlpnFrom remaining'
    else do
      ensure (entry == kAlpnHttp11Name) (.rejected ⟨ascii "TLS: alpn_protocols names \"" ++ entry ++
        ascii "\", which this server cannot speak. Only \"" ++ kAlpnHttp11Name ++
        ascii "\" is implemented; see docs/http2-plan.md."⟩)
      rejectUnsupportedAlpnFrom remaining'
termination_by remaining.length
decreasing_by all_goals
  have := List.length_pos_iff.2 ‹_›
  simp only [List.length_drop]
  omega

/-- The loop visits the members of the list. -/
theorem rejectUnsupportedAlpnFrom_eq_ok (remaining : Bytes) :
    rejectUnsupportedAlpnFrom remaining = .ok () ↔
      ∀ name ∈ listMembers remaining (byte ','), name = kAlpnHttp11Name := by
  induction remaining using rejectUnsupportedAlpnFrom.induct with
  | case1 => simp [rejectUnsupportedAlpnFrom]
  | case2 remaining hne separator entry remaining' hempty ih =>
    rw [rejectUnsupportedAlpnFrom, if_neg hne, listMembers_eq]
    simpa [separator, entry, remaining', hempty] using ih
  | case3 remaining hne separator entry remaining' hempty ih =>
    rw [rejectUnsupportedAlpnFrom, if_neg hne, listMembers_eq]
    simpa [separator, entry, remaining', hempty] using fun _ => ih

section Context

variable (ssl : OpenSsl) (options : TlsOptions)

/-- `reject_unsupported_alpn`. -/
def rejectUnsupportedAlpn : Except TlsError Unit := rejectUnsupportedAlpnFrom options.alpnProtocols

/-- `apply_protocol_floor`. -/
def applyProtocolFloor : Except TlsError Unit :=
  let version := match options.minimumVersion with
    | .tls12 => ascii "0x0303"
    | .tls13 => ascii "0x0304"
  callOpenSsl (ascii "cannot set the minimum protocol version to " ++ version)
    (ssl.setMinProtoVersion options.minimumVersion)

/-- `apply_group_list`: an empty list means the default one. -/
def applyGroupList : Except TlsError Unit :=
  let groups := if options.groupList.isEmpty then kDefaultGroupList else cString options.groupList
  callOpenSsl (ascii "the key-exchange group list \"" ++ groups ++ ascii "\" was rejected")
    (ssl.setGroupsList groups)

/-- `apply_session_policy`: tickets and early data. -/
def applySessionPolicy : Except TlsError Unit := do
  (if options.sessionTickets then .ok ()
    else callOpenSsl (ascii "cannot disable session tickets") (ssl.setNumTickets 0))
  callOpenSsl (ascii "cannot set the early-data limit")
    (ssl.setMaxEarlyData (if options.earlyData then kMaxEarlyDataBytes else 0))

/-- `use_chain_from_file`. -/
def useChainFromFile (path : Bytes) : Except TlsError Unit :=
  callOpenSsl (ascii "cannot load the certificate chain from \"" ++ path ++ ascii "\"")
    (ssl.useCertificateChainFile (cString path))

/-- `use_chain_from_pem`. -/
def useChainFromPem (pem : Bytes) : Except TlsError Unit :=
  (ssl.useChainFromPem pem).mapError fun message => .openSsl ⟨message⟩

/-- `use_private_key_from_file`. -/
def usePrivateKeyFromFile (path : Bytes) : Except TlsError Unit :=
  callOpenSsl (ascii "cannot load the private key from \"" ++ path ++ ascii "\"")
    (ssl.usePrivateKeyFile (cString path))

/-- `use_private_key_from_pem`. -/
def usePrivateKeyFromPem (pem : Bytes) : Except TlsError Unit :=
  (ssl.usePrivateKeyFromPem pem).mapError fun message => .openSsl ⟨message⟩

/-- `load_certificate_material`: the chain and the key must be there, and match. -/
def loadCertificateMaterial : Except TlsError Unit := do
  let chainIsInline := !options.certificateChainPem.isEmpty
  let keyIsInline := !options.privateKeyPem.isEmpty
  ensure (chainIsInline || !options.certificateChainFile.isEmpty)
    (.rejected ⟨ascii ("TLS: enabled but no certificate was configured. Set " ++
      "certificate_chain_file or certificate_chain_pem.")⟩)
  ensure (keyIsInline || !options.privateKeyFile.isEmpty)
    (.rejected ⟨ascii ("TLS: enabled but no private key was configured. Set private_key_file or " ++
      "private_key_pem.")⟩)
  (if chainIsInline then useChainFromPem ssl options.certificateChainPem
    else useChainFromFile ssl options.certificateChainFile)
  (if keyIsInline then usePrivateKeyFromPem ssl options.privateKeyPem
    else usePrivateKeyFromFile ssl options.privateKeyFile)
  callOpenSsl (ascii "the private key (" ++
      (if keyIsInline then ascii "private_key_pem" else options.privateKeyFile) ++
      ascii ") does not match the certificate (" ++
      (if chainIsInline then ascii "certificate_chain_pem" else options.certificateChainFile) ++
      ascii ")")
    ssl.checkPrivateKey

/-- `apply_session_id_context`. -/
def applySessionIdContext (verifiesClientCertificates : Bool) : Except TlsError Unit :=
  callOpenSsl (ascii "cannot set the session id context") (ssl.setSessionIdContext
    (if verifiesClientCertificates then kMutualSessionContext else kAnonymousSessionContext))

/-- `configure_client_verification`: a CA makes the server ask for certificates. -/
def configureClientVerification : Except TlsError Unit := do
  applySessionIdContext ssl !options.clientCaFile.isEmpty
  if options.clientCaFile.isEmpty then
    ensure (!options.requireClientCertificate)
      (.rejected ⟨ascii ("TLS: require_client_certificate is set but client_ca_file is empty. " ++
        "With no CA to verify against, every client certificate would fail " ++
        "and the listener would refuse every connection.")⟩)
  else do
    callOpenSsl (ascii "cannot load the client CA bundle \"" ++ options.clientCaFile ++ ascii "\"")
      (ssl.loadVerifyLocations (cString options.clientCaFile))
    callOpenSsl (ascii "cannot read subject names from the client CA bundle \"" ++
        options.clientCaFile ++ ascii "\"")
      (ssl.loadClientCaFile (cString options.clientCaFile))

/-- `TlsContext`, as far as it does not hold what OpenSSL made. -/
structure TlsContext where
  /-- A client without a certificate is refused. -/
  requiresClientCertificate : Bool

/-- `TlsContext::create`, up to its callbacks. -/
def TlsContext.create : Except TlsError TlsContext := do
  callOpenSsl (ascii "SSL_CTX_new failed") ssl.newContext
  rejectUnsupportedAlpn options
  applyProtocolFloor ssl options
  applyGroupList ssl options
  applySessionPolicy ssl options
  loadCertificateMaterial ssl options
  configureClientVerification ssl options
  return ⟨options.requireClientCertificate⟩

end Context

/-! ### When a context is rejected -/

/-- The options have all that a context needs. -/
structure TlsOptions.Complete (options : TlsOptions) : Prop where
  alpn : rejectUnsupportedAlpn options = .ok ()
  chain : options.certificateChainPem ≠ [] ∨ options.certificateChainFile ≠ []
  key : options.privateKeyPem ≠ [] ∨ options.privateKeyFile ≠ []
  clientCa : options.requireClientCertificate = true → options.clientCaFile ≠ []

/-- Every call succeeds. -/
def OpenSsl.willing : OpenSsl where
  newContext := .ok ()
  setMinProtoVersion _ := .ok ()
  setGroupsList _ := .ok ()
  setNumTickets _ := .ok ()
  setMaxEarlyData _ := .ok ()
  useCertificateChainFile _ := .ok ()
  usePrivateKeyFile _ := .ok ()
  useChainFromPem _ := .ok ()
  usePrivateKeyFromPem _ := .ok ()
  checkPrivateKey := .ok ()
  setSessionIdContext _ := .ok ()
  loadVerifyLocations _ := .ok ()
  loadClientCaFile _ := .ok ()

theorem avoids_callOpenSsl (error : ServerError) (failure : Bytes) (answer : Except Bytes Unit) :
    Avoids (.rejected error) (callOpenSsl failure answer) := by
  cases answer <;> nofun

theorem avoids_mapError_openSsl (error : ServerError) (answer : Except Bytes Unit) :
    Avoids (.rejected error) (answer.mapError fun message => TlsError.openSsl ⟨message⟩) := by
  cases answer <;> nofun

theorem avoids_ensure_true {error : TlsError} {condition : Bool} (h : condition = true)
    (error' : TlsError) : Avoids error (ensure condition error') := by
  rw [h]
  exact avoids_ok error ()

theorem TlsOptions.Complete.avoids_loadCertificateMaterial {options : TlsOptions}
    (h : options.Complete) (ssl : OpenSsl) (error : ServerError) :
    Avoids (.rejected error) (loadCertificateMaterial ssl options) := by
  have hchain := h.chain
  have hkey := h.key
  unfold loadCertificateMaterial
  refine (avoids_ensure_true (by simpa using hchain) _).bind fun _ => ?_
  refine (avoids_ensure_true (by simpa using hkey) _).bind fun _ => ?_
  refine Avoids.bind ?_ fun _ => Avoids.bind ?_ fun _ => avoids_callOpenSsl _ _ _
  · split_ifs
    · exact avoids_mapError_openSsl _ _
    · exact avoids_callOpenSsl _ _ _
  · split_ifs
    · exact avoids_mapError_openSsl _ _
    · exact avoids_callOpenSsl _ _ _

theorem TlsOptions.Complete.avoids_configureClientVerification {options : TlsOptions}
    (h : options.Complete) (ssl : OpenSsl) (error : ServerError) :
    Avoids (.rejected error) (configureClientVerification ssl options) := by
  unfold configureClientVerification
  refine (avoids_callOpenSsl _ _ _).bind fun _ => ?_
  split_ifs with hempty
  · refine avoids_ensure_true ?_ _
    cases hrequire : options.requireClientCertificate with
    | false => rfl
    | true => exact absurd (List.isEmpty_iff.1 hempty) (h.clientCa hrequire)
  · exact (avoids_callOpenSsl _ _ _).bind fun _ => avoids_callOpenSsl _ _ _

theorem TlsOptions.Complete.avoids_create {options : TlsOptions} (h : options.Complete)
    (ssl : OpenSsl) (error : ServerError) :
    Avoids (.rejected error) (TlsContext.create ssl options) := by
  have hpolicy : Avoids (.rejected error) (applySessionPolicy ssl options) := by
    unfold applySessionPolicy
    refine Avoids.bind ?_ fun _ => avoids_callOpenSsl _ _ _
    split_ifs
    · exact avoids_ok _ ()
    · exact avoids_callOpenSsl _ _ _
  unfold TlsContext.create applyProtocolFloor applyGroupList
  rw [h.alpn]
  exact (avoids_callOpenSsl _ _ _).bind fun _ => (avoids_ok _ ()).bind fun _ =>
    (avoids_callOpenSsl _ _ _).bind fun _ => (avoids_callOpenSsl _ _ _).bind fun _ =>
    hpolicy.bind fun _ => (h.avoids_loadCertificateMaterial ssl error).bind fun _ =>
    (h.avoids_configureClientVerification ssl error).bind fun _ => avoids_ok _ _

/-- The loop throws for an entry only. -/
theorem avoids_rejectUnsupportedAlpnFrom (error : ServerError) (remaining : Bytes) :
    Avoids (.openSsl error) (rejectUnsupportedAlpnFrom remaining) := by
  induction remaining using rejectUnsupportedAlpnFrom.induct with
  | case1 =>
    rw [rejectUnsupportedAlpnFrom]
    exact avoids_ok _ ()
  | case2 remaining hne separator entry remaining' hempty ih =>
    rw [rejectUnsupportedAlpnFrom, if_neg hne]
    simpa [separator, entry, remaining', hempty] using ih
  | case3 remaining hne separator entry remaining' hempty ih =>
    rw [rejectUnsupportedAlpnFrom, if_neg hne]
    simp only [separator, entry, remaining', hempty] at ih ⊢
    exact (avoids_ensure (by simp) _).bind fun _ => ih

theorem avoids_create_willing (options : TlsOptions) (error : ServerError) :
    Avoids (.openSsl error) (TlsContext.create .willing options) := by
  have hpolicy : applySessionPolicy .willing options = .ok () := by
    unfold applySessionPolicy
    split_ifs <;> rfl
  have hmaterial : Avoids (.openSsl error) (loadCertificateMaterial .willing options) := by
    refine (avoids_ensure (by simp) _).bind fun _ => (avoids_ensure (by simp) _).bind fun _ =>
      Avoids.bind ?_ fun _ => Avoids.bind ?_ fun _ => avoids_ok _ ()
    · split_ifs <;> exact avoids_ok _ ()
    · split_ifs <;> exact avoids_ok _ ()
  have hverification : Avoids (.openSsl error) (configureClientVerification .willing options) := by
    refine (avoids_ok _ ()).bind fun _ => ?_
    split_ifs
    · exact avoids_ensure (by simp) _
    · exact avoids_ok _ ()
  unfold TlsContext.create
  rw [hpolicy]
  exact (avoids_ok _ ()).bind fun _ => (avoids_rejectUnsupportedAlpnFrom error _).bind fun _ =>
    (avoids_ok _ ()).bind fun _ => (avoids_ok _ ()).bind fun _ => (avoids_ok _ ()).bind fun _ =>
    hmaterial.bind fun _ => hverification.bind fun _ => avoids_ok _ _

/-- A context is only made from complete options. -/
theorem TlsContext.complete_of_create {ssl : OpenSsl} {options : TlsOptions}
    {context : TlsContext} (h : TlsContext.create ssl options = .ok context) :
    options.Complete := by
  simp only [TlsContext.create, loadCertificateMaterial, configureClientVerification, bind_eq_ok,
    ensure_eq_ok] at h
  obtain ⟨_, -, _, halpn, _, -, _, -, _, -, _, ⟨_, hchain, _, hkey, -⟩, _, ⟨_, -, hca⟩, -⟩ := h
  refine ⟨halpn, by simpa using hchain, by simpa using hkey, fun hrequire hempty => ?_⟩
  simp [hrequire, hempty] at hca

/-- **Complete options are those that are never rejected**, whatever OpenSSL answers. -/
theorem TlsContext.complete_iff {options : TlsOptions} :
    options.Complete ↔
      ∀ ssl error, TlsContext.create ssl options ≠ .error (.rejected error) := by
  refine ⟨fun h ssl error => h.avoids_create ssl error, fun h => ?_⟩
  cases hcreate : TlsContext.create .willing options with
  | ok context => exact complete_of_create hcreate
  | error error =>
    cases error with
    | rejected error => exact absurd hcreate (h .willing error)
    | openSsl error => exact absurd hcreate (avoids_create_willing options error)

end ErikslundHttp
