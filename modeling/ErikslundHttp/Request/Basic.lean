import ErikslundHttp.Status

/-!
# Requests and the strings they borrow

A parsed request does not own its strings: they are views of the connection's read buffer, of the
request's decode arena, or of a string literal of the program.  A `View` is a pointer together
with the bytes it denotes, so that the model can say both what a view reads and where it reads it.

The record `Request α` is generic in its string type: the parser builds a `Request View`, and
`Request.map View.bytes` is the request as handlers see it, a `Request Bytes`.
-/

namespace ErikslundHttp

/-! ### Views -/

/-- A pointer to a byte.  The read buffer is addressed by numbers, since the parser compares and
rebases those addresses; storage of other objects (the decode arena of the request itself, string
literals) never overlaps it. -/
inductive Pointer where
  | null
  | buffer (address : ℕ)
  | arena (offset : ℕ)
  | literal
  deriving DecidableEq, Repr

/-- The pointer `offset` bytes further.  The literals the source borrows are one byte long. -/
def Pointer.add : Pointer → ℕ → Pointer
  | .buffer address, offset => .buffer (address + offset)
  | .arena start, offset => .arena (start + offset)
  | p, _ => p

/-- A `std::string_view`: where it points and the bytes it denotes. -/
@[ext]
structure View where
  /-- Where it points; an empty one may point anywhere. -/
  data : Pointer
  /-- What is there. -/
  bytes : Bytes
  deriving DecidableEq, Repr

namespace View

instance : Inhabited View := ⟨⟨.null, []⟩⟩

/-- How many bytes the view has. -/
def size (v : View) : ℕ := v.bytes.length

/-- It has none. -/
def isEmpty (v : View) : Bool := v.bytes.isEmpty

/-- `v.substr(offset)`. -/
def removePrefix (v : View) (count : ℕ) : View := ⟨v.data.add count, v.bytes.drop count⟩

/-- `v.substr(offset, length)`; also `slice`, whose bounds check the callers meet. -/
def substr (v : View) (offset length : ℕ) : View :=
  ⟨v.data.add offset, (v.bytes.drop offset).take length⟩

@[simp] theorem bytes_removePrefix (v : View) (count : ℕ) :
    (v.removePrefix count).bytes = v.bytes.drop count := rfl

@[simp] theorem bytes_substr (v : View) (offset length : ℕ) :
    (v.substr offset length).bytes = (v.bytes.drop offset).take length := rfl

@[simp] theorem bytes_default : (default : View).bytes = [] := rfl

end View

/-! ### Requests -/

/-- The bytes of an IPv6 address. -/
def kIpv6ByteCount : ℕ := 16

/-- The members of `PeerAddress`. -/
structure PeerAddress where
  /-- IPv4 addresses use IPv4-mapped IPv6 form. -/
  bytes : Vector UInt8 kIpv6ByteCount := Vector.replicate _ 0
  /-- The address is written as an IPv4 address. -/
  isV4 : Bool := false
  port : UInt16 := 0
  /-- The peer came through a Unix socket and has no address. -/
  isUnix : Bool := false
  deriving DecidableEq

/-- `inet_pton` of the C library, for the two address families.  It is a parameter of the model. -/
structure InetPton where
  /-- `AF_INET`. -/
  v4 : Bytes → Option (Vector UInt8 4)
  /-- `AF_INET6`. -/
  v6 : Bytes → Option (Vector UInt8 kIpv6ByteCount)

/-- A conversion that accepts no address.  It cannot be told from `inet_pton` on requests whose host
is a registered name, for which no conversion is made. -/
def InetPton.rejecting : InetPton := ⟨fun _ => none, fun _ => none⟩

/-- A reading of the steady clock; `0` is the value-initialised `time_point`. -/
abbrev TimePoint := ℤ

/-- A name with its value: a field, or a parameter. -/
structure HeaderView (α : Type) where
  name : α
  value : α
  deriving DecidableEq, Repr

/-- A header field as a pair of byte strings. -/
abbrev Header := HeaderView Bytes

/-- The pair over other strings. -/
def HeaderView.map {α β : Type} (f : α → β) (h : HeaderView α) : HeaderView β :=
  ⟨f h.name, f h.value⟩

/-- The members of `Request`, over views or over bytes. -/
structure Request (α : Type) where
  method : Method
  /-- The target as it was sent. -/
  rawTarget : α
  /-- The target up to the `?`, without the authority of an absolute form. -/
  path : α
  /-- What follows the `?`, still encoded. -/
  query : α
  /-- That of an absolute-form target, or else the value of `Host`. -/
  authority : α
  body : α
  headers : List (HeaderView α)
  /-- The storage of the decoded parameters. -/
  decodeArena : Option Bytes
  /-- Decoded, in the order of the query. -/
  queryParameters : List (HeaderView α)
  /-- The captures of the route that was found. -/
  pathParameters : List (HeaderView α)
  peer : PeerAddress
  /-- The clock reading that the request was parsed or adopted with. -/
  receivedAt : TimePoint
  /-- The name in the certificate of the client. -/
  clientCertificateSubject : Bytes
  /-- The connection may stay open after the answer. -/
  keepAlive : Bool
  /-- The client accepts the coding `gzip`. -/
  wantsGzip : Bool
  isSecure : Bool
  hasClientCertificate : Bool
  deriving DecidableEq

namespace Request

variable {α β : Type}

/-- A default-constructed request. -/
def init [Inhabited α] : Request α where
  method := .none
  rawTarget := default
  path := default
  query := default
  authority := default
  body := default
  headers := []
  decodeArena := none
  queryParameters := []
  pathParameters := []
  peer := {}
  receivedAt := 0
  clientCertificateSubject := []
  keepAlive := false
  wantsGzip := false
  isSecure := false
  hasClientCertificate := false

/-- The same request with other strings. -/
def map (f : α → β) (r : Request α) : Request β where
  method := r.method
  rawTarget := f r.rawTarget
  path := f r.path
  query := f r.query
  authority := f r.authority
  body := f r.body
  headers := r.headers.map (HeaderView.map f)
  decodeArena := r.decodeArena
  queryParameters := r.queryParameters.map (HeaderView.map f)
  pathParameters := r.pathParameters.map (HeaderView.map f)
  peer := r.peer
  receivedAt := r.receivedAt
  clientCertificateSubject := r.clientCertificateSubject
  keepAlive := r.keepAlive
  wantsGzip := r.wantsGzip
  isSecure := r.isSecure
  hasClientCertificate := r.hasClientCertificate

/-- Keeps the allocation of the decode arena. -/
def reset [Inhabited α] (r : Request α) : Request α :=
  { init with decodeArena := r.decodeArena.map fun _ => [] }

/-- What is left of a request after it was moved from. -/
def movedFrom [Inhabited α] (r : Request α) : Request α := { r with decodeArena := none }.reset

@[simp] theorem movedFrom_eq [Inhabited α] (r : Request α) : r.movedFrom = init := rfl

/-- Case-insensitive; the first occurrence wins. -/
def header (r : Request Bytes) (name : Bytes) : Option Bytes :=
  (r.headers.find? fun field => equalsIgnoreCase field.name name).map HeaderView.value

end Request

/-! ### Limits and errors -/

/-- `kMaxParsedHeaders`: excess headers are rejected, never truncated. -/
def kMaxParsedHeaders : ℕ := 64

/-- `kMaxPathParameters`. -/
def kMaxPathParameters : ℕ := 8

/-- The members of `RequestLimits`. -/
structure RequestLimits where
  /-- Without its line end. -/
  maxRequestLineBytes : UInt64 := 8192
  /-- From the request line to the empty line. -/
  maxHeaderBlockBytes : UInt64 := 16384
  /-- Never more than `kMaxParsedHeaders`, whatever it is. -/
  maxHeaderCount : UInt64 := 64
  maxTargetBytes : UInt64 := 2048
  /-- The declared length is checked, before the body comes. -/
  maxBodyBytes : UInt64 := 1048576
  deriving DecidableEq, Repr

/-- The errors of the parser; the first one is none yet. -/
inductive ParseError where
  | needsMoreData
  | malformedRequestLine
  | unsupportedVersion
  | unknownMethod
  | tooManyHeaders
  | malformedHeader
  | missingHost
  | malformedHost
  | targetTooLong
  | badPercentEncoding
  | unsupportedTransferEncoding
  | bodyTooLarge
  deriving DecidableEq, Repr

/-- `status_for`. -/
def ParseError.status : ParseError → Status
  | tooManyHeaders => .requestHeaderFieldsTooLarge
  | targetTooLong => .uriTooLong
  | bodyTooLarge => .contentTooLarge
  | unsupportedTransferEncoding => .notImplemented
  | unsupportedVersion => .misdirectedRequest
  | needsMoreData | malformedRequestLine | unknownMethod | malformedHeader | missingHost
  | malformedHost | badPercentEncoding => .badRequest

/-- The members of `ParsedRequest`. -/
structure ParsedRequest (α : Type) where
  request : Request α
  /-- Request line, headers, and body. -/
  consumedBytes : ℕ
  /-- Where the body begins in the bytes. -/
  bodyOffset : ℕ
  deriving DecidableEq

/-- The result over other strings. -/
def ParsedRequest.map {α β : Type} (f : α → β) (p : ParsedRequest α) : ParsedRequest β :=
  { p with request := p.request.map f }

end ErikslundHttp
