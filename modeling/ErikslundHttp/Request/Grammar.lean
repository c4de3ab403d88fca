import ErikslundHttp.Request.Parser

/-!
# The grammar of requests

What the parser is for, stated over its classes of bytes and without its scanners.

* `Grammar.Head` is the syntax tree of a request head, and `Head.render` the bytes it stands for.
* `Head.WellFormed` are the conditions under which a server with the given limits answers it; the
  declared length, the authority, the target, the path and the query have grammars of their own
  (`DeclaresLength`, `NamesAuthority`, `TargetForm`, `CanonicalPath`, `QueryParameters`).
* `Head.parsed` is the request that it describes.

Nothing here says how the bytes are cut; the modules after this one prove that `findHead` and
`parseRequest` accept exactly the rendered well-formed heads, with the request the syntax tree
describes.
-/

namespace ErikslundHttp

namespace Grammar

/-! ### Field lines -/

/-- `name ":" OWS value OWS`. -/
structure FieldLine where
  name : Bytes
  /-- The optional whitespace before the value. -/
  before : Bytes
  value : Bytes
  /-- The optional whitespace after it. -/
  after : Bytes

namespace FieldLine

/-- The bytes of the line, without its end. -/
def render (f : FieldLine) : Bytes := f.name ++ byte ':' :: (f.before ++ f.value ++ f.after)

/-- What the line says. -/
def header (f : FieldLine) : Header := ⟨f.name, f.value⟩

/-- The name is a token; the value holds no control byte but the tab, and the optional whitespace
around it is not part of it. -/
structure WellFormed (f : FieldLine) : Prop where
  name_ne_nil : f.name ≠ []
  name_token : ∀ b ∈ f.name, isTokenCharacter b = true
  before_ows : ∀ b ∈ f.before, isOptionalWhitespace b = true
  after_ows : ∀ b ∈ f.after, isOptionalWhitespace b = true
  value_valid : ∀ b ∈ f.value, isValidFieldValueByte b = true
  value_head : ∀ b, f.value.head? = some b → isOptionalWhitespace b = false
  value_last : ∀ b, f.value.getLast? = some b → isOptionalWhitespace b = false

end FieldLine

/-! ### Framing, host, target, query -/

/-- The body length a list of fields declares: no transfer coding, and one canonical
`Content-Length`, possibly repeated; zero without any. -/
structure DeclaresLength (headers : List Header) (length : ℕ) : Prop where
  no_transfer_encoding :
    ∀ f ∈ headers, equalsIgnoreCase f.name (ascii "Transfer-Encoding") = false
  /-- The canonical numeral of the length, in each of them. -/
  content_length : ∀ value ∈ fieldValues (ascii "Content-Length") headers, value = toChars length
  /-- Without a field there is no body. -/
  absent : fieldValues (ascii "Content-Length") headers = [] → length = 0

/-- A byte of a registered name that is no dot: a digit, a letter, or one of `-`, `_`, `~`. -/
def NameByte (b : UInt8) : Prop :=
  (byte '0' ≤ b ∧ b ≤ byte '9') ∨ (byte 'A' ≤ b ∧ b ≤ byte 'Z') ∨ (byte 'a' ≤ b ∧ b ≤ byte 'z') ∨
    b = byte '-' ∨ b = byte '_' ∨ b = byte '~'

/-- A label of a registered name. -/
structure Label (label : Bytes) : Prop where
  ne_nil : label ≠ []
  bytes : ∀ b ∈ label, NameByte b

/-- `label *("." label) ["."]`. -/
inductive RegName : Bytes → Prop
  | label {label : Bytes} (h : Label label) : RegName label
  | root {label : Bytes} (h : Label label) : RegName (label ++ [byte '.'])
  | dot {label rest : Bytes} (h : Label label) (hrest : RegName rest) :
      RegName (label ++ byte '.' :: rest)

/-- The text of an IPv6 address, as it stands between brackets. -/
structure AddressText (pton : InetPton) (address : Bytes) : Prop where
  ne_nil : address ≠ []
  /-- It fits into the buffer for `inet_pton`. -/
  length_lt : address.length < kInet6AddrStrLen
  bytes : ∀ b ∈ address, b ≠ byte ']' ∧ b ≠ byte '@'
  /-- `inet_pton` takes it for an IPv6 address. -/
  reads : (pton.v6 address).isSome = true

/-- A host: a registered name or an IP literal. -/
inductive UriHost (pton : InetPton) : Bytes → Prop
  | name {host : Bytes} (h : RegName host) : UriHost pton host
  | literal {address : Bytes} (h : AddressText pton address) :
      UriHost pton (byte '[' :: (address ++ [byte ']']))

/-- The decimal spelling of a port number; no port is zero. -/
def PortNumber (port : Bytes) : Prop := ∃ number, 0 < number ∧ number ≤ 65535 ∧ port = toChars number

/-- `uri-host [ ":" port ]`. -/
inductive Authority (pton : InetPton) : Bytes → Prop
  | host {host : Bytes} (h : UriHost pton host) : Authority pton host
  | port {host port : Bytes} (h : UriHost pton host) (hport : PortNumber port) :
      Authority pton (host ++ byte ':' :: port)

/-- The authority of a request: that of an absolute-form target, else the only `Host`. -/
structure NamesAuthority (pton : InetPton) (headers : List Header) (isVersion11 : Bool)
    (targetAuthority authority : Bytes) : Prop where
  /-- No request has two of them. -/
  host_unique : (fieldValues (ascii "Host") headers).length ≤ 1
  /-- HTTP/1.1 asks for one. -/
  host_present : isVersion11 = true → fieldValues (ascii "Host") headers ≠ []
  /-- A `Host` field holds an authority. -/
  host_wf : ∀ host ∈ fieldValues (ascii "Host") headers, Authority pton host
  /-- In the origin form it is that of the field. -/
  origin : targetAuthority = [] → authority = (fieldValues (ascii "Host") headers).head?.getD []
  /-- A `Host` field beside an absolute form says the same. -/
  absolute : targetAuthority ≠ [] → authority = targetAuthority ∧
    Authority pton targetAuthority ∧
    ∀ host ∈ fieldValues (ascii "Host") headers, equalsIgnoreCase host targetAuthority = true

/-- `s` is a path, or a path, a `?` and a query. -/
def PathAndQuery (s path query : Bytes) : Prop :=
  byte '?' ∉ path ∧ ((s = path ∧ query = []) ∨ s = path ++ byte '?' :: query)

/-- The two accepted forms of a request target, with its path, query and authority. -/
inductive TargetForm : (target path query authority : Bytes) → Prop
  | origin {target path query : Bytes} (hpq : PathAndQuery target path query)
      (hpath : path.head? = some (byte '/')) : TargetForm target path query []
  /-- An empty path counts as `/`. -/
  | absolute {scheme authority rest path query : Bytes}
      (hscheme : equalsIgnoreCase scheme (ascii "http") = true ∨
        equalsIgnoreCase scheme (ascii "https") = true)
      (hauth : authority ≠ []) (hstop : ∀ b ∈ authority, b ≠ byte '/' ∧ b ≠ byte '?')
      (hpq : PathAndQuery rest path query) (hpath : path = [] ∨ path.head? = some (byte '/')) :
      TargetForm (scheme ++ (ascii "://" ++ (authority ++ rest)))
        (if path = [] then ascii "/" else path) query authority

/-- A path that starts with `/`, has no backslash, and whose segments are neither dot segments nor
percent-encoded; only the last one may be empty. -/
structure CanonicalPath (path : Bytes) : Prop where
  head : path.head? = some (byte '/')
  no_backslash : byte '\\' ∉ path
  /-- Only the last segment is empty. -/
  inner : ∀ s ∈ ((path.drop 1).splitOn (byte '/')).dropLast, s ≠ []
  /-- No segment leads elsewhere, or is encoded. -/
  segment : ∀ s ∈ (path.drop 1).splitOn (byte '/'),
    s ≠ ascii "." ∧ s ≠ ascii ".." ∧ byte '%' ∉ s

/-- A pair is a name and, behind the first `=`, a value. -/
def nameAndValue (pair : Bytes) : Bytes × Bytes :=
  (pair.takeWhile (· ≠ byte '='), (pair.dropWhile (· ≠ byte '=')).tail)

/-- The raw pairs that have a name. -/
def namedPairs (pairs : List Bytes) : List (Bytes × Bytes) :=
  (pairs.map nameAndValue).filter fun pair => !pair.1.isEmpty

/-- The raw pairs of a query. -/
def queryPairs (query : Bytes) : List (Bytes × Bytes) := namedPairs (query.splitOn (byte '&'))

/-- `raw` decodes to `decoded`: a `+` is a space, an escape is a byte that is no control byte, and
any other byte is itself. -/
inductive Decodes : (raw decoded : Bytes) → Prop
  | nil : Decodes [] []
  | plus {raw decoded : Bytes} (h : Decodes raw decoded) :
      Decodes (byte '+' :: raw) (space :: decoded)
  | plain {b : UInt8} {raw decoded : Bytes} (hplus : b ≠ byte '+') (hescape : b ≠ byte '%')
      (h : Decodes raw decoded) : Decodes (b :: raw) (b :: decoded)
  | escape {high low highValue lowValue b : UInt8} {raw decoded : Bytes}
      (hhigh : hexValue high = some highValue) (hlow : hexValue low = some lowValue)
      (hb : b = (highValue <<< 4) ||| lowValue) (hcontrol : 0x20 ≤ b ∧ b ≠ 0x7F)
      (h : Decodes raw decoded) : Decodes (byte '%' :: high :: low :: raw) (b :: decoded)

/-- A raw pair decodes to a parameter. -/
def DecodesPair (pair : Bytes × Bytes) (parameter : Header) : Prop :=
  Decodes pair.1 parameter.name ∧ Decodes pair.2 parameter.value

/-- The decoded parameters of a query. -/
structure QueryParameters (query : Bytes) (parameters : List Header) : Prop where
  /-- No more of them than there is room for. -/
  count_le : parameters.length ≤ kMaxParsedHeaders
  /-- Each pair of the query gives its parameter. -/
  decodes : List.Forall₂ DecodesPair (queryPairs query) parameters

/-! ### Heads -/

/-- The version of a request line. -/
def version (isVersion11 : Bool) : Bytes := if isVersion11 then httpVersion11 else httpVersion10

/-- The syntax tree of a request head, with what its target and fields mean. -/
structure Head where
  /-- One optional empty line before the request line. -/
  prologue : Bool
  method : Method
  /-- As it is sent. -/
  target : Bytes
  /-- HTTP/1.1, or else HTTP/1.0. -/
  isVersion11 : Bool
  /-- The field lines, in their order. -/
  fields : List FieldLine
  path : Bytes
  query : Bytes
  /-- The authority of an absolute-form target, empty in the origin form. -/
  targetAuthority : Bytes
  /-- The authority of the request. -/
  authority : Bytes
  /-- The decoded parameters of the query. -/
  parameters : List Header
  /-- The length of the body that follows the head. -/
  contentLength : ℕ

namespace Head

/-- The request line, without its end. -/
def requestLine (h : Head) : Bytes :=
  h.method.name ++ space :: (h.target ++ space :: version h.isVersion11)

/-- The head without the leading empty line. -/
def block (h : Head) : Bytes :=
  h.requestLine ++ crlf ++ h.fields.flatMap (fun f => f.render ++ crlf) ++ crlf

/-- The bytes before the request line. -/
def prologueText (h : Head) : Bytes := if h.prologue then crlf else []

/-- All the bytes of the head. -/
def render (h : Head) : Bytes := h.prologueText ++ h.block

/-- The fields, in order. -/
def headers (h : Head) : List Header := h.fields.map FieldLine.header

/-- The heads that a server with these limits answers. -/
structure WellFormed (pton : InetPton) (limits : RequestLimits) (h : Head) : Prop where
  method_known : h.method ∈ Method.all
  fields_wf : ∀ f ∈ h.fields, f.WellFormed
  fields_count : h.fields.length ≤ min limits.maxHeaderCount.toNat kMaxParsedHeaders
  line_le : h.requestLine.length ≤ limits.maxRequestLineBytes.toNat
  target_le : h.target.length ≤ limits.maxTargetBytes.toNat
  block_le : h.block.length ≤ limits.maxHeaderBlockBytes.toNat
  length : DeclaresLength h.headers h.contentLength
  length_le : h.contentLength ≤ limits.maxBodyBytes.toNat
  target_valid : ∀ b ∈ h.target, isValidTargetByte b = true
  target_form : TargetForm h.target h.path h.query h.targetAuthority
  authority : NamesAuthority pton h.headers h.isVersion11 h.targetAuthority h.authority
  path : CanonicalPath h.path
  query : QueryParameters h.query h.parameters

/-- The request a head describes; `now` is the clock reading at its completion. -/
def request (now : TimePoint) (h : Head) : Request Bytes :=
  { (Request.init : Request Bytes) with
    method := h.method
    rawTarget := h.target
    path := h.path
    query := h.query
    authority := h.authority
    headers := h.headers
    decodeArena :=
      if h.query.isEmpty then none else some (h.parameters.flatMap fun p => p.name ++ p.value)
    queryParameters := h.parameters
    keepAlive := resolveKeepAlive h.headers h.isVersion11
    wantsGzip := resolveWantsGzip h.headers
    receivedAt := now }

/-- The parsed request a head describes when it is followed by `body`. -/
def parsed (now : TimePoint) (h : Head) (body : Bytes) : ParsedRequest Bytes where
  request := { h.request now with body := body }
  consumedBytes := h.render.length + body.length
  bodyOffset := h.render.length

end Head

end Grammar

end ErikslundHttp
