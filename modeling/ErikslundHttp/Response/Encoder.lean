import ErikslundHttp.Response.Basic

/-!
# Encoding a response

`encodeResponse` (`response_encoder.cpp`) writes the head of a response and decides which bytes
follow it.  It is the only response-framing implementation of the program.  With it come the
content coding (`compress.cpp`) and conditional requests (`conditional_request.cpp`).

Two things are parameters: the compressor, and the reading of the system clock for `Date`.
-/

namespace ErikslundHttp

open Scan

/-! ### Content coding -/

/-- `deflateInit2`, one `deflate` call with `Z_FINISH`, and the bytes it wrote: `none` when zlib
cannot be set up or does not reach the end of the stream. -/
abbrev Deflate := Bytes → Option Bytes

/-- Smaller bodies already fit in one ordinary TCP segment. -/
def kMinimumCompressibleBodyBytes : ℕ := 1024

/-- Bounds simultaneous plain and compressed storage. -/
def kMaximumCompressibleBodyBytes : ℕ := 8388608

/-- `starts_with_ignore_case`. -/
def startsWithIgnoreCase (text start : Bytes) : Bool :=
  start.length ≤ text.length && equalsIgnoreCase (text.take start.length) start

/-- `ends_with_ignore_case`. -/
def endsWithIgnoreCase (text suffix : Bytes) : Bool :=
  suffix.length ≤ text.length && equalsIgnoreCase (text.drop (text.length - suffix.length)) suffix

/-- A content type without its parameters. -/
def mediaTypeOf (contentType : Bytes) : Bytes :=
  trimBytes <| match find (byte ';') contentType with
    | none => contentType
    | some parameters => contentType.take parameters

/-- The suffixes of types that are text underneath. -/
def compressibleMediaTypeSuffixes : List Bytes := ["+json", "+xml"].map ascii

/-- The types that are text under another name. -/
def compressibleMediaTypes : List Bytes :=
  ["application/json", "application/javascript", "application/x-javascript",
    "application/xml"].map ascii

/-- `media_type_is_compressible`. -/
def mediaTypeIsCompressible (contentType : Bytes) : Bool :=
  let mediaType := mediaTypeOf contentType
  if mediaType.isEmpty then false
  else startsWithIgnoreCase mediaType (ascii "text/") ||
    compressibleMediaTypeSuffixes.any (endsWithIgnoreCase mediaType) ||
    compressibleMediaTypes.any (equalsIgnoreCase mediaType)

/-- Describes the resource, not one request, so `Vary` remains correct. -/
def responseVariesOnAcceptEncoding (contentType contentEncoding : Bytes) (bodyBytes : ℕ) : Bool :=
  if !contentEncoding.isEmpty then false
  else if bodyBytes < kMinimumCompressibleBodyBytes || kMaximumCompressibleBodyBytes < bodyBytes then
    false
  else mediaTypeIsCompressible contentType

/-- Nothing on failure or expansion. -/
def gzipCompress (deflate : Deflate) (body : Bytes) : Option Bytes :=
  if body.length < kMinimumCompressibleBodyBytes || kMaximumCompressibleBodyBytes < body.length then
    none
  else
    match deflate body with
    | none => none
    | some out => if body.length ≤ out.length then none else some out

/-! ### Fields -/

/-- `has_control_character`. -/
def hasControlCharacter (value : Bytes) : Bool := value.any fun b => b < 0x20 || b == 0x7F

/-- A field line. -/
def appendField (buffer name value : Bytes) : Bytes :=
  buffer ++ name ++ ascii ": " ++ value ++ crlf

/-- The encoder alone decides the framing of a message. -/
def isFramingField (name : Bytes) : Bool :=
  equalsIgnoreCase name (ascii "Content-Length") || equalsIgnoreCase name (ascii "Connection") ||
    equalsIgnoreCase name (ascii "Transfer-Encoding")

/-- The loop of `list_names` ends at an empty rest, so it does not see an empty last entry. -/
def listEntries (value : Bytes) : List Bytes :=
  let entries := value.splitOn (byte ',')
  if entries.getLast? = some [] then entries.dropLast else entries

/-- `list_names`: the list has the member, in any letter case. -/
def listNames (value member : Bytes) : Bool :=
  (listEntries value).any fun entry => equalsIgnoreCase (trimBytes entry) member

/-- The bytes `append_accept_encoding_vary` appends. -/
def acceptEncodingVary (declared : Bytes) : Bytes :=
  if declared.isEmpty then ascii "Accept-Encoding"
  else if listNames declared (ascii "Accept-Encoding") then declared
  else declared ++ ascii ", " ++ ascii "Accept-Encoding"

/-! ### Conditional requests -/

/-- A tag for weak comparison. -/
def withoutWeakMarker (tag : Bytes) : Bytes :=
  if ascii "W/" <+: tag then tag.drop 2 else tag

/-- `if_none_match_matches`. -/
def ifNoneMatchMatches (field etag : Bytes) : Bool :=
  if etag.isEmpty then false
  else (field.splitOn (byte ',')).any fun entry =>
    let candidate := trimBytes entry
    candidate == ascii "*" ||
      (!candidate.isEmpty && withoutWeakMarker candidate == withoutWeakMarker etag)

/-- The fields that a `304` takes over from the response it stands for; `Vary` is merged. -/
def preservedFields : List Bytes :=
  ["Cache-Control", "Content-Location", "Date", "ETag", "Expires"].map ascii

/-- `not_modified_from`. -/
def notModifiedFrom (source : Response) : Response :=
  let notModified := preservedFields.foldl (fun response field =>
    match source.findHeader field with
    | some value => response.header field value
    | none => response) (Response.empty .notModified)
  let declaredVary := source.findHeader (ascii "Vary")
  let variesOnAcceptEncoding := responseVariesOnAcceptEncoding
    ((source.findHeader (ascii "Content-Type")).getD [])
    ((source.findHeader (ascii "Content-Encoding")).getD []) source.body.length
  if variesOnAcceptEncoding then
    notModified.header (ascii "Vary") (acceptEncodingVary (declaredVary.getD []))
  else
    match declaredVary with
    | some value => notModified.header (ascii "Vary") value
    | none => notModified

/-- `apply_conditional_request`. -/
def applyConditionalRequest (request : Request Bytes) (response : Response) : Response :=
  let isRetrieval := request.method == .get || request.method == .head
  if !isRetrieval || response.status != .ok || response.isStream then response
  else
    match response.findHeader (ascii "ETag"), request.header (ascii "If-None-Match") with
    | some etag, some condition =>
      if !etag.isEmpty && ifNoneMatchMatches condition etag then notModifiedFrom response
      else response
    | _, _ => response

/-! ### The encoder -/

/-- The members of `ResponseEncodingOptions`. -/
structure ResponseEncodingOptions where
  /-- The value of `Server`; without one the field is left out. -/
  serverHeader : Bytes
  /-- What the field `Connection` announces. -/
  keepAlive : Bool := false
  /-- The response goes over TLS. -/
  secure : Bool := false
  /-- A secure response gets the field of that name. -/
  strictTransportSecurity : Bool := false
  hstsMaxAgeSeconds : UInt64 := 0

/-- What `encode_response` returns, with the head it writes. -/
structure EncodedResponse where
  /-- The status line and the fields, with the empty line. -/
  head : Bytes
  /-- The body, compressed or not. -/
  body : Bytes
  /-- Only the head is sent. -/
  suppressBody : Bool

/-- The bytes of the body that go on the wire. -/
def EncodedResponse.wireBody (e : EncodedResponse) : Bytes := if e.suppressBody then [] else e.body

/-- The bytes of the message. -/
def EncodedResponse.wire (e : EncodedResponse) : Bytes := e.head ++ e.wireBody

/-- The policy of pages whose handler sets none. -/
def kHtmlContentSecurityPolicy : Bytes :=
  ascii ("default-src 'self'; style-src 'unsafe-inline'; base-uri 'none'; " ++
    "frame-ancestors 'none'; form-action 'none'; object-src 'none'")

/-- The value of the `Connection` field. -/
def connectionToken (keepAlive : Bool) : Bytes :=
  if keepAlive then ascii "keep-alive" else ascii "close"

/-- `encode_response`. -/
def encodeResponse (deflate : Deflate) (now : SystemTime) (request : Request Bytes)
    (response : Response) (options : ResponseEncodingOptions) : EncodedResponse :=
  let status := response.status
  let streaming := response.isStream
  let handlerBody := if streaming then [] else response.body
  let contentType := (response.findHeader (ascii "Content-Type")).getD []
  let contentEncoding := (response.findHeader (ascii "Content-Encoding")).getD []
  let variesOnAcceptEncoding := !status.isBodiless &&
    responseVariesOnAcceptEncoding contentType contentEncoding handlerBody.length
  let compressed :=
    if variesOnAcceptEncoding && request.wantsGzip then gzipCompress deflate handlerBody else none
  let body := compressed.getD handlerBody
  let suppressBody := streaming || request.method == .head || status.isBodiless
  let absent (name : String) : Bool := !(response.findHeader (ascii name)).isSome
  let head := ascii "HTTP/1.1 " ++ toChars status.code ++ ascii " " ++ status.reasonPhrase ++ crlf
  let head := response.headers.entries.foldl (fun head field =>
    if isFramingField field.1 then head
    else if variesOnAcceptEncoding && equalsIgnoreCase field.1 (ascii "Vary") then head
    else appendField head field.1 field.2) head
  let head := if compressed.isSome then appendField head (ascii "Content-Encoding") (ascii "gzip")
    else head
  let head := if variesOnAcceptEncoding then appendField head (ascii "Vary")
      (acceptEncodingVary ((response.findHeader (ascii "Vary")).getD []))
    else head
  let head := if absent "Date" then appendField head (ascii "Date") (httpDate now) else head
  let head := if !options.serverHeader.isEmpty && !hasControlCharacter options.serverHeader &&
      absent "Server" then appendField head (ascii "Server") options.serverHeader
    else head
  let head := if absent "Cache-Control" then
      appendField head (ascii "Cache-Control") (ascii "no-store")
    else head
  let head := if absent "X-Content-Type-Options" then
      appendField head (ascii "X-Content-Type-Options") (ascii "nosniff")
    else head
  let head := if absent "Referrer-Policy" then
      appendField head (ascii "Referrer-Policy") (ascii "no-referrer")
    else head
  let head := if (ascii "text/html").isPrefixOf contentType && absent "Content-Security-Policy" then
      appendField head (ascii "Content-Security-Policy") kHtmlContentSecurityPolicy
    else head
  let head := if options.secure && options.strictTransportSecurity &&
      absent "Strict-Transport-Security" then
      appendField head (ascii "Strict-Transport-Security")
        (ascii "max-age=" ++ toChars options.hstsMaxAgeSeconds.toNat)
    else head
  let head :=
    if streaming then appendField head (ascii "Connection") (ascii "close")
    else if status.isBodiless then
      appendField head (ascii "Connection") (connectionToken options.keepAlive)
    else
      let head := appendField head (ascii "Content-Length") (toChars body.length)
      appendField head (ascii "Connection") (connectionToken options.keepAlive)
  { head := head ++ crlf, body := body, suppressBody := suppressBody }

end ErikslundHttp
