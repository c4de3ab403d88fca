import ErikslundHttp.Request.Scanners

/-!
# The resumable request parser

`RequestParser` retains a validated request head while its body arrives.  Between two calls the
connection may move its read buffer, so the parser remembers which of its views borrow that buffer
and at which offset (`rememberBufferOffsets`), and points them into the new one
(`rebaseBorrowedViews`).

Each call takes the reading of the steady clock at that call, which a completed head records.
`parseRequest` is the one-shot use of a fresh parser.
-/

namespace ErikslundHttp

open Scan

/-- `kHeaderTerminator`. -/
def headerTerminator : Bytes := crlf ++ crlf

/-- Where a view begins in the buffer, if it is of the buffer. -/
structure BufferViewOffset where
  /-- How far from the start of the buffer. -/
  value : ℕ := 0
  /-- The view points into the buffer. -/
  borrowed : Bool := false
  deriving DecidableEq, Repr

/-- The same for a field. -/
structure HeaderOffsets where
  name : BufferViewOffset
  value : BufferViewOffset
  deriving DecidableEq, Repr

/-- The members of `RequestParser`. -/
structure RequestParser where
  request : Request View := Request.init
  /-- Where the buffer was, when the views were made. -/
  bufferBase : Pointer := .null
  rawTargetOffset : BufferViewOffset := {}
  pathOffset : BufferViewOffset := {}
  queryOffset : BufferViewOffset := {}
  authorityOffset : BufferViewOffset := {}
  /-- Where the fields begin, in their order. -/
  headerOffsets : List HeaderOffsets := []
  /-- Where the body begins in the bytes. -/
  bodyOffset : ℕ := 0
  /-- The length that the head declares. -/
  bodyBytes : ℕ := 0
  /-- The head has been parsed, and its views are kept. -/
  headComplete : Bool := false
  deriving DecidableEq

/-! ### The head -/

/-- What `parse_head` finds in the bytes, before it is stored in the parser. -/
structure ParsedHead where
  request : Request View
  bodyOffset : ℕ
  /-- The length that the head declares. -/
  bodyBytes : ℕ

/-- The head of a request whose line ends at `requestLineEnd` and whose fields end before the
empty line at `terminator`. -/
def parseHeadAt (pton : InetPton) (now : TimePoint) (requestBytes : View) (limits : RequestLimits)
    (requestLineEnd terminator : ℕ) : Except ParseError (Request View × ℕ) := do
  let line ← parseRequestLine (requestBytes.substr 0 requestLineEnd)
  ensure (line.target.size ≤ limits.maxTargetBytes.toNat) .targetTooLong
  let fieldsBegin := requestLineEnd + 2
  let fieldsEnd := terminator + 2
  let headers ← parseHeaderFields (requestBytes.substr fieldsBegin (fieldsEnd - fieldsBegin))
    limits.maxHeaderCount.toNat
  let fields := headers.map (HeaderView.map View.bytes)
  let contentLength ← resolveContentLength fields limits.maxBodyBytes.toNat
  let target ← splitTarget line.target
  let authority ← resolveAuthority pton headers target.authority line.isVersion11
  ensure (pathIsCanonical target.path.bytes) .malformedRequestLine
  let (arena, queryParameters) ← decodeQueryInto [] target.query.bytes
  return ({ (Request.init : Request View) with
    method := line.method
    rawTarget := line.target
    path := target.path
    query := target.query
    authority := authority
    headers := headers
    decodeArena := if target.query.isEmpty then none else some arena
    queryParameters := queryParameters
    keepAlive := resolveKeepAlive fields line.isVersion11
    wantsGzip := resolveWantsGzip fields
    receivedAt := now }, contentLength)

/-- The leading bytes to skip: RFC 9112 permits one leading empty line, not an unbounded stream of
them. -/
def prologueBytes (bytes : Bytes) : ℕ := if crlf <+: bytes then 2 else 0

/-- The part of `parse_head` that does not depend on the parser. -/
def findHead (pton : InetPton) (now : TimePoint) (bytes : View) (limits : RequestLimits) :
    Except ParseError ParsedHead := do
  let requestBytes := bytes.removePrefix (prologueBytes bytes.bytes)
  let requestLineEnd := findSub crlf requestBytes.bytes
  ensure (requestLineEnd.getD requestBytes.size ≤ limits.maxRequestLineBytes.toNat) .targetTooLong
  match findSub headerTerminator requestBytes.bytes with
  | none =>
    ensure (requestBytes.size ≤ limits.maxHeaderBlockBytes.toNat) .tooManyHeaders
    throw .needsMoreData
  | some terminator =>
    let headerBlockBytes := terminator + 4
    ensure (headerBlockBytes ≤ limits.maxHeaderBlockBytes.toNat) .tooManyHeaders
    let (request, contentLength) ←
      parseHeadAt pton now requestBytes limits (requestLineEnd.getD 0) terminator
    return ⟨request, prologueBytes bytes.bytes + headerBlockBytes, contentLength⟩

namespace RequestParser

/-! ### Borrowed views -/

/-- The offset of a view in the head at `base`, if it borrows it. -/
def offsetOf (base : Pointer) (bodyOffset : ℕ) (view : View) : BufferViewOffset :=
  if view.isEmpty then {}
  else
    match base, view.data with
    | .buffer base, .buffer address =>
      if base ≤ address ∧ address < base + bodyOffset then ⟨address - base, true⟩ else {}
    | _, _ => {}

/-- `RequestParser::remember_buffer_offsets`. -/
def rememberBufferOffsets (p : RequestParser) : RequestParser :=
  let offsetOf := offsetOf p.bufferBase p.bodyOffset
  { p with
    rawTargetOffset := offsetOf p.request.rawTarget
    pathOffset := offsetOf p.request.path
    queryOffset := offsetOf p.request.query
    authorityOffset := offsetOf p.request.authority
    headerOffsets := p.request.headers.map fun header =>
      ⟨offsetOf header.name, offsetOf header.value⟩ }

/-- A borrowed view, moved to the same offset of the buffer `bytes`. -/
def rebase (bytes : View) (view : View) (offset : BufferViewOffset) : View :=
  if offset.borrowed then bytes.substr offset.value view.size else view

/-- `RequestParser::rebase_borrowed_views`: the buffer has moved. -/
def rebaseBorrowedViews (p : RequestParser) (bytes : View) : RequestParser :=
  { p with
    request := { p.request with
      rawTarget := rebase bytes p.request.rawTarget p.rawTargetOffset
      path := rebase bytes p.request.path p.pathOffset
      query := rebase bytes p.request.query p.queryOffset
      authority := rebase bytes p.request.authority p.authorityOffset
      headers := List.zipWith (fun header offsets =>
        ⟨rebase bytes header.name offsets.name, rebase bytes header.value offsets.value⟩)
        p.request.headers p.headerOffsets }
    bufferBase := bytes.data }

/-! ### The parser -/

/-- `RequestParser::parse_head`. -/
def parseHead (pton : InetPton) (now : TimePoint) (p : RequestParser) (bytes : View)
    (limits : RequestLimits) : Except ParseError RequestParser := do
  let head ← findHead pton now bytes limits
  return rememberBufferOffsets { p with
    request := head.request
    bodyOffset := head.bodyOffset
    bodyBytes := head.bodyBytes
    bufferBase := bytes.data
    headComplete := true }

/-- `RequestParser::reset`. -/
def reset (p : RequestParser) : RequestParser :=
  { (({} : RequestParser)) with request := p.request.reset }

/-- The head is complete, and the body is not. -/
def waitingForBody (p : RequestParser) : Bool := p.headComplete

/-- The part of `parse` after the head is complete. -/
def parseBody (p : RequestParser) (bytes : View) :
    Except ParseError (ParsedRequest View) × RequestParser :=
  if bytes.size < p.bodyOffset then (.error .needsMoreData, p)
  else
    let p := if bytes.data ≠ p.bufferBase then p.rebaseBorrowedViews bytes else p
    if bytes.size - p.bodyOffset < p.bodyBytes then (.error .needsMoreData, p)
    else
      let request := { p.request with body := bytes.substr p.bodyOffset p.bodyBytes }
      (.ok ⟨request, p.bodyOffset + p.bodyBytes, p.bodyOffset⟩,
        { p with request := request.movedFrom }.reset)

/-- `RequestParser::parse`. -/
def parse (pton : InetPton) (now : TimePoint) (p : RequestParser) (bytes : View)
    (limits : RequestLimits) : Except ParseError (ParsedRequest View) × RequestParser :=
  if p.headComplete then p.parseBody bytes
  else
    match p.parseHead pton now bytes limits with
    | .error error => (.error error, p)
    | .ok p => p.parseBody bytes

end RequestParser

/-- `parse_request`: a parser for one call. -/
def parseRequest (pton : InetPton) (now : TimePoint) (bytes : View) (limits : RequestLimits) :
    Except ParseError (ParsedRequest View) :=
  (RequestParser.parse pton now {} bytes limits).1

end ErikslundHttp
