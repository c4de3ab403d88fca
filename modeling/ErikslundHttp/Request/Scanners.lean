import ErikslundHttp.Lib.Scan
import ErikslundHttp.Lib.Result
import ErikslundHttp.Request.Basic

/-!
# The scanners of the request parser

One definition per function of the unnamed namespace of `request.cpp`, in its order.  Functions
that return strings work on `View`s; those that only inspect bytes work on `Bytes`.

Loops that cut a string at a separator (`find`, `substr`, `remove_prefix`) go through the pieces
of `List.splitOn`, which are the views the loop visits, in order.
-/

namespace ErikslundHttp

open Scan

/-! ### Bytes -/

/-- The value of a hexadecimal digit. -/
def hexValue (character : UInt8) : Option UInt8 :=
  if byte '0' ≤ character && character ≤ byte '9' then some (character - byte '0')
  else if byte 'a' ≤ character && character ≤ byte 'f' then some (character - byte 'a' + 10)
  else if byte 'A' ≤ character && character ≤ byte 'F' then some (character - byte 'A' + 10)
  else none

/-- The whitespace of `OWS`. -/
def isOptionalWhitespace (character : UInt8) : Bool :=
  character == space || character == horizontalTab

/-- `trim_optional_whitespace`, on the bytes. -/
def trimBytes (value : Bytes) : Bytes := trim isOptionalWhitespace value

/-- `trim_optional_whitespace`: the view moves with the blanks that it loses. -/
def trimOptionalWhitespace (value : View) : View :=
  ⟨value.data.add (value.bytes.takeWhile isOptionalWhitespace).length, trimBytes value.bytes⟩

/-- An ASCII letter or digit. -/
def isAlphanumeric (character : UInt8) : Bool :=
  (byte 'a' ≤ character && character ≤ byte 'z') ||
    (byte 'A' ≤ character && character ≤ byte 'Z') ||
    (byte '0' ≤ character && character ≤ byte '9')

/-- RFC 9110 tchar. -/
def isTokenCharacter (character : UInt8) : Bool :=
  isAlphanumeric character || (ascii "!#$%&'*+-.^_`|~").contains character

/-- No blank, control character or fragment may stand in a target. -/
def isValidTargetByte (character : UInt8) : Bool :=
  !(character ≤ 0x20 || character == 0x7F) && character != byte '#'

/-- Line terminators and NUL are rejected, so echoed values cannot split a response. -/
def isValidFieldValueByte (character : UInt8) : Bool :=
  character == horizontalTab || (0x20 ≤ character && character != 0x7F)

/-- The members `for_each_list_member` visits, in order. -/
def listMembers (value : Bytes) (separator : UInt8) : List Bytes :=
  ((value.splitOn separator).map trimBytes).filter fun member => !member.isEmpty

/-! ### Query parameters -/

/-- Appends the decoded component to the arena. -/
def decodeQueryComponentInto : Bytes → Bytes → Option Bytes
  | arena, [] => some arena
  | arena, character :: rest =>
    if character == byte '+' then decodeQueryComponentInto (arena ++ [space]) rest
    else if character != byte '%' then decodeQueryComponentInto (arena ++ [character]) rest
    else
      match rest with
      | high :: low :: rest =>
        match hexValue high, hexValue low with
        | some highValue, some lowValue =>
          let decoded := (highValue <<< 4) ||| lowValue
          if decoded < 0x20 || decoded == 0x7F then none
          else decodeQueryComponentInto (arena ++ [decoded]) rest
        | _, _ => none
      | _ => none

/-- The raw name and value of one `name=value` pair. -/
def splitPair (pair : Bytes) : Bytes × Bytes :=
  match find (byte '=') pair with
  | none => (pair, [])
  | some assignment => (pair.take assignment, pair.drop (assignment + 1))

/-- The loop of `decode_query_into` over the pairs of the query. -/
def decodePairsInto (arena : Bytes) (out : List (HeaderView View)) :
    List Bytes → Except ParseError (Bytes × List (HeaderView View))
  | [] => .ok (arena, out)
  | pair :: rest =>
    let (rawName, rawValue) := splitPair pair
    if rawName.isEmpty then decodePairsInto arena out rest
    else do
      ensure (out.length != kMaxParsedHeaders) .targetTooLong
      let nameBegin := arena.length
      let arena ← orFail .badPercentEncoding (decodeQueryComponentInto arena rawName)
      let valueBegin := arena.length
      let arena ← orFail .badPercentEncoding (decodeQueryComponentInto arena rawValue)
      let name : View := ⟨.arena nameBegin, (arena.drop nameBegin).take (valueBegin - nameBegin)⟩
      let value : View := ⟨.arena valueBegin, arena.drop valueBegin⟩
      decodePairsInto arena (out ++ [⟨name, value⟩]) rest

/-- `decode_query_into`, pair by pair. -/
def decodeQueryInto (arena rawQuery : Bytes) : Except ParseError (Bytes × List (HeaderView View)) :=
  decodePairsInto arena [] (rawQuery.splitOn (byte '&'))

/-! ### The request target -/

/-- A segment that no proxy would resolve or decode. -/
def segmentIsCanonical (segment : Bytes) : Bool :=
  !(segment.isEmpty || segment == ascii "." || segment == ascii ".." ||
    segment.contains (byte '%'))

/-- The loop of `path_is_canonical`: only a last segment may be empty. -/
def segmentsAreCanonical : List Bytes → Bool
  | [] => true
  | [last] => last.isEmpty || segmentIsCanonical last
  | segment :: rest => segmentIsCanonical segment && segmentsAreCanonical rest

/-- `path_is_canonical`. -/
def pathIsCanonical (rawPath : Bytes) : Bool :=
  if rawPath.head? != some (byte '/') || rawPath.contains (byte '\\') then false
  else segmentsAreCanonical ((rawPath.drop 1).splitOn (byte '/'))

/-- What `split_target` finds in a target. -/
structure TargetParts where
  path : View
  query : View
  /-- RFC 9112 gives absolute-form authority precedence over `Host`. -/
  authority : View

/-- `kRootPath`. -/
def rootPath : View := ⟨.literal, ascii "/"⟩

/-- The bytes `split_target` looks for after an authority. -/
def endsAuthority (character : UInt8) : Bool := character == byte '/' || character == byte '?'

/-- The absolute-form branch of `split_target`: the authority and what follows it. -/
def splitAuthority (target : View) : Except ParseError (View × View) := do
  let schemeEnd ← orFail .malformedRequestLine (findSub (ascii "://") target.bytes)
  let scheme := (target.substr 0 schemeEnd).bytes
  ensure (equalsIgnoreCase scheme (ascii "http") || equalsIgnoreCase scheme (ascii "https"))
    .malformedRequestLine
  let remainder := target.removePrefix (schemeEnd + 3)
  let authorityEnd := remainder.bytes.findIdx? endsAuthority
  let authority := remainder.substr 0 (authorityEnd.getD remainder.size)
  let remainder := match authorityEnd with
    | none => default
    | some authorityEnd => remainder.removePrefix authorityEnd
  ensure (!authority.isEmpty) .malformedRequestLine
  return (authority, remainder)

/-- The path and the query of what follows the authority. -/
def splitQuery (remainder : View) : View × View :=
  match find (byte '?') remainder.bytes with
  | none => (remainder, default)
  | some queryBegin =>
    (remainder.substr 0 queryBegin, remainder.removePrefix (queryBegin + 1))

/-- The end of `split_target`: what follows the authority. -/
def splitPath (authority remainder : View) : Except ParseError TargetParts := do
  let (path, query) := splitQuery remainder
  if path.isEmpty then return ⟨rootPath, query, authority⟩
  ensure (path.bytes.head? == some (byte '/')) .malformedRequestLine
  return ⟨path, query, authority⟩

/-- `split_target`: origin form, or absolute form with an authority. -/
def splitTarget (target : View) : Except ParseError TargetParts := do
  ensure (target.bytes.all isValidTargetByte) .malformedRequestLine
  if target.bytes.head? == some (byte '/') then splitPath default target
  else
    let (authority, remainder) ← splitAuthority target
    splitPath authority remainder

/-! ### The request line -/

/-- `version_is_well_formed`. -/
def versionIsWellFormed (version : Bytes) : Bool :=
  match version with
  | [c0, c1, c2, c3, c4, major, separator, minor] =>
    [c0, c1, c2, c3, c4] == ascii "HTTP/" && isDecimalDigit major && separator == byte '.' &&
      isDecimalDigit minor
  | _ => false

/-- The version whose connections are kept alive. -/
def httpVersion11 : Bytes := ascii "HTTP/1.1"

/-- The version whose connections are not, unless it is asked for. -/
def httpVersion10 : Bytes := ascii "HTTP/1.0"

/-- What `parse_request_line` finds. -/
structure RequestLine where
  method : Method
  target : View
  isVersion11 : Bool

/-- `parse_request_line`: three parts with one space between them. -/
def parseRequestLine (line : View) : Except ParseError RequestLine := do
  let methodEnd ← orFail .malformedRequestLine (find space line.bytes)
  ensure (methodEnd != 0) .malformedRequestLine
  let targetEnd ← orFail .malformedRequestLine (findFrom space (methodEnd + 1) line.bytes)
  -- extra whitespace creates disagreement between strict and trimming hops
  ensure (findFrom space (targetEnd + 1) line.bytes).isNone .malformedRequestLine
  let target := line.substr (methodEnd + 1) (targetEnd - methodEnd - 1)
  ensure (!target.isEmpty) .malformedRequestLine
  let method ← orFail .unknownMethod (Method.fromToken (line.bytes.take methodEnd))
  let version := line.bytes.drop (targetEnd + 1)
  ensure (versionIsWellFormed version) .malformedRequestLine
  ensure (version == httpVersion11 || version == httpVersion10) .unsupportedVersion
  return ⟨method, target, version == httpVersion11⟩

/-! ### Header fields -/

/-- One field line: `parse_header_fields` without its loop. -/
def parseFieldLine (line : View) : Except ParseError (HeaderView View) := do
  -- obsolete folding
  ensure (!(line.bytes.head? == some space || line.bytes.head? == some horizontalTab))
    .malformedHeader
  let colon ← orFail .malformedHeader (find (byte ':') line.bytes)
  ensure (colon != 0) .malformedHeader
  let name := line.substr 0 colon
  ensure (name.bytes.all isTokenCharacter) .malformedHeader
  let value := trimOptionalWhitespace (line.removePrefix (colon + 1))
  ensure (value.bytes.all isValidFieldValueByte) .malformedHeader
  return ⟨name, value⟩

/-- The loop of `parse_header_fields`; every turn consumes at least a line break, so `fuel` is at
least the number of bytes left. -/
def parseFieldLines (effectiveMaximum : ℕ) :
    ℕ → View → List (HeaderView View) → Except ParseError (List (HeaderView View))
  | 0, _, out => .ok out
  | fuel + 1, fieldLines, out =>
    if fieldLines.isEmpty then .ok out
    else do
      let lineEnd ← orFail .malformedHeader (findSub crlf fieldLines.bytes)
      let field ← parseFieldLine (fieldLines.substr 0 lineEnd)
      ensure (out.length < effectiveMaximum) .tooManyHeaders
      parseFieldLines effectiveMaximum fuel (fieldLines.removePrefix (lineEnd + 2)) (out ++ [field])

/-- `parse_header_fields`, up to the number of fields that a request can hold. -/
def parseHeaderFields (fieldLines : View) (maxHeaderCount : ℕ) :
    Except ParseError (List (HeaderView View)) :=
  parseFieldLines (min maxHeaderCount kMaxParsedHeaders) fieldLines.size fieldLines []

/-! ### Framing -/

/-- The errors of `std::from_chars`. -/
inductive DecimalError where
  | notANumber
  | outOfRange
  deriving DecidableEq

/-- A canonical decimal numeral: digits only, no leading zero. -/
def isCanonicalDecimal (text : Bytes) : Bool :=
  !text.isEmpty && text.all isDecimalDigit && !(1 < text.length && text.head? == some (byte '0'))

/-- `parse_decimal`, of a `uint64_t`. -/
def parseDecimal (text : Bytes) : Except DecimalError ℕ :=
  if !isCanonicalDecimal text then .error .notANumber
  else if 2 ^ 64 ≤ decimalValue text then .error .outOfRange
  else .ok (decimalValue text)

/-- The loop of `resolve_content_length`: whether a transfer coding was seen, and the length all
`Content-Length` fields agree on. -/
def declaredLength (sawTransferEncoding : Bool) (declared : Option ℕ) :
    List Header → Except ParseError (Bool × Option ℕ)
  | [] => .ok (sawTransferEncoding, declared)
  | field :: rest =>
    if equalsIgnoreCase field.name (ascii "Transfer-Encoding") then declaredLength true declared rest
    else if !equalsIgnoreCase field.name (ascii "Content-Length") then
      declaredLength sawTransferEncoding declared rest
    else
      match parseDecimal field.value with
      | .error .outOfRange => .error .bodyTooLarge
      | .error .notANumber => .error .malformedHeader
      | .ok parsed =>
        -- different lengths let adjacent hops disagree about the next request boundary
        if declared.any (· != parsed) then .error .malformedHeader
        else declaredLength sawTransferEncoding (some parsed) rest

/-- `resolve_content_length`: all declared lengths agree, and none comes with a transfer coding. -/
def resolveContentLength (headers : List Header) (maxBodyBytes : ℕ) : Except ParseError ℕ := do
  let (sawTransferEncoding, declared) ← declaredLength false none headers
  ensure (!sawTransferEncoding) .unsupportedTransferEncoding
  let length := declared.getD 0
  ensure (length ≤ maxBodyBytes) .bodyTooLarge
  return length

/-! ### The authority -/

/-- `port_is_well_formed`. -/
def portIsWellFormed (port : Bytes) : Bool :=
  !(port.isEmpty || 5 < port.length || port.head? == some (byte '0')) &&
    port.all isDecimalDigit && decimalValue port ≤ 65535

/-- `registered_name_is_well_formed`: labels with dots between them, and maybe one at the end. -/
def registeredNameIsWellFormed (host : Bytes) : Bool :=
  let rest := if host.getLast? == some (byte '.') then host.dropLast else host
  (rest.splitOn (byte '.')).all fun label =>
    !label.isEmpty && label.all fun character =>
      isAlphanumeric character || (ascii "-._~").contains character

/-- `INET6_ADDRSTRLEN`. -/
def kInet6AddrStrLen : ℕ := 46

/-- `ip_literal_is_well_formed`: an IPv6 address in brackets. -/
def ipLiteralIsWellFormed (pton : InetPton) (literal : Bytes) : Bool :=
  if literal.head? != some (byte '[') || literal.getLast? != some (byte ']') ||
      literal.length ≤ 2 then false
  else
    let body := (literal.drop 1).take (literal.length - 2)
    if kInet6AddrStrLen ≤ body.length then false
    -- the copy handed to `inet_pton` ends at its first NUL
    else (pton.v6 (body.takeWhile (· != 0))).isSome

/-- `authority_is_well_formed`: a literal or a name, and maybe a port. -/
def authorityIsWellFormed (pton : InetPton) (authority : Bytes) : Bool :=
  if authority.isEmpty || authority.contains (byte '@') then false
  else if authority.head? == some (byte '[') then
    match find (byte ']') authority with
    | none => false
    | some literalEnd =>
      let host := authority.take (literalEnd + 1)
      let tail := authority.drop (literalEnd + 1)
      ipLiteralIsWellFormed pton host &&
        (tail.isEmpty || (tail.head? == some (byte ':') && portIsWellFormed (tail.drop 1)))
  else
    match find (byte ':') authority with
    | none => registeredNameIsWellFormed authority
    | some separator =>
      registeredNameIsWellFormed (authority.take separator) &&
        portIsWellFormed (authority.drop (separator + 1))

/-- The loop of `resolve_authority`: the only `Host` field. -/
def findHost (host : Option View) : List (HeaderView View) → Except ParseError (Option View)
  | [] => .ok host
  | field :: rest =>
    if !equalsIgnoreCase field.name.bytes (ascii "Host") then findHost host rest
    else if host.isSome then .error .malformedHost
    else findHost (some field.value) rest

/-- `resolve_authority`: the authority of the target, or else the one `Host`. -/
def resolveAuthority (pton : InetPton) (headers : List (HeaderView View)) (targetAuthority : View)
    (isVersion11 : Bool) : Except ParseError View := do
  let host ← findHost none headers
  ensure (host.isSome || !isVersion11) .missingHost
  ensure (host.all fun host => authorityIsWellFormed pton host.bytes) .malformedHost
  if targetAuthority.isEmpty then return host.getD default
  ensure (authorityIsWellFormed pton targetAuthority.bytes) .malformedHost
  ensure (host.all fun host => equalsIgnoreCase host.bytes targetAuthority.bytes) .malformedHost
  return targetAuthority

/-! ### Connection options and content codings -/

/-- The values of the fields with a given name, in order. -/
def fieldValues (name : Bytes) (headers : List Header) : List Bytes :=
  (headers.filter fun field => equalsIgnoreCase field.name name).map HeaderView.value

/-- `resolve_keep_alive`, over all members of all fields. -/
def resolveKeepAlive (headers : List Header) (isVersion11 : Bool) : Bool :=
  let options := (fieldValues (ascii "Connection") headers).flatMap (listMembers · (byte ','))
  -- on contradiction, close wins
  if options.any (equalsIgnoreCase · (ascii "close")) then false
  else if isVersion11 then true
  else options.any (equalsIgnoreCase · (ascii "keep-alive"))

/-- `weight_is_zero`. -/
def weightIsZero (weight : Bytes) : Bool :=
  (weight.all fun character => character == byte '.' || character == byte '0') &&
    weight.contains (byte '0')

/-- The last `q` parameter decides. -/
def qualityIsZero (parameters : Bytes) : Bool :=
  (listMembers parameters (byte ';')).foldl (fun isZero parameter =>
    match find (byte '=') parameter with
    | none => isZero
    | some assignment =>
      if equalsIgnoreCase (trimBytes (parameter.take assignment)) (ascii "q") then
        weightIsZero (trimBytes (parameter.drop (assignment + 1)))
      else isZero) false

/-- One member of an `Accept-Encoding` list: what it says about gzip and about `*`. -/
def acceptMember (acceptable : Option Bool × Option Bool) (member : Bytes) :
    Option Bool × Option Bool :=
  let parameters := find (byte ';') member
  let coding := trimBytes (member.take (parameters.getD member.length))
  let isAcceptable := parameters.all fun parameters => !qualityIsZero (member.drop (parameters + 1))
  if equalsIgnoreCase coding (ascii "gzip") || equalsIgnoreCase coding (ascii "x-gzip") then
    (some isAcceptable, acceptable.2)
  else if coding == ascii "*" then (acceptable.1, some isAcceptable)
  else acceptable

/-- `resolve_wants_gzip`: what is said of gzip, or else of everything. -/
def resolveWantsGzip (headers : List Header) : Bool :=
  let members := (fieldValues (ascii "Accept-Encoding") headers).flatMap (listMembers · (byte ','))
  let (gzip, wildcard) := members.foldl acceptMember (none, none)
  gzip.getD (wildcard.getD false)

end ErikslundHttp
