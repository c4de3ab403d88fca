import ErikslundHttp.Text

/-!
# Methods and statuses

The two closed vocabularies of the protocol (`method.hpp`, `status.hpp`).  A `Method` is a bit
mask, so that one value names either a single method or the set of methods a route answers.
-/

namespace ErikslundHttp

/-- A set of request methods, one bit each. -/
structure Method where
  bits : UInt8
  deriving DecidableEq, Repr

namespace Method

protected def none : Method := ⟨0⟩

/-- `Method::Get`, a bit of the mask like the others. -/
def get : Method := ⟨0x01⟩

/-- `Method::Head`. -/
def head : Method := ⟨0x02⟩

/-- `Method::Post`. -/
def post : Method := ⟨0x04⟩

/-- `Method::Put`. -/
def put : Method := ⟨0x08⟩

/-- `Method::Patch`. -/
def patch : Method := ⟨0x10⟩

/-- `Method::Delete`. -/
def delete : Method := ⟨0x20⟩

/-- `Method::Options`. -/
def options : Method := ⟨0x40⟩

instance : Inhabited Method := ⟨Method.none⟩

instance : OrOp Method := ⟨fun left right => ⟨left.bits ||| right.bits⟩⟩

instance : AndOp Method := ⟨fun left right => ⟨left.bits &&& right.bits⟩⟩

/-- Every method of `required` is in `methods`. -/
def contains (methods required : Method) : Bool := (methods.bits &&& required.bits) == required.bits

/-- `kAllMethods`. -/
def all : List Method := [get, head, post, put, patch, delete, options]

/-- The token of a single method, and nothing for `none` and for sets. -/
def name (method : Method) : Bytes :=
  if method = get then ascii "GET"
  else if method = head then ascii "HEAD"
  else if method = post then ascii "POST"
  else if method = put then ascii "PUT"
  else if method = patch then ascii "PATCH"
  else if method = delete then ascii "DELETE"
  else if method = options then ascii "OPTIONS"
  else []

/-- Method tokens are case-sensitive. -/
def fromToken (token : Bytes) : Option Method := all.find? fun candidate => candidate.name == token

theorem fromToken_eq_some_iff {token : Bytes} {method : Method} :
    fromToken token = some method ↔ method ∈ all ∧ method.name = token := by
  constructor
  · intro h
    exact ⟨List.mem_of_find?_eq_some h, by simpa using List.find?_some h⟩
  · rintro ⟨hm, rfl⟩
    revert hm
    simp only [all, List.mem_cons, List.not_mem_nil, or_false]
    rintro (rfl | rfl | rfl | rfl | rfl | rfl | rfl) <;> decide

/-- Method tokens hold letters only. -/
theorem name_bytes {method : Method} {b : UInt8} (h : b ∈ method.name) : 0x41 ≤ b ∧ b ≤ 0x5A := by
  unfold name at h
  split_ifs at h <;> revert b <;> decide +kernel

theorem name_ne_nil {method : Method} (h : method ∈ all) : method.name ≠ [] := by
  revert method
  decide

end Method

/-- The status codes of the library. -/
inductive Status where
  | ok
  | noContent
  | movedPermanently
  | found
  | notModified
  | badRequest
  | unauthorized
  | forbidden
  | notFound
  | methodNotAllowed
  | notAcceptable
  | requestTimeout
  | lengthRequired
  | contentTooLarge
  | uriTooLong
  | misdirectedRequest
  | tooManyRequests
  | requestHeaderFieldsTooLarge
  | internalServerError
  | notImplemented
  | serviceUnavailable
  deriving DecidableEq, Repr

namespace Status

/-- `status_code`. -/
def code : Status → ℕ
  | ok => 200
  | noContent => 204
  | movedPermanently => 301
  | found => 302
  | notModified => 304
  | badRequest => 400
  | unauthorized => 401
  | forbidden => 403
  | notFound => 404
  | methodNotAllowed => 405
  | notAcceptable => 406
  | requestTimeout => 408
  | lengthRequired => 411
  | contentTooLarge => 413
  | uriTooLong => 414
  | misdirectedRequest => 421
  | tooManyRequests => 429
  | requestHeaderFieldsTooLarge => 431
  | internalServerError => 500
  | notImplemented => 501
  | serviceUnavailable => 503

/-- `reason_phrase`. -/
def reasonPhrase : Status → Bytes
  | ok => ascii "OK"
  | noContent => ascii "No Content"
  | movedPermanently => ascii "Moved Permanently"
  | found => ascii "Found"
  | notModified => ascii "Not Modified"
  | badRequest => ascii "Bad Request"
  | unauthorized => ascii "Unauthorized"
  | forbidden => ascii "Forbidden"
  | notFound => ascii "Not Found"
  | methodNotAllowed => ascii "Method Not Allowed"
  | notAcceptable => ascii "Not Acceptable"
  | requestTimeout => ascii "Request Timeout"
  | lengthRequired => ascii "Length Required"
  | contentTooLarge => ascii "Content Too Large"
  | uriTooLong => ascii "URI Too Long"
  | misdirectedRequest => ascii "Misdirected Request"
  | tooManyRequests => ascii "Too Many Requests"
  | requestHeaderFieldsTooLarge => ascii "Request Header Fields Too Large"
  | internalServerError => ascii "Internal Server Error"
  | notImplemented => ascii "Not Implemented"
  | serviceUnavailable => ascii "Service Unavailable"

/-- These statuses suppress both the body and `Content-Length`. -/
def isBodiless (status : Status) : Bool := status == noContent || status == notModified

end Status

end ErikslundHttp
