import ErikslundHttp.Lib.FlatMap
import ErikslundHttp.Request.Scanners

/-!
# Responses

`Response` with its factories and builders (`response.hpp`, `response.cpp`).  Header fields come
from handlers as arbitrary byte strings; `setHeader` ignores those that cannot stand in a field
line, and writes over a field of the same name in any letter case.  A `HeaderMap` therefore
carries the proof that its names are tokens, that its values have no control characters, and that
no two names differ only in letter case.
-/

namespace ErikslundHttp

/-! ### Field names and values -/

/-- An RFC 9110 token. -/
def isValidFieldName (name : Bytes) : Bool := !name.isEmpty && name.all isTokenCharacter

/-- A control character would split the response. -/
def isValidFieldValue (value : Bytes) : Bool := value.all isValidFieldValueByte

/-! ### The header map -/

/-- One value per field name, with deterministic iteration order. -/
structure HeaderMap where
  /-- The names with their values. -/
  entries : List (Bytes × Bytes)
  sorted : FlatMap.Sorted entries
  /-- The names are tokens. -/
  validNames : ∀ e ∈ entries, isValidFieldName e.1 = true
  /-- The values hold no control byte but the tab. -/
  validValues : ∀ e ∈ entries, isValidFieldValue e.2 = true
  /-- No two names differ in their case only. -/
  distinct : (entries.map Prod.fst).Pairwise fun a b => equalsIgnoreCase a b = false

namespace HeaderMap

/-- No fields. -/
def empty : HeaderMap := ⟨[], List.Pairwise.nil, by simp, by simp, List.Pairwise.nil⟩

instance : Inhabited HeaderMap := ⟨empty⟩

/-- The name under which a field is kept already, in the letter case of its first writer. -/
def existingName (headers : HeaderMap) (name : Bytes) : Option Bytes :=
  (headers.entries.map Prod.fst).find? fun existing => equalsIgnoreCase existing name

theorem distinct_insert_of_existing {headers : HeaderMap} {name existing : Bytes}
    (h : headers.existingName name = some existing) (value : Bytes) :
    ((FlatMap.insertOrAssign existing value headers.entries).map Prod.fst).Pairwise
      fun a b => equalsIgnoreCase a b = false := by
  rw [FlatMap.keys_insertOrAssign_of_mem headers.sorted (List.mem_of_find?_eq_some h)]
  exact headers.distinct

theorem distinct_insert_of_new {headers : HeaderMap} {name : Bytes}
    (h : headers.existingName name = none) (value : Bytes) :
    ((FlatMap.insertOrAssign name value headers.entries).map Prod.fst).Pairwise
      fun a b => equalsIgnoreCase a b = false := by
  have hnew : ∀ existing ∈ headers.entries.map Prod.fst, equalsIgnoreCase existing name = false := by
    simpa [existingName] using h
  have hname : name ∉ headers.entries.map Prod.fst := fun hmem =>
    Bool.false_ne_true ((hnew name hmem).symm.trans (equalsIgnoreCase_refl name))
  have hsymm : ∀ {a b : Bytes}, equalsIgnoreCase a b = false → equalsIgnoreCase b a = false := by
    intro a b hab
    by_contra hba
    rw [equalsIgnoreCase_symm (Bool.not_eq_false _ ▸ hba)] at hab
    exact Bool.noConfusion hab
  refine ((FlatMap.keys_insertOrAssign_perm hname value).pairwise_iff hsymm).2 ?_
  exact List.pairwise_cons.2 ⟨fun existing hmem => hsymm (hnew existing hmem), headers.distinct⟩

/-- `insert_or_assign` of a field that has passed the checks. -/
def insert (headers : HeaderMap) (key value : Bytes) (hkey : isValidFieldName key = true)
    (hvalue : isValidFieldValue value = true)
    (hdistinct : ((FlatMap.insertOrAssign key value headers.entries).map Prod.fst).Pairwise
      fun a b => equalsIgnoreCase a b = false) : HeaderMap where
  entries := FlatMap.insertOrAssign key value headers.entries
  sorted := headers.sorted.insertOrAssign key value
  validNames e he := by
    rcases FlatMap.mem_insertOrAssign he with rfl | he
    · exact hkey
    · exact headers.validNames e he
  validValues e he := by
    rcases FlatMap.mem_insertOrAssign he with rfl | he
    · exact hvalue
    · exact headers.validValues e he
  distinct := hdistinct

theorem existingName_valid {headers : HeaderMap} {name existing : Bytes}
    (h : headers.existingName name = some existing) : isValidFieldName existing = true := by
  obtain ⟨e, he, rfl⟩ := List.mem_map.1 (List.mem_of_find?_eq_some h)
  exact headers.validNames e he

/-- `set_header`, on the map. -/
def set (headers : HeaderMap) (name value : Bytes) : HeaderMap :=
  if hname : isValidFieldName name = true then
    if hvalue : isValidFieldValue value = true then
      match h : headers.existingName name with
      | some existing =>
        headers.insert existing value (existingName_valid h) hvalue
          (distinct_insert_of_existing h value)
      | none => headers.insert name value hname hvalue (distinct_insert_of_new h value)
    else headers
  else headers

/-- `find_header`, on the map: the first field of that name in any letter case. -/
def find (headers : HeaderMap) (name : Bytes) : Option Bytes :=
  (headers.entries.find? fun e => equalsIgnoreCase e.1 name).map Prod.snd

end HeaderMap

/-! ### Streams -/

/-- The answers of `StreamSource::pull`. -/
inductive Pull where
  | wrote
  | idle
  | finished
  deriving DecidableEq, Repr

/-- What an application's stream source does: the content type it names, whether `on_attached`
throws, and for the `n`-th call of `pull` the bytes it appends and its answer (`none` if it
throws). -/
structure StreamSource where
  /-- The type that the head announces. -/
  contentType : Bytes
  /-- `on_attached` throws. -/
  attachThrows : Bool
  /-- The bytes of the `n`-th call and its answer. -/
  pull : ℕ → Bytes × Option Pull

/-! ### Responses -/

/-- Owned and borrowed bodies read the same bytes. -/
structure Response where
  status : Status := .ok
  body : Bytes := []
  headers : HeaderMap := .empty
  /-- The source, if the response is a stream. -/
  stream : Option StreamSource := none

namespace Response

/-- `Response::is_stream`. -/
def isStream (r : Response) : Bool := r.stream.isSome

/-- `Response::find_header`. -/
def findHeader (r : Response) (name : Bytes) : Option Bytes := r.headers.find name

/-- Invalid names and values are ignored. -/
def setHeader (r : Response) (name value : Bytes) : Response :=
  { r with headers := r.headers.set name value }

/-! ### Factories -/

/-- The factories of a body with a fixed content type. -/
def typed (contentType body : Bytes) (status : Status) : Response :=
  { status := status, body := body : Response }.setHeader (ascii "Content-Type") contentType

/-- `Response::text`. -/
def text (body : Bytes) (status : Status := .ok) : Response :=
  typed (ascii "text/plain; charset=utf-8") body status

/-- `Response::html`. -/
def html (body : Bytes) (status : Status := .ok) : Response :=
  typed (ascii "text/html; charset=utf-8") body status

/-- `Response::json`. -/
def json (body : Bytes) (status : Status := .ok) : Response :=
  typed (ascii "application/json") body status

/-- `Response::prometheus`. -/
def prometheus (body : Bytes) : Response :=
  typed (ascii "text/plain; version=0.0.4; charset=utf-8") body .ok

/-- `Response::borrowed`; an empty content type omits the field. -/
def borrowed (body contentType : Bytes) (status : Status := .ok) : Response :=
  let response : Response := { status := status, body := body }
  if contentType.isEmpty then response else response.setHeader (ascii "Content-Type") contentType

/-- `Response::empty`. -/
def empty (status : Status) : Response := { status := status }

/-- `Response::stream`; a null source gives an empty response. -/
def ofStream (source : Option StreamSource) : Response :=
  match source with
  | none => {}
  | some source =>
    let response : Response := {}
    let response := if source.contentType.isEmpty then response
      else response.setHeader (ascii "Content-Type") source.contentType
    { response.setHeader (ascii "Cache-Control") (ascii "no-store") with stream := some source }

/-! ### Builders -/

/-- `Response::header`. -/
def header (r : Response) (name value : Bytes) : Response := r.setHeader name value

/-- `Response::etag`. -/
def etag (r : Response) (value : Bytes) : Response := r.setHeader (ascii "ETag") value

/-- `Response::etag_from_body`; a stream has no body to hash. -/
def etagFromBody (r : Response) : Response :=
  if r.isStream then r else r.setHeader (ascii "ETag") (weakEtag r.body)

/-- `Response::content_encoding`. -/
def contentEncoding (r : Response) (value : Bytes) : Response :=
  r.setHeader (ascii "Content-Encoding") value

end Response

end ErikslundHttp
